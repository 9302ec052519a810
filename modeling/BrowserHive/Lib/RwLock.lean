import Mathlib.Logic.Relation

/-! A fair, write-preferring reader-writer lock: requests queue in arrival order, a
read waits behind every queued write, a write waits for everything ahead of it and
for every guard. The wait-for graph has a cycle exactly when some task waits for
guards that only tasks on the cycle, itself included, can release. -/
namespace RwLock

inductive Access where
  | read
  | write
  deriving DecidableEq, Repr

/-- Two accesses exclude each other unless both read. -/
def Access.conflicts : Access → Access → Bool
  | .read, .read => false
  | _, _ => true

theorem conflicts_comm (first second : Access) : first.conflicts second = second.conflicts first := by
  cases first <;> cases second <;> rfl

universe u

structure Lock (τ : Type u) where
  holders : List (τ × Access)
  queue : List (τ × Access)

variable {τ : Type u}

def Grantable (l : Lock τ) (ahead : List (τ × Access)) (access : Access) : Prop :=
  ∀ other ∈ l.holders ++ ahead, access.conflicts other.2 = false

/-- `t` waits for `u`: a queued request of `t` conflicts with a guard of `u`, or with a
request of `u` that is ahead of it. -/
def WaitsOn (l : Lock τ) (t u : τ) : Prop :=
  ∃ ahead behind access other, l.queue = ahead ++ (t, access) :: behind ∧
    (u, other) ∈ l.holders ++ ahead ∧ access.conflicts other = true

/-- `t` can only proceed once a task that waits, directly or not, for `t` has released. -/
def Stuck (l : Lock τ) (t : τ) : Prop := Relation.TransGen (WaitsOn l) t t

def Deadlocked (l : Lock τ) : Prop := ∃ t, Stuck l t

/-- Whoever waits while holding a guard is not blocked: its request conflicts with
nothing ahead of it. -/
def HoldersUnblocked (l : Lock τ) : Prop :=
  ∀ ahead behind t access, l.queue = ahead ++ (t, access) :: behind →
    (∃ own, (t, own) ∈ l.holders) → Grantable l ahead access

theorem WaitsOn.blocked (waits : WaitsOn l t u) :
    ∃ ahead behind access, l.queue = ahead ++ (t, access) :: behind ∧ ¬Grantable l ahead access := by
  obtain ⟨ahead, behind, access, other, split, member, conflict⟩ := waits
  refine ⟨ahead, behind, access, split, fun granted => ?_⟩
  have := granted _ member
  simp [conflict] at this

/-- Position of a task's request; queues hold at most one request for each task. -/
theorem position_unique [DecidableEq τ] {l : Lock τ} (single : (l.queue.map Prod.fst).Nodup)
    (first : l.queue = ahead ++ (t, access) :: behind) :
    (l.queue.map Prod.fst).idxOf t = ahead.length := by
  rw [first] at single ⊢
  have fresh : t ∉ ahead.map Prod.fst := by
    simp only [List.map_append, List.map_cons] at single
    intro member
    exact (List.nodup_append.mp single).2.2 t member t (by simp) rfl
  simp only [List.map_append, List.map_cons]
  rw [List.idxOf_append, if_neg fresh]
  simp

/-- A task on a wait-for path out of which a further wait leads holds no guard, so it
is queued strictly ahead of the task that waits for it. -/
theorem WaitsOn.earlier [DecidableEq τ] {l : Lock τ} (single : (l.queue.map Prod.fst).Nodup)
    (free : HoldersUnblocked l) (first : WaitsOn l t u) (second : WaitsOn l u v) :
    (l.queue.map Prod.fst).idxOf u < (l.queue.map Prod.fst).idxOf t := by
  obtain ⟨ahead, behind, access, other, split, member, _⟩ := first
  have notHolding : ∀ own, (u, own) ∉ l.holders := by
    intro own holds
    obtain ⟨_, _, _, queued, blocked⟩ := second.blocked
    exact blocked (free _ _ _ _ queued ⟨own, holds⟩)
  have queuedAhead : (u, other) ∈ ahead := by
    rcases List.mem_append.mp member with holds | queued
    · exact absurd holds (notHolding other)
    · exact queued
  obtain ⟨before, after, rfl⟩ := List.append_of_mem queuedAhead
  have sooner : l.queue = before ++ (u, other) :: (after ++ (t, access) :: behind) := by rw [split]; simp
  rw [position_unique single split, position_unique single sooner]
  simp

/-- No cycle can form as long as no guard holder is blocked: along a cycle positions in
the queue would decrease forever. -/
theorem not_deadlocked [DecidableEq τ] {l : Lock τ} (single : (l.queue.map Prod.fst).Nodup)
    (free : HoldersUnblocked l) : ¬Deadlocked l := by
  rintro ⟨t, cycle⟩
  have descends : ∀ u, Relation.TransGen (WaitsOn l) t u → (∃ v, WaitsOn l u v) →
      (l.queue.map Prod.fst).idxOf u < (l.queue.map Prod.fst).idxOf t := by
    intro u path
    induction path with
    | single first => exact fun ⟨_, next⟩ => first.earlier single free next
    | tail _ last ih =>
      rintro ⟨_, next⟩
      exact Nat.lt_trans (last.earlier single free next) (ih ⟨_, last⟩)
  have outgoing : ∃ v, WaitsOn l t v := by
    obtain ⟨v, first, _⟩ := Relation.TransGen.head'_iff.mp cycle
    exact ⟨v, first⟩
  exact Nat.lt_irrefl _ (descends t cycle outgoing)

/-- Asking to write while holding a guard of one's own waits for oneself. -/
theorem deadlocked_of_upgrade {l : Lock τ} (queued : (t, .write) ∈ l.queue)
    (holds : (t, own) ∈ l.holders) : Deadlocked l := by
  obtain ⟨ahead, behind, split⟩ := List.append_of_mem queued
  refine ⟨t, .single ⟨ahead, behind, .write, own, split, List.mem_append_left _ holds, ?_⟩⟩
  cases own <;> rfl

/-- Asking to read behind a queued writer while holding a guard closes a cycle: the
reader waits behind the writer, the writer for the reader's guard. -/
theorem deadlocked_of_nested_read {l : Lock τ} (split : l.queue = ahead ++ (t, .read) :: behind)
    (writer : (u, .write) ∈ ahead) (holds : (t, own) ∈ l.holders) : Deadlocked l := by
  obtain ⟨before, after, rfl⟩ := List.append_of_mem writer
  refine ⟨t, .tail (b := u) (.single ?_) ?_⟩
  · exact ⟨before ++ (u, .write) :: after, behind, .read, .write, split, by simp, rfl⟩
  · refine ⟨before, after ++ (t, .read) :: behind, .write, own, by rw [split]; simp, by simp [holds], ?_⟩
    cases own <;> rfl

/-- A request that survives a withdrawal of others kept its place among the rest. -/
theorem split_of_filter {queue : List (τ × Access)} {keep : τ × Access → Bool}
    (split : queue.filter keep = ahead ++ entry :: behind) :
    ∃ before after, queue = before ++ entry :: after ∧ ahead = before.filter keep := by
  obtain ⟨first, second, rfl, rfl, later⟩ := List.filter_eq_append_iff.mp split
  obtain ⟨skipped, after, rfl, dropped, _, _⟩ := List.filter_eq_cons_iff.mp later
  refine ⟨first ++ skipped, after, by simp, ?_⟩
  rw [List.filter_append, List.filter_eq_nil_iff.mpr dropped, List.append_nil]

/-- Releasing guards and withdrawing requests blocks nobody. -/
theorem HoldersUnblocked.release {l l' : Lock τ} {keep : τ × Access → Bool} (free : HoldersUnblocked l)
    (holders : ∀ entry ∈ l'.holders, entry ∈ l.holders) (queue : l'.queue = l.queue.filter keep) :
    HoldersUnblocked l' := by
  rintro ahead behind t access split ⟨own, holds⟩ other member
  obtain ⟨before, after, placed, rfl⟩ := split_of_filter (queue ▸ split)
  refine free before after t access placed ⟨own, holders _ holds⟩ other ?_
  rcases List.mem_append.mp member with held | queued
  · exact List.mem_append_left _ (holders _ held)
  · exact List.mem_append_right _ (List.mem_filter.mp queued).1

/-- A new request blocks no one ahead of it, and not its own task when that holds no
guard or could be granted at once. -/
theorem HoldersUnblocked.ask {l : Lock τ} (free : HoldersUnblocked l)
    (unblocked : (∃ own, (t, own) ∈ l.holders) → Grantable l l.queue access) :
    HoldersUnblocked ⟨l.holders, l.queue ++ [(t, access)]⟩ := by
  intro ahead behind u asked split holds
  rcases List.eq_nil_or_concat behind with rfl | ⟨rest, last, rfl⟩
  · obtain ⟨rfl, same⟩ := List.append_inj' split rfl
    obtain ⟨rfl, rfl⟩ := by simpa using same
    exact unblocked holds
  · have regrouped : l.queue ++ [(t, access)] = (ahead ++ (u, asked) :: rest) ++ [last] := by simpa using split
    obtain ⟨placed, _⟩ := List.append_inj' regrouped rfl
    exact free ahead rest u asked placed holds

/-- Granting the request whose turn it is blocks no holder: what was ahead of it does
not conflict with it, and who is behind it waited for it already. -/
theorem HoldersUnblocked.grant [DecidableEq τ] {l l' : Lock τ} (free : HoldersUnblocked l)
    (asked : ∀ queued, (t, queued) ∈ l.queue → queued = access)
    (granted : Grantable l (l.queue.takeWhile (fun entry => entry.1 ≠ t)) access)
    (holders : ∀ entry ∈ l'.holders, entry ∈ l.holders ∨ entry = (t, access))
    (queue : l'.queue = l.queue.filter (fun entry => entry.1 ≠ t)) : HoldersUnblocked l' := by
  rintro ahead behind u other split ⟨own, holds⟩ entry member
  have apart : u ≠ t := by
    have : (u, other) ∈ l'.queue := by simp [split]
    rw [queue] at this
    simpa using (List.mem_filter.mp this).2
  obtain ⟨before, after, placed, rfl⟩ := split_of_filter (queue ▸ split)
  have held : (u, own) ∈ l.holders := by
    rcases holders _ holds with old | new
    · exact old
    · exact absurd (congrArg Prod.fst new) apart
  have unblocked := free before after u other placed ⟨own, held⟩
  rcases List.mem_append.mp member with guard | queued
  · rcases holders _ guard with old | rfl
    · exact unblocked entry (List.mem_append_left _ old)
    · by_cases behindIt : ∃ queued, (t, queued) ∈ before
      · obtain ⟨queued, inside⟩ := behindIt
        obtain rfl := asked queued (by rw [placed]; exact List.mem_append_left _ inside)
        exact unblocked (t, queued) (List.mem_append_right _ inside)
      · have inFront : (u, other) ∈ l.queue.takeWhile (fun entry => entry.1 ≠ t) := by
          rw [placed, List.takeWhile_append_of_pos (by grind)]
          simp [apart]
        rw [conflicts_comm]
        exact granted (u, other) (List.mem_append_right _ inFront)
  · exact unblocked entry (List.mem_append_right _ (List.mem_filter.mp queued).1)

end RwLock
