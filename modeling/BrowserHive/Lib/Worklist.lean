import Mathlib.Data.Finset.Card
import Mathlib.Logic.Relation

/-! A worklist: what is reachable from a root, breadth first. The loop ends although the graph
may have cycles, since every round takes one entry off the queue and every entry was unseen
when it was put there. -/
namespace Worklist

universe u

structure State (α : Type u) where
  found : List α
  seen : Finset α
  queue : List α

variable {α : Type u} [DecidableEq α]

def start (root : α) : State α := ⟨[],{root},[root]⟩

def visit (s : State α) (child : α) : State α :=
  if child ∈ s.seen then s else ⟨s.found ++ [child],insert child s.seen,s.queue ++ [child]⟩

def step (next : α → List α) (s : State α) : Option (State α) :=
  match s.queue with
  | [] => none
  | x :: rest => some ((next x).foldl visit { s with queue := rest })

def run (next : α → List α) : Nat → State α → State α
  | 0, s => s
  | fuel + 1, s =>
    match step next s with
    | none => s
    | some t => run next fuel t

def Reaches (next : α → List α) : α → α → Prop := Relation.ReflTransGen (fun x y => y ∈ next x)

variable {next : α → List α} {root : α} {s t : State α} {targets : Finset α}

/-- What every visit keeps: what was found is what was seen besides the root, each once, and
the queue holds seen entries. -/
structure Tidy (root : α) (s : State α) : Prop where
  nodup : s.found.Nodup
  seen : ∀ x, x ∈ s.seen ↔ x = root ∨ x ∈ s.found
  root : root ∉ s.found
  queue : ∀ x ∈ s.queue, x ∈ s.seen

omit [DecidableEq α] in
theorem Tidy.start (root : α) : Tidy root (start root) := by
  refine ⟨List.nodup_nil,fun x => ?_,List.not_mem_nil,fun x mem => ?_⟩
  · simp [Worklist.start]
  · simpa [Worklist.start] using mem

theorem Tidy.visit (tidy : Tidy root s) (child : α) : Tidy root (visit s child) := by
  rw [Worklist.visit]
  split
  · exact tidy
  · next fresh =>
    obtain ⟨other,absent⟩ := not_or.mp (mt (tidy.seen child).mpr fresh)
    refine ⟨?_,fun x => ?_,?_,fun x mem => ?_⟩
    · rw [List.nodup_append]
      exact ⟨tidy.nodup,List.nodup_singleton child,fun x mem y own =>
        fun same => absent (List.mem_singleton.mp own ▸ same ▸ mem)⟩
    · rw [Finset.mem_insert,tidy.seen,List.mem_append,List.mem_singleton,or_comm,or_assoc]
    · rw [List.mem_append,List.mem_singleton]
      exact not_or.mpr ⟨tidy.root,Ne.symm other⟩
    · rcases List.mem_append.mp mem with old | new
      · exact Finset.mem_insert_of_mem (tidy.queue x old)
      · exact List.mem_singleton.mp new ▸ Finset.mem_insert_self _ _

theorem Tidy.visits (tidy : Tidy root s) (children : List α) : Tidy root (children.foldl Worklist.visit s) := by
  induction children generalizing s with
  | nil => exact tidy
  | cons child rest ih => exact ih (tidy.visit child)

/-- Visits see the children, and put nothing else in the queue. -/
theorem mem_seen_visits (s : State α) (children : List α) (x : α) :
    x ∈ (children.foldl visit s).seen ↔ x ∈ s.seen ∨ x ∈ children := by
  induction children generalizing s with
  | nil => simp
  | cons child rest ih =>
    rw [List.foldl_cons,ih,visit,List.mem_cons]
    split
    · next known =>
      constructor
      · exact fun either => either.imp_right .inr
      · rintro (old | rfl | later)
        · exact .inl old
        · exact .inl known
        · exact .inr later
    · simp only [Finset.mem_insert]
      rw [or_comm (a := x = child),or_assoc]

theorem mem_queue_visits (s : State α) (children : List α) (x : α) :
    x ∈ (children.foldl visit s).queue ↔ x ∈ s.queue ∨ (x ∈ children ∧ x ∉ s.seen) := by
  induction children generalizing s with
  | nil => simp
  | cons child rest ih =>
    rw [List.foldl_cons,ih,visit]
    split
    · next known =>
      refine or_congr_right ⟨fun both => ⟨List.mem_cons_of_mem child both.1,both.2⟩,fun both => ⟨?_,both.2⟩⟩
      rcases List.mem_cons.mp both.1 with rfl | later
      · exact absurd known both.2
      · exact later
    · next fresh =>
      simp only [List.mem_append,Finset.mem_insert,List.mem_cons]
      by_cases own : x = child
      · simp [own,fresh]
      · simp [own]

structure Sound (next : α → List α) (root : α) (s : State α) : Prop where
  tidy : Tidy root s
  reached : ∀ x ∈ s.seen, Reaches next root x
  closed : ∀ x ∈ s.seen, x ∈ s.queue ∨ ∀ y ∈ next x, y ∈ s.seen

omit [DecidableEq α] in
theorem Sound.start (next : α → List α) (root : α) : Sound next root (start root) := by
  refine ⟨.start root,fun x mem => ?_,fun x mem => ?_⟩
  · obtain rfl : x = root := by simpa [Worklist.start] using mem
    exact .refl
  · exact .inl (by simpa [Worklist.start] using mem)

theorem Sound.step (sound : Sound next root s) (taken : step next s = some t) : Sound next root t := by
  rw [Worklist.step] at taken
  split at taken
  · contradiction
  · next x rest queue =>
    obtain rfl := Option.some.inj taken
    have first : x ∈ s.seen := sound.tidy.queue x (by simp [queue])
    have popped : Tidy root { s with queue := rest } :=
      ⟨sound.tidy.nodup,sound.tidy.seen,sound.tidy.root,fun y mem => sound.tidy.queue y (by simp [queue,mem])⟩
    refine ⟨popped.visits _,fun y mem => ?_,fun y mem => ?_⟩
    · rcases (mem_seen_visits _ _ y).mp mem with old | child
      · exact sound.reached y old
      · exact (sound.reached x first).tail child
    · rw [mem_queue_visits]
      rcases (mem_seen_visits _ _ y).mp mem with old | child
      · rcases sound.closed y old with waiting | done
        · rw [queue] at waiting
          rcases List.mem_cons.mp waiting with rfl | later
          · exact .inr fun z child => (mem_seen_visits _ _ z).mpr (.inr child)
          · exact .inl (.inl later)
        · exact .inr fun z child => (mem_seen_visits _ _ z).mpr (.inl (done z child))
      · by_cases known : y ∈ s.seen
        · rcases sound.closed y known with waiting | done
          · rw [queue] at waiting
            rcases List.mem_cons.mp waiting with rfl | later
            · exact .inr fun z child => (mem_seen_visits _ _ z).mpr (.inr child)
            · exact .inl (.inl later)
          · exact .inr fun z child => (mem_seen_visits _ _ z).mpr (.inl (done z child))
        · exact .inl (.inr ⟨child,known⟩)

theorem Sound.run (sound : Sound next root s) (fuel : Nat) : Sound next root (run next fuel s) := by
  induction fuel generalizing s with
  | zero => exact sound
  | succ fuel ih =>
    rw [Worklist.run]
    cases taken : Worklist.step next s with
    | none => exact sound
    | some t => exact ih (sound.step taken)

def work (targets : Finset α) (s : State α) : Nat := s.queue.length + (targets \ s.seen).card

theorem work_visits (s : State α) (children : List α) (inside : ∀ x ∈ children, x ∈ targets) :
    work targets (children.foldl visit s) = work targets s := by
  induction children generalizing s with
  | nil => rfl
  | cons child rest ih =>
    rw [List.foldl_cons,ih _ (fun x mem => inside x (List.mem_cons_of_mem child mem)),visit]
    split
    · rfl
    · next fresh =>
      have mem : child ∈ targets \ s.seen := Finset.mem_sdiff.mpr ⟨inside child List.mem_cons_self,fresh⟩
      have smaller : targets \ insert child s.seen = (targets \ s.seen).erase child := by
        ext x
        simp only [Finset.mem_sdiff,Finset.mem_insert,Finset.mem_erase]
        tauto
      have some_ : 0 < (targets \ s.seen).card := Finset.card_pos.mpr ⟨child,mem⟩
      rw [work,work,smaller,Finset.card_erase_of_mem mem,List.length_append,List.length_singleton]
      omega

theorem work_step (inside : ∀ x, ∀ y ∈ next x, y ∈ targets) (taken : step next s = some t) :
    work targets t + 1 = work targets s := by
  rw [step] at taken
  split at taken
  · contradiction
  · next x rest queue =>
    obtain rfl := Option.some.inj taken
    rw [work_visits _ _ (inside x),work,work,queue,List.length_cons]
    simp only
    omega

theorem run_empty (targets : Finset α) (inside : ∀ x, ∀ y ∈ next x, y ∈ targets) (fuel : Nat) (enough : work targets s ≤ fuel) :
    (run next fuel s).queue = [] := by
  induction fuel generalizing s with
  | zero =>
    rw [work] at enough
    exact List.length_eq_zero_iff.mp (by rw [run]; omega)
  | succ fuel ih =>
    rw [run]
    cases taken : step next s with
    | none =>
      rw [step] at taken
      split at taken
      · assumption
      · contradiction
    | some t =>
      have less := work_step inside taken
      exact ih (by omega)

theorem run_more (fuel more : Nat) (empty : (run next fuel s).queue = []) : run next (fuel + more) s = run next fuel s := by
  induction fuel generalizing s with
  | zero =>
    have none_ : step next s = none := by
      rw [step]
      rw [run] at empty
      rw [empty]
    cases more with
    | zero => rfl
    | succ more =>
      simp only [run,none_]
  | succ fuel ih =>
    rw [Nat.succ_add,run,run]
    rw [run] at empty
    cases taken : step next s with
    | none => rfl
    | some t =>
      rw [taken] at empty
      exact ih empty

omit [DecidableEq α] in
/-- When the queue is empty, what was found is what can be reached, the root left out. -/
theorem Sound.found (sound : Sound next root s) (empty : s.queue = []) (x : α) :
    x ∈ s.found ↔ x ≠ root ∧ Reaches next root x := by
  have all : ∀ y, Reaches next root y → y ∈ s.seen := by
    intro y reaches
    induction reaches with
    | refl => exact (sound.tidy.seen root).mpr (.inl rfl)
    | tail _ child ih =>
      rcases sound.closed _ ih with waiting | done
      · rw [empty] at waiting
        exact absurd waiting List.not_mem_nil
      · exact done _ child
  constructor
  · intro mem
    exact ⟨fun same => sound.tidy.root (same ▸ mem),sound.reached x ((sound.tidy.seen x).mpr (.inr mem))⟩
  · rintro ⟨other,reaches⟩
    exact ((sound.tidy.seen x).mp (all x reaches)).resolve_left other

end Worklist
