import BrowserHive.Lib.Least
import BrowserHive.Quarantine
import BrowserHive.Pool.Acquire

/-! The three ways an idle context is claimed, with everything they do to the pool: which
context each takes, and that a pass changes nothing else but drop expired quarantines. -/
namespace BrowserHive.Pool

open BrowserHive

def PoolState.askQuarantine (p : PoolState) (c : ContextId) (now : Nat) (origin : String) :
    Option Nat × PoolState :=
  (((p.ctx c).askQuarantine now origin).1,p.modify c fun context => (context.askQuarantine now origin).2)

/-- A pass over contexts, from position `i` on; a visit may change the pool. -/
def scan (visit : Nat → ContextId → PoolState → Option α × PoolState) :
    Nat → List ContextId → PoolState → List α × PoolState
  | _, [], p => ([],p)
  | i, c :: rest, p =>
    let (found,p) := visit i c p
    let (later,p) := scan visit (i + 1) rest p
    (found.toList ++ later,p)

namespace Pruning

def visitLeastUsed (origin : Option String) (lifecycle : ContextLifecycleConfig) (clock : Readings)
    (i : Nat) (c : ContextId) (p : PoolState) : Option ContextId × PoolState :=
  if p.isBusy c then (none,p)
  else if (p.ctx c).isUsedUp lifecycle (clock i .age) then (none,p)
  else match origin with
    | none => (some c,p)
    | some origin =>
      let (until_,p) := p.askQuarantine c (clock i .block) origin
      (if until_.isNone then some c else none,p)

def leastUsedCandidates (p : PoolState) (origin : Option String) (lifecycle : ContextLifecycleConfig)
    (clock : Readings) : List ContextId × PoolState :=
  let (candidates,p) := scan (visitLeastUsed origin lifecycle clock) 0 p.contexts p
  (sortByKey (fun c => (p.ctx c).totalRequests) candidates,p)

def claimLeastUsedIdle (p : PoolState) (origin : Option String) (lifecycle : ContextLifecycleConfig)
    (clock : Readings) : PoolState × Option ContextId :=
  let (candidates,p) := leastUsedCandidates p origin lifecycle clock
  claimFirst p id candidates

def visitSoonest (origin : String) (lifecycle : ContextLifecycleConfig) (clock : Readings)
    (i : Nat) (c : ContextId) (p : PoolState) : Option (ContextId × Nat) × PoolState :=
  if p.isBusy c then (none,p)
  else if (p.ctx c).isUsedUp lifecycle (clock i .age) then (none,p)
  else
    let (until_,p) := p.askQuarantine c (clock i .block) origin
    (until_.map (c,·),p)

def soonestCandidates (p : PoolState) (origin : String) (lifecycle : ContextLifecycleConfig)
    (clock : Readings) : List (ContextId × Nat) × PoolState :=
  let (candidates,p) := scan (visitSoonest origin lifecycle clock) 0 p.contexts p
  (sortByKey Prod.snd candidates,p)

def claimSoonestUnquarantined (p : PoolState) (origin : String) (lifecycle : ContextLifecycleConfig)
    (clock : Readings) : PoolState × Option (ContextId × Nat) :=
  let (candidates,p) := soonestCandidates p origin lifecycle clock
  claimFirst p Prod.fst candidates

end Pruning

structure Readings.Within (clock : Readings) (finish : Nat) : Prop where
  advances : ∀ i j (r q : Reading), i < j ∨ i = j ∧ r.rank ≤ q.rank → clock i r ≤ clock j q
  ends : ∀ i r, clock i r ≤ finish

/-- Quarantines that had ended are gone; a later question is answered the same. -/
structure Pruned (finish : Nat) (p q : PoolState) : Prop where
  shared : q = { p with ctx := q.ctx }
  fields : ∀ d, q.ctx d = { p.ctx d with blockedOrigins := (q.ctx d).blockedOrigins }
  reports : ∀ d origin t, finish ≤ t → (q.ctx d).quarantinedUntil t origin = (p.ctx d).quarantinedUntil t origin

namespace Pruned

variable {p q r : PoolState}

theorem refl (t : Nat) (p : PoolState) : Pruned t p p := ⟨rfl,fun _ => rfl,fun _ _ _ _ => rfl⟩

theorem mono (pruned : Pruned t p q) (later : t ≤ finish) : Pruned finish p q :=
  ⟨pruned.shared,pruned.fields,fun d origin now after => pruned.reports d origin now (Nat.le_trans later after)⟩

theorem trans (first : Pruned t p q) (second : Pruned t q r) : Pruned t p r where
  shared := by
    rw [second.shared,first.shared]
  fields d := by
    rw [second.fields d,first.fields d]
  reports d origin now after := (second.reports d origin now after).trans (first.reports d origin now after)

theorem contexts (pruned : Pruned t p q) : q.contexts = p.contexts := by
  rw [pruned.shared]

theorem isBusy (pruned : Pruned t p q) (c : ContextId) : q.isBusy c = p.isBusy c := by
  rw [PoolState.isBusy,pruned.fields c]
  rfl

theorem isUsedUp (pruned : Pruned t p q) (c : ContextId) (lifecycle : ContextLifecycleConfig) (now : Nat) :
    (q.ctx c).isUsedUp lifecycle now = (p.ctx c).isUsedUp lifecycle now := by
  rw [pruned.fields c]
  rfl

theorem totalRequests (pruned : Pruned t p q) (c : ContextId) :
    (q.ctx c).totalRequests = (p.ctx c).totalRequests := by
  rw [pruned.fields c]

end Pruned

theorem askQuarantine_reports (context : BrowserContext) (now : Nat) (origin : String) (later : now ≤ t)
    (other : String) : (context.askQuarantine now origin).2.quarantinedUntil t other = context.quarantinedUntil t other := by
  unfold BrowserContext.askQuarantine
  split
  · next key deadline found =>
    split
    · rfl
    · next ended =>
      have same : key = origin := by simpa using List.find?_some found
      by_cases asked : other = origin
      · subst asked
        have gone : (context.blockedOrigins.filter fun entry => entry.1 != other).find?
            (fun entry => entry.1 == other) = none :=
          List.find?_eq_none.mpr fun entry member => by simpa using (List.mem_filter.mp member).2
        simp only [BrowserContext.quarantinedUntil,gone,found]
        rw [if_neg (by omega)]
      · have kept : (context.blockedOrigins.filter fun entry => entry.1 != origin).find?
            (fun entry => entry.1 == other) = context.blockedOrigins.find? fun entry => entry.1 == other := by
          rw [List.find?_filter]
          congr 1
          funext entry
          by_cases here : entry.1 = other <;> simp [here,asked]
        simp only [BrowserContext.quarantinedUntil,kept]
  · rfl

theorem askQuarantine_pruned (p : PoolState) (c : ContextId) (now : Nat) (origin : String) :
    Pruned now p (p.askQuarantine c now origin).2 where
  shared := rfl
  fields d := by
    by_cases same : d = c
    · subst same
      simp only [PoolState.askQuarantine,PoolState.modify,Function.update_self]
      unfold BrowserContext.askQuarantine
      split
      · split <;> rfl
      · rfl
    · simp only [PoolState.askQuarantine,PoolState.modify,Function.update_of_ne same]
  reports d other t later := by
    by_cases same : d = c
    · subst same
      simp only [PoolState.askQuarantine,PoolState.modify,Function.update_self]
      exact askQuarantine_reports _ now origin later other
    · simp only [PoolState.askQuarantine,PoolState.modify,Function.update_of_ne same]

/-- A pass finds what its visits would find in the pool as it was. -/
theorem scan_pruned {visit : Nat → ContextId → PoolState → Option α × PoolState}
    (finds : ContextId × Nat → Option α) {clock : Readings} (timed : clock.Within finish) {p : PoolState}
    (visits : ∀ i c q t, Pruned t p q → t ≤ clock i .age →
      (visit i c q).1 = finds (c,i) ∧ Pruned (clock i .block) q (visit i c q).2)
    (i : Nat) (contexts : List ContextId) (pruned : Pruned t p q) (started : ∀ j, i ≤ j → t ≤ clock j .age)
    (early : t ≤ finish) :
    (scan visit i contexts q).1 = (contexts.zipIdx i).filterMap finds ∧
      Pruned finish p (scan visit i contexts q).2 := by
  induction contexts generalizing i q t with
  | nil => exact ⟨rfl,pruned.mono early⟩
  | cons c rest ih =>
    obtain ⟨found,dropped⟩ := visits i c q t pruned (started i (Nat.le_refl i))
    have later : t ≤ clock i .block :=
      Nat.le_trans (started i (Nat.le_refl i)) (timed.advances i i .age .block (.inr ⟨rfl,Nat.zero_le _⟩))
    obtain ⟨others,ended⟩ := ih (i + 1) ((pruned.mono later).trans dropped)
      (fun j after => timed.advances i j .block .age (.inl after)) (timed.ends i .block)
    constructor
    · simp only [scan,found,others,List.zipIdx_cons,List.filterMap_cons]
      cases finds (c,i) <;> rfl
    · simp only [scan]
      exact ended

section Candidates

variable {p : PoolState} {lifecycle : ContextLifecycleConfig} {clock : Readings} {finish : Nat}

def reusable (p : PoolState) (lifecycle : ContextLifecycleConfig) (clock : Readings) (c : ContextId) (i : Nat) : Bool :=
  !p.isBusy c && !(p.ctx c).isUsedUp lifecycle (clock i .age)

theorem visitLeastUsed_visits (timed : clock.Within finish) (origin : Option String) (i : Nat) (c : ContextId)
    (q : PoolState) (t : Nat) (pruned : Pruned t p q) (early : t ≤ clock i .age) :
    (Pruning.visitLeastUsed origin lifecycle clock i c q).1 =
      (if reusable p lifecycle clock c i && !quarantined (p.ctx c) (clock i .block) origin then some c else none) ∧
    Pruned (clock i .block) q (Pruning.visitLeastUsed origin lifecycle clock i c q).2 := by
  have later : t ≤ clock i .block := Nat.le_trans early (timed.advances i i .age .block (.inr ⟨rfl,Nat.zero_le _⟩))
  simp only [Pruning.visitLeastUsed,reusable,pruned.isBusy c,pruned.isUsedUp c]
  by_cases busy : p.isBusy c = true
  · simp [busy,Pruned.refl]
  by_cases used : (p.ctx c).isUsedUp lifecycle (clock i .age) = true
  · simp [used,Pruned.refl]
  cases origin with
  | none => simp [busy,used,quarantined,Pruned.refl]
  | some origin =>
    have told : (q.askQuarantine c (clock i .block) origin).1 = (p.ctx c).quarantinedUntil (clock i .block) origin :=
      (BrowserContext.askQuarantine_answer ..).trans (pruned.reports c origin _ later)
    simp only [busy,used,told,quarantined]
    refine ⟨?_,askQuarantine_pruned q c _ origin⟩
    cases (p.ctx c).quarantinedUntil (clock i .block) origin <;> simp

theorem visitSoonest_visits (timed : clock.Within finish) (origin : String) (i : Nat) (c : ContextId)
    (q : PoolState) (t : Nat) (pruned : Pruned t p q) (early : t ≤ clock i .age) :
    (Pruning.visitSoonest origin lifecycle clock i c q).1 =
      (if reusable p lifecycle clock c i then ((p.ctx c).quarantinedUntil (clock i .block) origin).map (c,·) else none) ∧
    Pruned (clock i .block) q (Pruning.visitSoonest origin lifecycle clock i c q).2 := by
  have later : t ≤ clock i .block := Nat.le_trans early (timed.advances i i .age .block (.inr ⟨rfl,Nat.zero_le _⟩))
  simp only [Pruning.visitSoonest,reusable,pruned.isBusy c,pruned.isUsedUp c]
  by_cases busy : p.isBusy c = true
  · simp [busy,Pruned.refl]
  by_cases used : (p.ctx c).isUsedUp lifecycle (clock i .age) = true
  · simp [used,Pruned.refl]
  have told : (q.askQuarantine c (clock i .block) origin).1 = (p.ctx c).quarantinedUntil (clock i .block) origin :=
    (BrowserContext.askQuarantine_answer ..).trans (pruned.reports c origin _ later)
  simp only [busy,used,told]
  exact ⟨rfl,askQuarantine_pruned q c _ origin⟩

theorem filterMap_ite (admits : α → Bool) (f : α → β) (l : List α) :
    (l.filterMap fun a => if admits a then some (f a) else none) = (l.filter admits).map f := by
  induction l with
  | nil => rfl
  | cons a rest ih =>
    rw [List.filterMap_cons,List.filter_cons,ih]
    by_cases yes : admits a = true <;> simp [yes]

theorem leastUsedCandidates_eq (p : PoolState) (lifecycle : ContextLifecycleConfig) (origin : Option String) :
    leastUsedCandidates p origin lifecycle clock = sortByKey (fun c => (p.ctx c).totalRequests)
      (p.contexts.zipIdx.filterMap fun (c,i) =>
        if reusable p lifecycle clock c i && !quarantined (p.ctx c) (clock i .block) origin then some c else none) := by
  rw [filterMap_ite]
  rfl

theorem soonestCandidates_eq (p : PoolState) (lifecycle : ContextLifecycleConfig) (origin : String) :
    soonestCandidates p origin lifecycle clock = sortByKey Prod.snd (p.contexts.zipIdx.filterMap fun (c,i) =>
      if reusable p lifecycle clock c i then ((p.ctx c).quarantinedUntil (clock i .block) origin).map (c,·) else none) := rfl

theorem usedUpCandidates_eq (p : PoolState) (lifecycle : ContextLifecycleConfig) (clock : Readings) :
    usedUpCandidates p lifecycle clock = sortByKey (fun c => (p.ctx c).createdAt)
      (p.contexts.zipIdx.filterMap fun (c,i) =>
        if !p.isBusy c && (p.ctx c).isUsedUp lifecycle (clock i .age) then some c else none) := by
  rw [filterMap_ite]
  rfl

/-- Dropping expired quarantines on the way changes no list of candidates. -/
theorem leastUsedCandidates_pruned (timed : clock.Within finish) (p : PoolState)
    (lifecycle : ContextLifecycleConfig) (origin : Option String) :
    (Pruning.leastUsedCandidates p origin lifecycle clock).1 = leastUsedCandidates p origin lifecycle clock ∧
      Pruned finish p (Pruning.leastUsedCandidates p origin lifecycle clock).2 := by
  obtain ⟨found,pruned⟩ := scan_pruned
    (fun (c,i) => if reusable p lifecycle clock c i && !quarantined (p.ctx c) (clock i .block) origin then some c else none)
    timed (visitLeastUsed_visits timed origin) 0 p.contexts (Pruned.refl 0 p) (fun j _ => Nat.zero_le _)
    (Nat.zero_le finish)
  refine ⟨?_,pruned⟩
  have same (c : ContextId) := pruned.totalRequests c
  rw [leastUsedCandidates_eq]
  simp only [Pruning.leastUsedCandidates,found,same]

theorem soonestCandidates_pruned (timed : clock.Within finish) (p : PoolState)
    (lifecycle : ContextLifecycleConfig) (origin : String) :
    (Pruning.soonestCandidates p origin lifecycle clock).1 = soonestCandidates p origin lifecycle clock ∧
      Pruned finish p (Pruning.soonestCandidates p origin lifecycle clock).2 := by
  obtain ⟨found,pruned⟩ := scan_pruned
    (fun (c,i) =>
      if reusable p lifecycle clock c i then ((p.ctx c).quarantinedUntil (clock i .block) origin).map (c,·) else none)
    timed (visitSoonest_visits timed origin) 0 p.contexts (Pruned.refl 0 p) (fun j _ => Nat.zero_le _)
    (Nat.zero_le finish)
  refine ⟨?_,pruned⟩
  rw [soonestCandidates_eq]
  simp only [Pruning.soonestCandidates,found]

end Candidates

theorem claimFirst_head (p : PoolState) {context : α → ContextId} {candidates : List α}
    (idle : ∀ e ∈ candidates, p.isBusy (context e) = false) :
    (claimFirst p context candidates).2 = candidates.head? ∧
      (claimFirst p context candidates).1 = match candidates.head? with
        | some e => p.setBusy (context e) true
        | none => p := by
  cases candidates with
  | nil => exact ⟨rfl,rfl⟩
  | cons e rest =>
    have free := idle e List.mem_cons_self
    simp [claimFirst,free]

/-- At most this context is newly busy, and besides that only expired quarantines are gone. -/
structure Claimed (finish : Nat) (p pool : PoolState) (claimed : Option ContextId) : Prop where
  busy : ∀ d, pool.isBusy d = (p.isBusy d || decide (claimed = some d))
  shared : pool = { p with ctx := pool.ctx, contexts := pool.contexts }
  fields : ∀ d, pool.ctx d =
    { p.ctx d with isBusy := pool.isBusy d, blockedOrigins := (pool.ctx d).blockedOrigins }
  reports : ∀ d origin t, finish ≤ t → (pool.ctx d).quarantinedUntil t origin = (p.ctx d).quarantinedUntil t origin

theorem Pruned.unclaimed (pruned : Pruned finish p q) : Claimed finish p q none where
  busy d := by simp [pruned.isBusy d]
  shared := by
    rw [pruned.contexts]
    exact pruned.shared
  fields d := by
    rw [pruned.isBusy d]
    exact pruned.fields d
  reports := pruned.reports

theorem Pruned.claim (pruned : Pruned finish p q) (c : ContextId) : Claimed finish p (q.setBusy c true) (some c) where
  busy d := by
    rw [PoolState.setBusy_isBusy,pruned.isBusy d]
    by_cases same : c = d
    · simp [same]
    · simp [same,Ne.symm same]
  shared := by
    rw [PoolState.setBusy_contexts,pruned.contexts]
    conv_lhs => rw [pruned.shared]
    rfl
  fields d := by
    by_cases same : d = c
    · subst same
      simp only [PoolState.setBusy,PoolState.modify,PoolState.isBusy,Function.update_self]
      rw [pruned.fields d]
    · simp only [PoolState.setBusy,PoolState.modify,PoolState.isBusy,Function.update_of_ne same]
      rw [pruned.fields d]
  reports d origin t later := by
    rw [← pruned.reports d origin t later]
    by_cases same : d = c
    · subst same
      simp only [PoolState.setBusy,PoolState.modify,Function.update_self]
      rfl
    · simp only [PoolState.setBusy,PoolState.modify,Function.update_of_ne same]

/-- The first candidate of a pass is claimed: the first least of what its positions give. -/
theorem claimFirst_least (q : PoolState) (contexts : List ContextId) (finds : ContextId × Nat → Option α)
    (key : α → Nat) (context : α → ContextId)
    (idle : ∀ i c e, contexts[i]? = some c → finds (c,i) = some e → q.isBusy (context e) = false) :
    let r := claimFirst q context (sortByKey key (contexts.zipIdx.filterMap finds))
    (∀ e, r.2 = some e →
      ∃ i, Least.FirstAt key (fun i e => ∃ c, contexts[i]? = some c ∧ finds (c,i) = some e) i e) ∧
    (r.2 = none ↔ ∀ i c, contexts[i]? = some c → finds (c,i) = none) ∧
    r.1 = match r.2 with
      | some e => q.setBusy (context e) true
      | none => q := by
  have given : ∀ e ∈ sortByKey key (contexts.zipIdx.filterMap finds), ∃ i c, contexts[i]? = some c ∧ finds (c,i) = some e := by
    intro e member
    obtain ⟨⟨c,i⟩,listed,found⟩ := List.mem_filterMap.mp (mem_sortByKey.mp member)
    exact ⟨i,c,List.mem_zipIdx_iff_getElem?.mp listed,found⟩
  obtain ⟨answer,pool⟩ := claimFirst_head q fun e member => by
    obtain ⟨i,c,listed,found⟩ := given e member
    exact idle i c e listed found
  refine ⟨?_,?_,by rw [pool,answer]⟩
  · intro e claimed
    exact (Least.first_of_sorted (answer.symm.trans claimed)).position
  · rw [answer,List.head?_eq_none_iff]
    constructor
    · intro empty i c listed
      refine Option.eq_none_iff_forall_not_mem.mpr fun e found => ?_
      have member : e ∈ sortByKey key (contexts.zipIdx.filterMap finds) :=
        mem_sortByKey.mpr (List.mem_filterMap.mpr ⟨(c,i),List.mem_zipIdx_iff_getElem?.mpr listed,found⟩)
      rw [empty] at member
      contradiction
    · intro none_
      refine List.eq_nil_iff_forall_not_mem.mpr fun e member => ?_
      obtain ⟨i,c,listed,found⟩ := given e member
      rw [none_ i c listed] at found
      contradiction

section Eligible

variable (p : PoolState) (lifecycle : ContextLifecycleConfig) (clock : Readings)

/-- At position `i` the pass meets an idle context, not used up and not quarantined for the origin. -/
def Eligible (origin : Option String) (i : Nat) (c : ContextId) : Prop :=
  p.contexts[i]? = some c ∧ reusable p lifecycle clock c i = true ∧
    quarantined (p.ctx c) (clock i .block) origin = false

/-- At position `i` the pass meets an idle context, not used up but quarantined until then. -/
def Blocked (origin : String) (i : Nat) (e : ContextId × Nat) : Prop :=
  p.contexts[i]? = some e.1 ∧ reusable p lifecycle clock e.1 i = true ∧
    (p.ctx e.1).quarantinedUntil (clock i .block) origin = some e.2

def UsedUp (i : Nat) (c : ContextId) : Prop :=
  p.contexts[i]? = some c ∧ p.isBusy c = false ∧ (p.ctx c).isUsedUp lifecycle (clock i .age) = true

end Eligible

section Claims

variable {p : PoolState} {lifecycle : ContextLifecycleConfig} {clock : Readings} {finish : Nat}

theorem idle_of_reusable (reusable_ : reusable p lifecycle clock c i = true) : p.isBusy c = false := by
  simp only [reusable,Bool.and_eq_true,Bool.not_eq_true'] at reusable_
  exact reusable_.1

theorem Pruned.claimed {context : α → ContextId} (pruned : Pruned finish p q) {r : PoolState × Option α}
    (pool : r.1 = match r.2 with
      | some e => q.setBusy (context e) true
      | none => q) : Claimed finish p r.1 (r.2.map context) ∧ r.1.contexts = p.contexts := by
  obtain ⟨pool',answer⟩ := r
  cases answer with
  | none =>
    obtain rfl : pool' = q := pool
    exact ⟨pruned.unclaimed,pruned.contexts⟩
  | some e =>
    obtain rfl : pool' = q.setBusy (context e) true := pool
    exact ⟨pruned.claim (context e),pruned.contexts⟩

theorem claimLeastUsedIdle_first (timed : clock.Within finish) (p : PoolState) (lifecycle : ContextLifecycleConfig)
    (origin : Option String) :
    let r := Pruning.claimLeastUsedIdle p origin lifecycle clock
    (∀ c, r.2 = some c →
      ∃ i, Least.FirstAt (fun c => (p.ctx c).totalRequests) (Eligible p lifecycle clock origin) i c) ∧
    (r.2 = none ↔ ∀ i c, ¬Eligible p lifecycle clock origin i c) ∧
    Claimed finish p r.1 r.2 ∧ r.1.contexts = p.contexts := by
  obtain ⟨same,pruned⟩ := leastUsedCandidates_pruned timed p lifecycle origin
  obtain ⟨first,none_,pool⟩ := claimFirst_least (Pruning.leastUsedCandidates p origin lifecycle clock).2 p.contexts
    (fun (c,i) => if reusable p lifecycle clock c i && !quarantined (p.ctx c) (clock i .block) origin then some c else none)
    (fun c => (p.ctx c).totalRequests) id fun i c e listed found => by
      obtain ⟨admitted,⟨⟩⟩ := Option.ite_none_right_eq_some.mp found
      exact (pruned.isBusy c).trans (idle_of_reusable (Bool.and_eq_true_iff.mp admitted).1)
  rw [← leastUsedCandidates_eq,← same] at first none_ pool
  obtain ⟨claimed,kept⟩ := pruned.claimed pool
  rw [Option.map_id] at claimed
  refine ⟨fun c given => ?_,none_.trans ?_,claimed,kept⟩
  · obtain ⟨i,least⟩ := first c given
    exact ⟨i,least.congr fun j d => by simp [Eligible]⟩
  · simp [Eligible]

theorem claimSoonestUnquarantined_first (timed : clock.Within finish) (p : PoolState)
    (lifecycle : ContextLifecycleConfig) (origin : String) :
    let r := Pruning.claimSoonestUnquarantined p origin lifecycle clock
    (∀ e, r.2 = some e → ∃ i, Least.FirstAt Prod.snd (Blocked p lifecycle clock origin) i e) ∧
    (r.2 = none ↔ ∀ i e, ¬Blocked p lifecycle clock origin i e) ∧
    Claimed finish p r.1 (r.2.map Prod.fst) ∧ r.1.contexts = p.contexts := by
  obtain ⟨same,pruned⟩ := soonestCandidates_pruned timed p lifecycle origin
  obtain ⟨first,none_,pool⟩ := claimFirst_least (Pruning.soonestCandidates p origin lifecycle clock).2 p.contexts
    (fun (c,i) =>
      if reusable p lifecycle clock c i then ((p.ctx c).quarantinedUntil (clock i .block) origin).map (c,·) else none)
    Prod.snd Prod.fst fun i c e listed found => by
      obtain ⟨admitted,found⟩ := Option.ite_none_right_eq_some.mp found
      obtain ⟨_,_,rfl⟩ := Option.map_eq_some_iff.mp found
      exact (pruned.isBusy c).trans (idle_of_reusable admitted)
  rw [← soonestCandidates_eq,← same] at first none_ pool
  obtain ⟨claimed,kept⟩ := pruned.claimed pool
  refine ⟨fun e given => ?_,none_.trans ?_,claimed,kept⟩
  · obtain ⟨i,least⟩ := first e given
    refine ⟨i,least.congr fun j e => ?_⟩
    obtain ⟨c,until_⟩ := e
    simp [Blocked]
  · constructor
    · rintro skipped i e ⟨listed,free,blocked⟩
      have missed := skipped i e.1 listed
      simp [free,blocked] at missed
    · intro skipped i c listed
      simp only [ite_eq_right_iff,Option.map_eq_none_iff]
      intro free
      exact Option.eq_none_iff_forall_ne_some.mpr fun until_ blocked => skipped i (c,until_) ⟨listed,free,blocked⟩

theorem takeUsedUpIdle_first (p : PoolState) (lifecycle : ContextLifecycleConfig) (clock : Readings) :
    let r := takeUsedUpIdle p lifecycle clock
    (∀ c, r.2 = some c → (∃ i, Least.FirstAt (fun c => (p.ctx c).createdAt) (UsedUp p lifecycle clock) i c) ∧
      r.1.contexts = p.contexts.filter (· ≠ c) ∧ (p.contexts.Nodup → r.1.contexts = p.contexts.erase c)) ∧
    (r.2 = none ↔ ∀ i c, ¬UsedUp p lifecycle clock i c) ∧ (r.2 = none → r.1 = p) ∧
    Claimed finish p r.1 r.2 := by
  obtain ⟨first,none_,pool⟩ := claimFirst_least p p.contexts
    (fun (c,i) => if !p.isBusy c && (p.ctx c).isUsedUp lifecycle (clock i .age) then some c else none)
    (fun c => (p.ctx c).createdAt) id fun i c e listed found => by
      obtain ⟨admitted,⟨⟩⟩ := Option.ite_none_right_eq_some.mp found
      simpa using (Bool.and_eq_true_iff.mp admitted).1
  rw [← usedUpCandidates_eq] at first none_ pool
  have claimed := ((Pruned.refl finish p).claimed pool).1
  unfold takeUsedUpIdle
  match claims : claimFirst p id (usedUpCandidates p lifecycle clock) with
  | (q,none) =>
    rw [claims] at none_ pool claimed
    refine ⟨nofun,none_.trans ?_,fun _ => pool,claimed⟩
    simp [UsedUp]
  | (q,some c) =>
    rw [claims] at first none_ pool claimed
    obtain rfl : q = p.setBusy c true := pool
    refine ⟨?_,none_.trans ?_,nofun,?_⟩
    · rintro _ ⟨⟩
      obtain ⟨i,least⟩ := first c rfl
      refine ⟨⟨i,least.congr fun j d => by simp [UsedUp]⟩,rfl,fun distinct => ?_⟩
      show p.contexts.filter (fun x => decide (x ≠ c)) = p.contexts.erase c
      rw [distinct.erase_eq_filter c]
      exact List.filter_congr fun d _ => by cases same : d == c <;> simp_all
    · simp [UsedUp]
    · exact ⟨claimed.busy,rfl,claimed.fields,claimed.reports⟩

end Claims

/-- Which context each selection takes, when it takes none, and all it changes in the pool. -/
theorem selections_claim_first (p : PoolState) (lifecycle : ContextLifecycleConfig) (clock : Readings)
    (finish : Nat) (timed : clock.Within finish) :
    (∀ origin,
      let r := Pruning.claimLeastUsedIdle p origin lifecycle clock
      (∀ c, r.2 = some c →
        ∃ i, Least.FirstAt (fun c => (p.ctx c).totalRequests) (Eligible p lifecycle clock origin) i c) ∧
      (r.2 = none ↔ ∀ i c, ¬Eligible p lifecycle clock origin i c) ∧
      Claimed finish p r.1 r.2 ∧ r.1.contexts = p.contexts) ∧
    (∀ origin,
      let r := Pruning.claimSoonestUnquarantined p origin lifecycle clock
      (∀ e, r.2 = some e → ∃ i, Least.FirstAt Prod.snd (Blocked p lifecycle clock origin) i e) ∧
      (r.2 = none ↔ ∀ i e, ¬Blocked p lifecycle clock origin i e) ∧
      Claimed finish p r.1 (r.2.map Prod.fst) ∧ r.1.contexts = p.contexts) ∧
    let r := takeUsedUpIdle p lifecycle clock
    (∀ c, r.2 = some c → (∃ i, Least.FirstAt (fun c => (p.ctx c).createdAt) (UsedUp p lifecycle clock) i c) ∧
      r.1.contexts = p.contexts.filter (· ≠ c) ∧ (p.contexts.Nodup → r.1.contexts = p.contexts.erase c)) ∧
    (r.2 = none ↔ ∀ i c, ¬UsedUp p lifecycle clock i c) ∧ (r.2 = none → r.1 = p) ∧
    Claimed finish p r.1 r.2 :=
  ⟨claimLeastUsedIdle_first timed p lifecycle,claimSoonestUnquarantined_first timed p lifecycle,
    takeUsedUpIdle_first p lifecycle clock⟩

/-- At 12 the quarantine of the only context has ended: it is claimed and the entry is gone. -/
theorem selections_claim_first_after_quarantine :
    let r := Pruning.claimLeastUsedIdle (onlyContext false) (some "example.com")
      (Config.small .reusable).scope.lifecycle fun _ _ => 12
    r.2 = some 0 ∧ (r.1.ctx 0).blockedOrigins = [] ∧ Claimed 12 (onlyContext false) r.1 (some 0) :=
  have timed : Readings.Within (fun _ _ => 12) 12 :=
    ⟨fun _ _ _ _ _ => Nat.le_refl 12,fun _ _ => Nat.le_refl 12⟩
  ⟨rfl,rfl,((selections_claim_first (onlyContext false) _ _ 12 timed).1 (some "example.com")).2.2.1⟩

end BrowserHive.Pool
