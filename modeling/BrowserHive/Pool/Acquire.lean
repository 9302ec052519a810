import BrowserHive.Pool.Machine

/-! `get_or_create_context` of one request, run from end to end while no other task claims or
releases a context. The clock moves during the call: each pass over the pool reads it for a
context's age and again for its quarantine. -/
namespace BrowserHive.Pool

open BrowserHive

/-- The passes `get_or_create_context` makes over the pool, in their order. -/
inductive Pass where
  | optimistic
  | doubleCheck
  | usedUp
  | soonest
  deriving DecidableEq, Repr

inductive Reading where
  | age
  | block
  deriving DecidableEq, Repr

def Pass.rank : Pass → Nat
  | .optimistic => 0
  | .doubleCheck => 1
  | .usedUp => 2
  | .soonest => 3

def Reading.rank : Reading → Nat
  | .age => 0
  | .block => 1

abbrev Readings := Nat → Reading → Nat

abbrev Clock := Pass → Readings

def Clock.Advances (clock : Clock) : Prop :=
  ∀ a b i j r q, a.rank < b.rank ∨ a = b ∧ (i < j ∨ i = j ∧ r.rank ≤ q.rank) →
    clock a i r ≤ clock b j q

/-- `candidates.into_iter().find(|c| try_claim(c))`. -/
def claimFirst (p : PoolState) (context : α → ContextId) : List α → PoolState × Option α
  | [] => (p,none)
  | e :: rest =>
    if p.isBusy (context e) then claimFirst p context rest
    else (p.setBusy (context e) true,some e)

def sortByKey (key : α → Nat) (candidates : List α) : List α :=
  candidates.insertionSort (fun a b => key a ≤ key b)

def quarantined (context : BrowserContext) (now : Nat) : Option String → Bool
  | some origin => (context.quarantinedUntil now origin).isSome
  | none => false

def leastUsedCandidates (p : PoolState) (origin : Option String) (lifecycle : ContextLifecycleConfig)
    (clock : Readings) : List ContextId :=
  let idle := p.contexts.zipIdx.filter fun (c,i) =>
    !p.isBusy c && !(p.ctx c).isUsedUp lifecycle (clock i .age) &&
    !quarantined (p.ctx c) (clock i .block) origin
  sortByKey (fun c => (p.ctx c).totalRequests) (idle.map Prod.fst)

def claimLeastUsedIdle (p : PoolState) (origin : Option String) (lifecycle : ContextLifecycleConfig)
    (clock : Readings) : PoolState × Option ContextId :=
  claimFirst p id (leastUsedCandidates p origin lifecycle clock)

def soonestCandidates (p : PoolState) (origin : String) (lifecycle : ContextLifecycleConfig)
    (clock : Readings) : List (ContextId × Nat) :=
  sortByKey Prod.snd (p.contexts.zipIdx.filterMap fun (c,i) =>
    if !p.isBusy c && !(p.ctx c).isUsedUp lifecycle (clock i .age) then
      ((p.ctx c).quarantinedUntil (clock i .block) origin).map (c,·)
    else none)

def claimSoonestUnquarantined (p : PoolState) (origin : String) (lifecycle : ContextLifecycleConfig)
    (clock : Readings) : PoolState × Option (ContextId × Nat) :=
  claimFirst p Prod.fst (soonestCandidates p origin lifecycle clock)

def usedUpCandidates (p : PoolState) (lifecycle : ContextLifecycleConfig) (clock : Readings) :
    List ContextId :=
  let idle := p.contexts.zipIdx.filter fun (c,i) =>
    !p.isBusy c && (p.ctx c).isUsedUp lifecycle (clock i .age)
  sortByKey (fun c => (p.ctx c).createdAt) (idle.map Prod.fst)

def takeUsedUpIdle (p : PoolState) (lifecycle : ContextLifecycleConfig) (clock : Readings) :
    PoolState × Option ContextId :=
  match claimFirst p id (usedUpCandidates p lifecycle clock) with
  | (p,some taken) => ({ p with contexts := p.contexts.filter (· ≠ taken) },some taken)
  | (p,none) => (p,none)

/-- `build_reserved_context`, given what `create_new_context` answers. -/
def buildReservedContext (p : PoolState) (created : Except Unit Slot) :
    PoolState × Except Unit (Option ContextId) :=
  match created with
  | .error failure => (unreserve p,.error failure)
  | .ok slot =>
    (unreserve { p.addContext slot true with
        contexts := p.contexts ++ [p.fresh]
        totalContextsCreated := p.totalContextsCreated + 1 },
      .ok (some p.fresh))

/-- `get_or_create_context` from its capacity check on: grow the pool, replace a used-up
context, or fall back to a quarantined one. -/
def growOrReplace (cfg : Config) (p : PoolState) (lookup : Lookup) (clock : Clock)
    (created : Except Unit Slot) : PoolState × Except Unit (Option ContextId) :=
  let lifecycle := cfg.scope.lifecycle
  if p.occupiedSlots < cfg.scope.maxContexts then buildReservedContext (reserve p) created
  else
    match takeUsedUpIdle p lifecycle (clock .usedUp) with
    | (p,some c) =>
      -- the slot stays reserved while the old context is released
      let released := (reserve p).release cfg c
      buildReservedContext
        { released with totalContextsRecycled := released.totalContextsRecycled + 1 } created
    | (p,none) =>
      match lookup.origin.filter (fun _ => !lookup.params.requiresDedicatedContext) with
      | none => (p,.ok none)
      | some origin =>
        match claimSoonestUnquarantined p origin lifecycle (clock .soonest) with
        | (p,some (c,_)) => (p,.ok (some c))
        | (p,none) => (p,.ok none)

def getOrCreateContext (cfg : Config) (p : PoolState) (lookup : Lookup) (clock : Clock)
    (created : Except Unit Slot) : PoolState × Except Unit (Option ContextId) :=
  let reuse := fun (p : PoolState) pass =>
    if lookup.params.requiresDedicatedContext then (p,none)
    else claimLeastUsedIdle p lookup.origin cfg.scope.lifecycle (clock pass)
  match reuse p .optimistic with
  | (p,some c) => (p,.ok (some c))
  | (p,none) =>
    match reuse p .doubleCheck with
    | (p,some c) => (p,.ok (some c))
    | (p,none) => growOrReplace cfg p lookup clock created

/-- Every slot is busy or reserved by a pending creation. -/
def Exhausted (cfg : Config) (p : PoolState) : Prop :=
  cfg.scope.maxContexts ≤ p.occupiedSlots ∧ ∀ c ∈ p.contexts, p.isBusy c

theorem mem_sortByKey {key : α → Nat} {candidates : List α} :
    e ∈ sortByKey key candidates ↔ e ∈ candidates := List.mem_insertionSort _

/-- A pass claims nothing exactly when it meets only busy contexts, and then changes nothing. -/
theorem claimFirst_none {context : α → ContextId} {candidates : List α} :
    claimFirst p context candidates = (pool,none) ↔
      pool = p ∧ ∀ e ∈ candidates, p.isBusy (context e) = true := by
  induction candidates with
  | nil =>
    simp only [claimFirst,Prod.mk.injEq,and_true,List.not_mem_nil,false_imp_iff,implies_true]
    exact eq_comm
  | cons e rest ih =>
    rw [claimFirst,List.forall_mem_cons]
    by_cases busy : p.isBusy (context e) = true
    · rw [if_pos busy,ih]
      simp only [busy,true_and]
    · simp [busy]

/-- With every candidate idle, a pass gives up exactly when it has no candidate. -/
theorem claimFirst_idle {context : α → ContextId} {candidates : List α}
    (idle : ∀ e ∈ candidates, p.isBusy (context e) = false) :
    claimFirst p context candidates = (pool,none) ↔ pool = p ∧ ∀ e, e ∉ candidates := by
  rw [claimFirst_none]
  constructor
  · rintro ⟨rfl,busy⟩
    refine ⟨rfl,fun e member => ?_⟩
    have free := idle e member
    simp [busy e member] at free
  · rintro ⟨rfl,empty⟩
    exact ⟨rfl,fun e member => absurd member (empty e)⟩

section Passes

variable {p pool : PoolState} {lifecycle : ContextLifecycleConfig} {clock : Readings}

theorem mem_leastUsedCandidates {origin : Option String} :
    c ∈ leastUsedCandidates p origin lifecycle clock ↔ ∃ i, p.contexts[i]? = some c ∧
      p.isBusy c = false ∧ (p.ctx c).isUsedUp lifecycle (clock i .age) = false ∧
      quarantined (p.ctx c) (clock i .block) origin = false := by
  simp only [leastUsedCandidates,mem_sortByKey,List.mem_map,List.mem_filter,Prod.exists,
    List.mem_zipIdx_iff_getElem?,Bool.and_eq_true,Bool.not_eq_true',and_assoc]
  constructor
  · rintro ⟨c,i,listed,idle,live,free,rfl⟩
    exact ⟨i,listed,idle,live,free⟩
  · rintro ⟨i,listed,idle,live,free⟩
    exact ⟨c,i,listed,idle,live,free,rfl⟩

theorem mem_usedUpCandidates :
    c ∈ usedUpCandidates p lifecycle clock ↔ ∃ i, p.contexts[i]? = some c ∧
      p.isBusy c = false ∧ (p.ctx c).isUsedUp lifecycle (clock i .age) = true := by
  simp only [usedUpCandidates,mem_sortByKey,List.mem_map,List.mem_filter,Prod.exists,
    List.mem_zipIdx_iff_getElem?,Bool.and_eq_true,Bool.not_eq_true']
  constructor
  · rintro ⟨c,i,⟨listed,idle,used⟩,rfl⟩
    exact ⟨i,listed,idle,used⟩
  · rintro ⟨i,listed,idle,used⟩
    exact ⟨c,i,⟨listed,idle,used⟩,rfl⟩

theorem mem_soonestCandidates {origin : String} :
    (c,until') ∈ soonestCandidates p origin lifecycle clock ↔ ∃ i, p.contexts[i]? = some c ∧
      p.isBusy c = false ∧ (p.ctx c).isUsedUp lifecycle (clock i .age) = false ∧
      (p.ctx c).quarantinedUntil (clock i .block) origin = some until' := by
  simp only [soonestCandidates,mem_sortByKey,List.mem_filterMap,Prod.exists,
    List.mem_zipIdx_iff_getElem?,Option.ite_none_right_eq_some,Bool.and_eq_true,Bool.not_eq_true',
    Option.map_eq_some_iff,Prod.mk.injEq]
  constructor
  · rintro ⟨c,i,listed,⟨idle,live⟩,_,blocked,rfl,rfl⟩
    exact ⟨i,listed,idle,live,blocked⟩
  · rintro ⟨i,listed,idle,live,blocked⟩
    exact ⟨c,i,listed,⟨idle,live⟩,until',blocked,rfl,rfl⟩

theorem claimLeastUsedIdle_none {origin : Option String} :
    claimLeastUsedIdle p origin lifecycle clock = (pool,none) ↔ pool = p ∧
      ∀ i c, p.contexts[i]? = some c → p.isBusy c = false →
        (p.ctx c).isUsedUp lifecycle (clock i .age) = true ∨
        quarantined (p.ctx c) (clock i .block) origin = true := by
  rw [claimLeastUsedIdle,claimFirst_idle (fun c member => by
    obtain ⟨_,_,idle,_⟩ := mem_leastUsedCandidates.mp member
    exact idle)]
  apply and_congr_right
  intro same
  simp only [mem_leastUsedCandidates,not_exists,not_and,Bool.not_eq_false]
  constructor
  · intro skipped i c listed idle
    by_cases used : (p.ctx c).isUsedUp lifecycle (clock i .age) = true
    · exact .inl used
    · exact .inr (skipped c i listed idle (by simpa using used))
  · intro skipped c i listed idle live
    rcases skipped i c listed idle with used | blocked
    · simp [used] at live
    · exact blocked

theorem takeUsedUpIdle_none :
    takeUsedUpIdle p lifecycle clock = (pool,none) ↔ pool = p ∧
      ∀ i c, p.contexts[i]? = some c → p.isBusy c = false →
        (p.ctx c).isUsedUp lifecycle (clock i .age) = false := by
  have taken : takeUsedUpIdle p lifecycle clock = (pool,none) ↔
      claimFirst p id (usedUpCandidates p lifecycle clock) = (pool,none) := by
    unfold takeUsedUpIdle
    rcases claimFirst p id (usedUpCandidates p lifecycle clock) with ⟨claimed,_ | c⟩ <;> simp
  rw [taken,claimFirst_idle (fun c member => by
    obtain ⟨_,_,idle,_⟩ := mem_usedUpCandidates.mp member
    exact idle)]
  apply and_congr_right
  intro same
  simp only [mem_usedUpCandidates,not_exists,not_and,Bool.not_eq_true]
  exact forall_comm

theorem claimSoonestUnquarantined_none {origin : String} :
    claimSoonestUnquarantined p origin lifecycle clock = (pool,none) ↔ pool = p ∧
      ∀ i c, p.contexts[i]? = some c → p.isBusy c = false →
        (p.ctx c).isUsedUp lifecycle (clock i .age) = true ∨
        (p.ctx c).quarantinedUntil (clock i .block) origin = none := by
  rw [claimSoonestUnquarantined,claimFirst_idle (fun (c,_) member => by
    obtain ⟨_,_,idle,_⟩ := mem_soonestCandidates.mp member
    exact idle)]
  apply and_congr_right
  intro same
  simp only [Prod.forall,mem_soonestCandidates,not_exists,not_and]
  constructor
  · intro skipped i c listed idle
    by_cases used : (p.ctx c).isUsedUp lifecycle (clock i .age) = true
    · exact .inl used
    · exact .inr (Option.eq_none_iff_forall_ne_some.mpr fun until' =>
        skipped c until' i listed idle (by simpa using used))
  · intro skipped c until' i listed idle live
    rcases skipped i c listed idle with used | passed
    · simp [used] at live
    · simp [passed]

end Passes

/-- Building for a reserved slot answers with a context or fails. -/
theorem buildReservedContext_serves : (buildReservedContext p created).2 ≠ .ok none := by
  cases created <;> simp [buildReservedContext]

section Refusal

variable {cfg : Config} {p : PoolState} {lookup : Lookup} {clock : Clock} {created : Except Unit Slot}

/-- Past the reuse passes a request is refused when no slot is free, none can be replaced,
and without an override no quarantined context is left to fall back to. -/
theorem growOrReplace_refused :
    (growOrReplace cfg p lookup clock created).2 = .ok none ↔
      cfg.scope.maxContexts ≤ p.occupiedSlots ∧
      takeUsedUpIdle p cfg.scope.lifecycle (clock .usedUp) = (p,none) ∧
      ∀ origin, lookup.origin.filter (fun _ => !lookup.params.requiresDedicatedContext) = some origin →
        claimSoonestUnquarantined p origin cfg.scope.lifecycle (clock .soonest) = (p,none) := by
  unfold growOrReplace
  by_cases free : p.occupiedSlots < cfg.scope.maxContexts
  · rw [if_pos free]
    exact ⟨fun refused => absurd refused buildReservedContext_serves,fun ⟨full,_⟩ => by omega⟩
  · rw [if_neg free]
    have full := Nat.le_of_not_lt free
    cases taken : takeUsedUpIdle p cfg.scope.lifecycle (clock .usedUp) with
    | mk pool context =>
      cases context with
      | some c => simp [buildReservedContext_serves]
      | none =>
        obtain ⟨rfl,_⟩ := takeUsedUpIdle_none.mp taken
        simp only [full,true_and]
        cases lookup.origin.filter (fun _ => !lookup.params.requiresDedicatedContext) with
        | none => simp
        | some origin =>
          simp only [Option.some.injEq,forall_eq']
          cases soonest : claimSoonestUnquarantined pool origin cfg.scope.lifecycle (clock .soonest) with
          | mk p context =>
            cases context with
            | some claimed => simp
            | none =>
              obtain ⟨rfl,_⟩ := claimSoonestUnquarantined_none.mp soonest
              simp

/-- With a routing override only a used-up context is replaced. -/
theorem override_refused (overrides : lookup.params.requiresDedicatedContext = true) :
    (getOrCreateContext cfg p lookup clock created).2 = .ok none ↔
      cfg.scope.maxContexts ≤ p.occupiedSlots ∧
      ∀ i c, p.contexts[i]? = some c → p.isBusy c = false →
        (p.ctx c).isUsedUp cfg.scope.lifecycle (clock .usedUp i .age) = false := by
  have grows : getOrCreateContext cfg p lookup clock created = growOrReplace cfg p lookup clock created := by
    simp only [getOrCreateContext,overrides,if_true]
  have alone : lookup.origin.filter (fun _ => !lookup.params.requiresDedicatedContext) = none := by
    cases lookup.origin <;> simp [Option.filter,overrides]
  rw [grows,growOrReplace_refused,takeUsedUpIdle_none,alone]
  simp only [true_and,reduceCtorEq,false_imp_iff,implies_true,and_true]

/-- Without one, a request that is refused was refused by both reuse passes first. -/
theorem reuse_passes (reuses : lookup.params.requiresDedicatedContext = false) :
    (getOrCreateContext cfg p lookup clock created).2 = .ok none ↔
      claimLeastUsedIdle p lookup.origin cfg.scope.lifecycle (clock .optimistic) = (p,none) ∧
      claimLeastUsedIdle p lookup.origin cfg.scope.lifecycle (clock .doubleCheck) = (p,none) ∧
      (growOrReplace cfg p lookup clock created).2 = .ok none := by
  simp only [getOrCreateContext,reuses,Bool.false_eq_true,if_false]
  cases optimistic : claimLeastUsedIdle p lookup.origin cfg.scope.lifecycle (clock .optimistic) with
  | mk pool context =>
    cases context with
    | some c => simp
    | none =>
      obtain ⟨rfl,_⟩ := claimLeastUsedIdle_none.mp optimistic
      cases double : claimLeastUsedIdle pool lookup.origin cfg.scope.lifecycle (clock .doubleCheck) with
      | mk p context =>
        cases context with
        | some c => simp [double]
        | none =>
          obtain ⟨rfl,_⟩ := claimLeastUsedIdle_none.mp double
          simp [double]

/-- All four passes skip every idle context. -/
theorem reuse_refused (reuses : lookup.params.requiresDedicatedContext = false) :
    (getOrCreateContext cfg p lookup clock created).2 = .ok none ↔
      cfg.scope.maxContexts ≤ p.occupiedSlots ∧
      ∀ i c, p.contexts[i]? = some c → p.isBusy c = false →
        (∀ pass, pass = .optimistic ∨ pass = .doubleCheck →
          (p.ctx c).isUsedUp cfg.scope.lifecycle (clock pass i .age) = true ∨
          quarantined (p.ctx c) (clock pass i .block) lookup.origin = true) ∧
        (p.ctx c).isUsedUp cfg.scope.lifecycle (clock .usedUp i .age) = false ∧
        ∀ origin, lookup.origin = some origin →
          (p.ctx c).isUsedUp cfg.scope.lifecycle (clock .soonest i .age) = true ∨
          (p.ctx c).quarantinedUntil (clock .soonest i .block) origin = none := by
  have asked : lookup.origin.filter (fun _ => !lookup.params.requiresDedicatedContext) = lookup.origin := by
    cases lookup.origin <;> simp [Option.filter,reuses]
  rw [reuse_passes reuses,growOrReplace_refused,asked]
  simp only [claimLeastUsedIdle_none,takeUsedUpIdle_none,claimSoonestUnquarantined_none,true_and]
  constructor
  · rintro ⟨optimistic,double,full,live,soonest⟩
    refine ⟨full,fun i c listed idle => ⟨?_,live i c listed idle,fun origin asked =>
      soonest origin asked i c listed idle⟩⟩
    rintro pass (rfl | rfl)
    · exact optimistic i c listed idle
    · exact double i c listed idle
  · rintro ⟨full,skipped⟩
    exact ⟨fun i c listed idle => (skipped i c listed idle).1 _ (.inl rfl),
      fun i c listed idle => (skipped i c listed idle).1 _ (.inr rfl),full,
      fun i c listed idle => (skipped i c listed idle).2.1,
      fun origin asked i c listed idle => (skipped i c listed idle).2.2 origin asked⟩

end Refusal

/-- Requests only ever add to a context's count and time to its age: a used-up context stays so. -/
theorem isUsedUp_mono {context : BrowserContext} {lifecycle : ContextLifecycleConfig}
    (later : now ≤ now') (used : context.isUsedUp lifecycle now = true) :
    context.isUsedUp lifecycle now' = true := by
  have older : now - context.createdAt ≤ now' - context.createdAt := by omega
  unfold BrowserContext.isUsedUp ContextLifecycleConfig.isUsedUp at used ⊢
  cases strategy : lifecycle.rotationStrategy with
  | requestBasedOnly => simpa only [strategy] using used
  | timeBasedOnly =>
    simp only [strategy,decide_eq_true_eq] at used ⊢
    omega
  | hybrid =>
    simp only [strategy,Bool.or_eq_true,decide_eq_true_eq] at used ⊢
    omega

/-- A quarantine seen at one reading was seen at every earlier one. -/
theorem quarantined_anti {context : BrowserContext} {origin : Option String} (earlier : now ≤ now')
    (blocked : quarantined context now' origin = true) : quarantined context now origin = true := by
  cases origin with
  | none => simp [quarantined] at blocked
  | some origin =>
    simp only [quarantined,BrowserContext.quarantinedUntil] at blocked ⊢
    cases entry : context.blockedOrigins.find? (fun entry => entry.1 == origin) with
    | none => simp [entry] at blocked
    | some block =>
      simp only [entry] at blocked
      have pending : now < block.2 := by
        by_cases active : now' < block.2
        · omega
        · simp [active] at blocked
      simp [pending]

/-- Eligible at neither reuse pass because of its quarantine, not used up when a context to
replace is looked for, and out of quarantine or used up by the last pass. -/
def Lapses (lifecycle : ContextLifecycleConfig) (origin : Option String) (clock : Clock) (i : Nat)
    (context : BrowserContext) : Prop :=
  quarantined context (clock .doubleCheck i .block) origin = true ∧
  context.isUsedUp lifecycle (clock .usedUp i .age) = false ∧
  (context.isUsedUp lifecycle (clock .soonest i .age) = true ∨
    quarantined context (clock .soonest i .block) origin = false)

/-- A request without an override gives up on a pool with an idle context exactly when the
pool is full and, between the double check and the last pass, every idle context lapsed. -/
theorem gives_up_only_when_full (cfg : Config) (p : PoolState) (lookup : Lookup) (clock : Clock)
    (created : Except Unit Slot) (advances : clock.Advances)
    (reuses : lookup.params.requiresDedicatedContext = false) :
    ((getOrCreateContext cfg p lookup clock created).2 = .ok none → Exhausted cfg p) ↔
      ¬(cfg.scope.maxContexts ≤ p.occupiedSlots ∧ (∃ c ∈ p.contexts, p.isBusy c = false) ∧
        ∀ i c, p.contexts[i]? = some c → p.isBusy c = false →
          Lapses cfg.scope.lifecycle lookup.origin clock i (p.ctx c)) := by
  have skipped : ∀ i (context : BrowserContext),
      ((∀ pass, pass = .optimistic ∨ pass = .doubleCheck →
          context.isUsedUp cfg.scope.lifecycle (clock pass i .age) = true ∨
          quarantined context (clock pass i .block) lookup.origin = true) ∧
        context.isUsedUp cfg.scope.lifecycle (clock .usedUp i .age) = false ∧
        ∀ origin, lookup.origin = some origin →
          context.isUsedUp cfg.scope.lifecycle (clock .soonest i .age) = true ∨
          context.quarantinedUntil (clock .soonest i .block) origin = none) ↔
      Lapses cfg.scope.lifecycle lookup.origin clock i context := by
    intro i context
    constructor
    · rintro ⟨reuse,live,soonest⟩
      have blocked : quarantined context (clock .doubleCheck i .block) lookup.origin = true := by
        rcases reuse .doubleCheck (.inr rfl) with used | blocked
        · have still := isUsedUp_mono (advances .doubleCheck .usedUp i i .age .age (.inl (by decide))) used
          simp [live] at still
        · exact blocked
      refine ⟨blocked,live,?_⟩
      cases asked : lookup.origin with
      | none => exact .inr rfl
      | some origin => simpa [quarantined] using soonest origin asked
    · rintro ⟨blocked,live,lapsed⟩
      refine ⟨?_,live,?_⟩
      · rintro pass (rfl | rfl)
        · exact .inr (quarantined_anti
            (advances .optimistic .doubleCheck i i .block .block (.inl (by decide))) blocked)
        · exact .inr blocked
      · intro origin asked
        simpa [asked,quarantined] using lapsed
  rw [reuse_refused reuses]
  simp only [skipped,Exhausted]
  constructor
  · rintro contract ⟨full,⟨c,listed,idle⟩,lapsed⟩
    have busy := (contract ⟨full,lapsed⟩).2 c listed
    simp [idle] at busy
  · rintro spared ⟨full,lapsed⟩
    refine ⟨full,fun c listed => ?_⟩
    by_contra idle
    exact spared ⟨full,⟨c,listed,by simpa using idle⟩,lapsed⟩

def onlyContext (busy : Bool) : PoolState :=
  { PoolState.empty with
    contexts := [0]
    ctx := fun _ =>
      { BrowserContext.new 0 none none with isBusy := busy, blockedOrigins := [("example.com",10)] }
    fresh := 1 }

def expiringClock : Clock := fun pass _ _ => if pass = .soonest then 10 else 9

theorem expiringClock_advances : expiringClock.Advances := by
  intro a b i j r q order
  rcases order with lower | ⟨rfl,_⟩
  · cases a <;> cases b <;> simp [Pass.rank,expiringClock] at lower ⊢
  · exact Nat.le_refl _

/-- The quarantine ends after the double check: the pool is full, its context idle, and the
request is refused. -/
theorem gives_up_over_idle_context :
    expiringClock.Advances ∧
    (getOrCreateContext (Config.small .reusable) (onlyContext false) ⟨⟨none⟩,some "example.com"⟩
      expiringClock (.ok ⟨some 0,none⟩)).2 = .ok none ∧
    ¬Exhausted (Config.small .reusable) (onlyContext false) := by
  refine ⟨expiringClock_advances,rfl,fun ⟨_,busy⟩ => ?_⟩
  have taken := busy 0 (List.mem_singleton.mpr rfl)
  cases taken

/-- The same request over a busy context is refused, and rightly so. -/
theorem gives_up_only_when_full_busy :
    (getOrCreateContext (Config.small .reusable) (onlyContext true) ⟨⟨none⟩,some "example.com"⟩
      expiringClock (.ok ⟨some 0,none⟩)).2 = .ok none ∧
    Exhausted (Config.small .reusable) (onlyContext true) := by
  have refused : (getOrCreateContext (Config.small .reusable) (onlyContext true)
      ⟨⟨none⟩,some "example.com"⟩ expiringClock (.ok ⟨some 0,none⟩)).2 = .ok none := rfl
  refine ⟨refused,(gives_up_only_when_full _ _ _ _ _ expiringClock_advances rfl).mpr ?_ refused⟩
  rintro ⟨_,⟨c,_,idle⟩,_⟩
  cases idle

/-- A request with an override is refused over an idle context exactly when the pool is full
and no idle context is used up at the reading that looks for one to replace. -/
theorem override_gives_up_only_when_full (cfg : Config) (p : PoolState) (lookup : Lookup)
    (clock : Clock) (created : Except Unit Slot)
    (overrides : lookup.params.requiresDedicatedContext = true) :
    ((getOrCreateContext cfg p lookup clock created).2 = .ok none → Exhausted cfg p) ↔
      ¬(cfg.scope.maxContexts ≤ p.occupiedSlots ∧ (∃ c ∈ p.contexts, p.isBusy c = false) ∧
        ∀ i c, p.contexts[i]? = some c → p.isBusy c = false →
          (p.ctx c).isUsedUp cfg.scope.lifecycle (clock .usedUp i .age) = false) := by
  rw [override_refused overrides]
  constructor
  · rintro contract ⟨full,⟨c,listed,idle⟩,live⟩
    have busy := (contract ⟨full,live⟩).2 c listed
    simp [idle] at busy
  · rintro spared ⟨full,live⟩
    refine ⟨full,fun c listed => ?_⟩
    by_contra idle
    exact spared ⟨full,⟨c,listed,by simpa using idle⟩,live⟩

/-- The override finds nothing used up in a full pool of one idle context. -/
theorem override_refused_over_idle_context :
    (getOrCreateContext (Config.small .reusable) (onlyContext false) ⟨⟨some "de"⟩,none⟩
      expiringClock (.ok ⟨some 0,none⟩)).2 = .ok none ∧
    ¬Exhausted (Config.small .reusable) (onlyContext false) := by
  refine ⟨rfl,fun ⟨_,busy⟩ => ?_⟩
  have taken := busy 0 (List.mem_singleton.mpr rfl)
  cases taken

theorem override_gives_up_only_when_full_busy :
    (getOrCreateContext (Config.small .reusable) (onlyContext true) ⟨⟨some "de"⟩,none⟩
      expiringClock (.ok ⟨some 0,none⟩)).2 = .ok none ∧
    Exhausted (Config.small .reusable) (onlyContext true) := by
  have refused : (getOrCreateContext (Config.small .reusable) (onlyContext true)
      ⟨⟨some "de"⟩,none⟩ expiringClock (.ok ⟨some 0,none⟩)).2 = .ok none := rfl
  refine ⟨refused,(override_gives_up_only_when_full _ _ _ _ _ rfl).mpr ?_ refused⟩
  rintro ⟨_,⟨c,_,idle⟩,_⟩
  cases idle

end BrowserHive.Pool
