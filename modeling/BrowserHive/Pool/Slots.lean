import BrowserHive.Pool.Calls

/-! Where slots come from. On the thread of one call a slot begins as a CDP context and is
completed by a tab in it; the call carries it to the task that waits, which builds a
context around it. -/
namespace BrowserHive.Pool

open BrowserHive Transition

variable {cfg : Config} {p pool : PoolState} {tasks : List Pc} {pc pc' : Pc} {spawned : List Pc}

/-- What a context was built around, but for a tab it has given up. -/
def PoolState.slot (p : PoolState) (c : ContextId) : Slot := ⟨(p.ctx c).tab,(p.ctx c).cdpContextId⟩

/-- The call a tab is about to be opened for, and the CDP context it will be opened in. -/
def Pc.halfway : Pc → Option (Nat × Option Nat)
  | .closure j (.newTab _ cdpContextId) => some (j,cdpContextId)
  | _ => none

inductive Slotted (cfg : Config) (p : PoolState) (pc : Pc) (pool : PoolState) (pc' : Pc)
    (spawned : List Pc) : Prop where
  | quiet (fresh : pool.fresh = p.fresh) (tabs : pool.nextTab = p.nextTab)
      (cdpContexts : pool.nextCdpContext = p.nextCdpContext)
      (slots : ∀ c, pool.slot c = p.slot c ∨ pool.slot c = ⟨none,(p.slot c).cdpContextId⟩)
      (values : ∀ j slot, slot ∈ CdpCall.held (pool.calls j) → slot ∈ CdpCall.held (p.calls j))
      (halfway : pc'.halfway = none)
      (newborn : ∀ x ∈ spawned, ∀ j cdp, x.halfway = some (j,cdp) →
        cfg.scope.contextIsolation = .shared ∧ j = p.nextCall ∧ cdp = none)
  | context (j : Nat) (pipeline : Pipeline) (at_ : pc = .closure j (.cdpContext pipeline))
      (pool : pool = { p with nextCdpContext := p.nextCdpContext + 1 })
      (next : pc' = .closure j (.newTab pipeline (some p.nextCdpContext))) (alone : spawned = [])
  | returned (j : Nat) (stage : Closure) (slot : Slot) (at_ : pc = .closure j stage)
      (made : (slot = ⟨none,none⟩ ∧ pool.nextTab = p.nextTab) ∨
        ∃ cdp, pc.halfway = some (j,cdp) ∧
          ((slot = ⟨none,cdp⟩ ∧ pool.nextTab = p.nextTab) ∨
            (slot = ⟨some p.nextTab,cdp⟩ ∧ pool.nextTab = p.nextTab + 1)))
      (fresh : pool.fresh = p.fresh) (cdpContexts : pool.nextCdpContext = p.nextCdpContext)
      (slots : pool.slot = p.slot)
      (values : ∀ k v, v ∈ CdpCall.held (pool.calls k) → v ∈ CdpCall.held (p.calls k) ∨ (k = j ∧ v = slot))
      (next : pc' = .answering j) (alone : spawned = [])
  | built (j : Nat) (slot : Slot) (waits : pc.caller = some j)
      (origin : slot ∈ CdpCall.held (p.calls j) ∨ slot = ⟨none,none⟩)
      (fresh : pool.fresh = p.fresh + 1) (tabs : pool.nextTab = p.nextTab)
      (cdpContexts : pool.nextCdpContext = p.nextCdpContext)
      (slots : ∀ c, pool.slot c = if c = p.fresh then slot else p.slot c)
      (calls : pool.calls = p.calls) (halfway : pc'.halfway = none) (gave : pc'.caller = none)
      (alone : spawned = [])

section Frame

variable (p : PoolState) (c d : ContextId) (f : BrowserContext → BrowserContext) (busy : Bool)
  (cfg : Config) (slot : Slot)

theorem PoolState.modify_slot (tab : (f (p.ctx c)).tab = (p.ctx c).tab)
    (cdp : (f (p.ctx c)).cdpContextId = (p.ctx c).cdpContextId) : (p.modify c f).slot d = p.slot d := by
  by_cases same : d = c
  · subst same
    simp [PoolState.slot,modify,tab,cdp]
  · simp [PoolState.slot,modify,same]

@[simp] theorem PoolState.setBusy_slot : (p.setBusy c busy).slot d = p.slot d := modify_slot p c d _ rfl rfl

theorem PoolState.release_slot :
    (p.release cfg c).slot d = p.slot d ∨ (p.release cfg c).slot d = ⟨none,(p.slot d).cdpContextId⟩ := by
  by_cases same : d = c
  · subst same
    right
    simp [PoolState.slot,release,modify]
  · left
    simp [PoolState.slot,release,modify,same]

@[simp] theorem PoolState.addContext_slot :
    (p.addContext slot busy).slot d = if d = p.fresh then slot else p.slot d := by
  by_cases same : d = p.fresh <;> simp [PoolState.slot,addContext,BrowserContext.new,same]

end Frame

/-- A call's step adds no value unless its closure returns one. -/
theorem held_of_call {pool : PoolState} (valid : ∀ j, CdpCall.Invariant (p.calls j))
    (stepped : CdpCall.step CdpCall.callTimeout name (p.calls j) event = some call)
    (calls : pool.calls = Function.update p.calls j call) (k : Nat) (v : Slot)
    (mem : v ∈ CdpCall.held (pool.calls k)) :
    v ∈ CdpCall.held (p.calls k) ∨ (k = j ∧ event = .closureReturns (.ok v)) := by
  by_cases same : k = j
  · subst same
    rw [calls,Function.update_self] at mem
    exact (CdpCall.held_of_step (valid k) stepped mem).imp_right fun returned => ⟨rfl,returned⟩
  · rw [calls,Function.update_of_ne same] at mem
    exact .inl mem

theorem Slotted.still (fresh : pool.fresh = p.fresh) (tabs : pool.nextTab = p.nextTab)
    (cdpContexts : pool.nextCdpContext = p.nextCdpContext) (calls : pool.calls = p.calls)
    (slots : ∀ c, pool.slot c = p.slot c) (halfway : pc'.halfway = none)
    (newborn : ∀ x ∈ spawned, x.halfway = none) : Slotted cfg p pc pool pc' spawned :=
  .quiet fresh tabs cdpContexts (fun c => .inl (slots c)) (fun _ _ mem => calls ▸ mem) halfway
    (fun x born j cdp here => by simp [newborn x born] at here)

theorem await_slotted {choice : Choice} (valid : ∀ j, CdpCall.Invariant (p.calls j))
    (chosen : choice.event = some event) (stepped : Steps name p j event call) (stays : pc'.halfway = none) :
    Slotted cfg p pc (p.setCall j call) pc' [] := by
  refine .quiet rfl rfl rfl (fun c => .inl rfl) (fun k v mem => ?_) stays (by simp)
  refine (held_of_call valid stepped rfl k v mem).resolve_right fun returned => ?_
  cases choice <;> simp_all [Choice.event]

theorem held_of_returned (returned : (p.calls j).caller = .returned (.ok slot)) :
    slot ∈ CdpCall.held (p.calls j) := by
  simp [CdpCall.held,CdpCall.Caller.value,returned]

theorem spawn_slotted (q : PoolState) (fresh : q.fresh = p.fresh) (tabs : q.nextTab = p.nextTab)
    (cdpContexts : q.nextCdpContext = p.nextCdpContext) (next : q.nextCall = p.nextCall)
    (calls : q.calls = p.calls)
    (slots : ∀ c, q.slot c = p.slot c ∨ q.slot c = ⟨none,(p.slot c).cdpContextId⟩) (halfway : pc'.halfway = none) :
    Slotted cfg p pc (spawnCall q) pc' [.closure q.nextCall (firstStage cfg pipeline)] := by
  refine .quiet fresh tabs cdpContexts slots (fun k v mem => ?_) halfway ?_
  · by_cases same : k = q.nextCall
    · subst same
      simp [spawnCall,PoolState.setCall,CdpCall.State.initial,CdpCall.held,CdpCall.unread,
        CdpCall.Thread.value,Oneshot.fresh] at mem
    · simpa [spawnCall,PoolState.setCall,same,calls] using mem
  · intro x born j cdp here
    obtain rfl := List.mem_singleton.mp born
    cases isolation : cfg.scope.contextIsolation <;>
      simp_all [firstStage,Pc.halfway]

/-- A closure that returns adds what it made, or nothing when it failed. -/
theorem return_slotted {q : PoolState} (valid : ∀ j, CdpCall.Invariant (p.calls j))
    (stepped : Steps createCall p j (.closureReturns result) call) (calls : q.calls = p.calls)
    (ctx : q.ctx = p.ctx) (fresh : q.fresh = p.fresh) (cdpContexts : q.nextCdpContext = p.nextCdpContext)
    (made : ∀ slot, result = .ok slot → (slot = ⟨none,none⟩ ∧ q.nextTab = p.nextTab) ∨
      ∃ cdp, (Pc.closure j stage).halfway = some (j,cdp) ∧
        ((slot = ⟨none,cdp⟩ ∧ q.nextTab = p.nextTab) ∨ (slot = ⟨some p.nextTab,cdp⟩ ∧ q.nextTab = p.nextTab + 1)))
    (failed : result = .error () → q.nextTab = p.nextTab) :
    Slotted cfg p (.closure j stage) (q.setCall j call) (.answering j) [] := by
  have slots : ∀ c, (q.setCall j call).slot c = p.slot c := by simp [PoolState.slot,ctx]
  have values : ∀ k v, v ∈ CdpCall.held ((q.setCall j call).calls k) →
      v ∈ CdpCall.held (p.calls k) ∨ (k = j ∧ CdpCall.Event.closureReturns result = .closureReturns (.ok v)) :=
    held_of_call valid stepped (by simp only [PoolState.setCall,calls])
  cases result with
  | error e =>
    refine .quiet fresh (failed rfl) cdpContexts (fun c => .inl (slots c)) (fun k v mem => ?_) rfl (by simp)
    exact (values k v mem).resolve_right (by simp)
  | ok slot =>
    refine .returned j stage slot rfl (made slot rfl) fresh cdpContexts (funext slots) (fun k v mem => ?_) rfl rfl
    refine (values k v mem).imp_right fun ⟨same,event⟩ => ⟨same,?_⟩
    simpa using event.symm

theorem Returns.slotted (valid : ∀ j, CdpCall.Invariant (p.calls j)) (made : Returns cfg p choice stage q result)
    (stepped : Steps createCall p j (.closureReturns result) call) :
    Slotted cfg p (.closure j stage) (q.setCall j call) (.answering j) [] := by
  cases made with
  | noCdpContext => exact return_slotted valid stepped rfl rfl rfl rfl (by simp) (fun _ => rfl)
  | withoutCdpContext => exact return_slotted valid stepped rfl rfl rfl rfl (by simp) (by simp)
  | noTab => exact return_slotted valid stepped rfl rfl rfl rfl (by simp) (fun _ => rfl)
  | @withoutTab cdp =>
    exact return_slotted valid stepped rfl rfl rfl rfl
      (fun slot made => .inr ⟨cdp,rfl,.inl ⟨by simpa using made.symm,rfl⟩⟩) (by simp)
  | @tab pipeline cdp =>
    exact return_slotted valid stepped rfl rfl rfl rfl
      (fun slot made => .inr ⟨cdp,rfl,.inr ⟨by simpa using made.symm,rfl⟩⟩) (by simp)

theorem Move.slotted (valid : ∀ j, CdpCall.Invariant (p.calls j))
    (move : Move cfg p tasks choice pc pool pc' spawned) : Slotted cfg p pc pool pc' spawned := by
  cases move with
  | walk walks => cases walks <;> exact .still rfl rfl rfl rfl (fun _ => rfl) rfl (by simp)
  | recycle =>
    exact spawn_slotted (p.release cfg _) rfl rfl rfl rfl rfl (fun c => PoolState.release_slot p _ c cfg) rfl
  | build => exact spawn_slotted p rfl rfl rfl rfl rfl (fun c => .inl rfl) rfl
  | rebuilt returned made =>
    rcases made with rfl | ⟨_,rfl⟩
    · exact .built _ _ rfl (.inl (held_of_returned returned)) rfl rfl rfl (by simp) rfl rfl rfl rfl
    · exact .built _ _ rfl (.inr rfl) rfl rfl rfl (by simp) rfl rfl rfl rfl
  | @built j slot returned =>
    exact .built j slot rfl (.inl (held_of_returned returned)) rfl rfl rfl
      (fun c => PoolState.addContext_slot p c true slot) rfl rfl rfl rfl
  | awaitRebuild chosen stepped | awaitBuild chosen stepped => exact await_slotted valid chosen stepped rfl
  | @touch c | @block _ c | @stamp c =>
    exact .still rfl rfl rfl rfl (fun d => PoolState.modify_slot p c d _ rfl rfl) rfl (by simp)
  | endSession => exact .still rfl rfl rfl rfl (fun d => PoolState.setBusy_slot p _ d true) rfl (by simp)
  | @release c => exact .quiet rfl rfl rfl (fun d => PoolState.release_slot p c d cfg) (fun _ _ mem => mem) rfl (by simp)
  | @released after => cases after <;> exact .still rfl rfl rfl rfl (fun _ => rfl) rfl (by simp)
  | @cdpContext j pipeline => exact .context j pipeline rfl rfl rfl rfl
  | returns made stepped => exact made.slotted valid stepped
  | send _ stepped | discard _ stepped =>
    exact .quiet rfl rfl rfl (fun c => .inl rfl)
      (fun k v mem => (held_of_call valid stepped rfl k v mem).resolve_right (by simp)) rfl (by simp)
  | pickClaim | claim | claimUsedUp | continues | clear | clearAlwaysNew =>
    exact .still rfl rfl rfl rfl (by simp) rfl (by simp [Pc.halfway])
  | _ => exact .still rfl rfl rfl rfl (fun _ => rfl) rfl (by simp)

theorem next_slotted (valid : ∀ j, CdpCall.Invariant (p.calls j))
    (moved : next cfg p tasks choice pc = some (pool,pc',spawned)) : Slotted cfg p pc pool pc' spawned :=
  (next_move moved).slotted valid

/-- A context keeps its CDP context for life. -/
theorem Slotted.cdpContextId (slotted : Slotted cfg p pc pool pc' spawned) (known : c < p.fresh) :
    (pool.slot c).cdpContextId = (p.slot c).cdpContextId ∧ c < pool.fresh := by
  cases slotted with
  | quiet fresh tabs cdpContexts slots =>
    refine ⟨?_,fresh ▸ known⟩
    rcases slots c with same | taken
    · rw [same]
    · rw [taken]
  | context j pipeline at_ pool_ =>
    subst pool_
    exact ⟨rfl,known⟩
  | returned j stage slot at_ made fresh cdpContexts slots => exact ⟨by rw [slots],fresh ▸ known⟩
  | built j slot waits origin fresh tabs cdpContexts slots =>
    rw [slots c,if_neg (Nat.ne_of_lt known),fresh]
    exact ⟨rfl,Nat.lt_succ_of_lt known⟩

theorem Slotted.nextCdpContext_le (slotted : Slotted cfg p pc pool pc' spawned) :
    p.nextCdpContext ≤ pool.nextCdpContext := by
  cases slotted with
  | quiet fresh tabs cdpContexts => exact Nat.le_of_eq cdpContexts.symm
  | context j pipeline at_ pool_ =>
    subst pool_
    exact Nat.le_succ _
  | returned j stage slot at_ made fresh cdpContexts => exact Nat.le_of_eq cdpContexts.symm
  | built j slot waits origin fresh tabs cdpContexts => exact Nat.le_of_eq cdpContexts.symm

/-- A future that is dropped creates nothing. -/
theorem cancelled_slotted (valid : ∀ j, CdpCall.Invariant (p.calls j)) (dropped : cancelled p pc = some (pool,pc')) :
    Slotted cfg p pc pool pc' [] ∧ pool.ctx = p.ctx ∧ pool.fresh = p.fresh ∧ pool.nextCdpContext = p.nextCdpContext ∧
      pool.nextTab = p.nextTab := by
  cases cancelled_drop dropped with
  | waiting stepped =>
    refine ⟨.quiet rfl rfl rfl (fun c => .inl rfl) (fun k v mem => ?_) rfl (by simp),rfl,rfl,rfl,rfl⟩
    exact (held_of_call valid stepped rfl k v mem).resolve_right (by simp)
  | _ => exact ⟨.still rfl rfl rfl rfl (fun _ => rfl) rfl (by simp),rfl,rfl,rfl,rfl⟩

/-- `Q` holds of every slot on its way through a call, and `R` of every context's. -/
structure Sourced (Q : Nat → Slot → Prop) (R : ContextId → Slot → Prop) (s : State) : Prop where
  values : ∀ j slot, slot ∈ CdpCall.held (s.pool.calls j) → Q j slot
  halfway : ∀ (i : Nat) (pc : Pc) j cdp, s.tasks[i]? = some pc → pc.halfway = some (j,cdp) → Q j ⟨none,cdp⟩
  contexts : ∀ c, c < s.pool.fresh → R c (s.pool.slot c)

/-- What a step has to show for `Q` and `R`, should they change with it. -/
structure Sourcing (Q Q' : Nat → Slot → Prop) (R R' : ContextId → Slot → Prop) (p : PoolState) (pc : Pc)
    (pool : PoolState) : Prop where
  kept : ∀ j slot, Q j slot → Q' j slot
  empty : ∀ j, Q' j ⟨none,none⟩
  context : ∀ j pipeline, pc = .closure j (.cdpContext pipeline) →
    pool.nextCdpContext = p.nextCdpContext + 1 → Q' j ⟨none,some p.nextCdpContext⟩
  tab : ∀ j cdp, pc.halfway = some (j,cdp) → pool.nextTab = p.nextTab + 1 → Q j ⟨none,cdp⟩ →
    Q' j ⟨some p.nextTab,cdp⟩
  placed : ∀ c slot, c < p.fresh → R c slot → R' c slot
  taken : ∀ c slot, c < p.fresh → R c slot → R' c ⟨none,slot.cdpContextId⟩
  built : ∀ j slot, pc.caller = some j → pool.fresh = p.fresh + 1 → pool.slot p.fresh = slot →
    Q j slot ∨ slot = ⟨none,none⟩ → R' p.fresh slot

theorem Sourced.move {Q Q' : Nat → Slot → Prop} {R R' : ContextId → Slot → Prop} {s : State} {i : Nat}
    (sourced : Sourced Q R s) (at_ : s.tasks[i]? = some pc) (slotted : Slotted cfg s.pool pc pool pc' spawned)
    (sourcing : Sourcing Q Q' R R' s.pool pc pool) : Sourced Q' R' ⟨pool,s.tasks.set i pc' ++ spawned⟩ := by
  have halfway : (∀ j cdp, pc'.halfway = some (j,cdp) → Q' j ⟨none,cdp⟩) →
      (∀ x ∈ spawned, ∀ j cdp, x.halfway = some (j,cdp) → Q' j ⟨none,cdp⟩) →
      ∀ (k : Nat) (x : Pc) j cdp, (s.tasks.set i pc' ++ spawned)[k]? = some x →
        x.halfway = some (j,cdp) → Q' j ⟨none,cdp⟩ := by
    intro moved born k x j cdp atK here
    rcases Tasks.getElem?_set_append at_ pc' spawned atK with ⟨_,rfl⟩ | ⟨_,atK⟩ | ⟨_,new⟩
    · exact moved j cdp here
    · exact sourcing.kept _ _ (sourced.halfway k x j cdp atK here)
    · exact born x new j cdp here
  cases slotted with
  | quiet fresh tabs cdpContexts slots values done newborn =>
    refine ⟨fun j slot mem => sourcing.kept _ _ (sourced.values j slot (values j slot mem)),?_,fun c known => ?_⟩
    · refine halfway (fun j cdp here => by simp [done] at here) fun x born j cdp here => ?_
      obtain ⟨_,_,rfl⟩ := newborn x born j cdp here
      exact sourcing.empty j
    · have before : c < s.pool.fresh := fresh ▸ known
      rcases slots c with same | taken
      · exact same ▸ sourcing.placed c _ before (sourced.contexts c before)
      · exact taken ▸ sourcing.taken c _ before (sourced.contexts c before)
  | context j pipeline here pool_ next alone =>
    subst pool_
    refine ⟨fun j slot mem => sourcing.kept _ _ (sourced.values j slot mem),?_,
      fun c known => sourcing.placed c _ known (sourced.contexts c known)⟩
    refine halfway (fun k cdp mine => ?_) (by simp [alone])
    obtain ⟨rfl,rfl⟩ := by simpa [next,Pc.halfway] using mine
    exact sourcing.context j pipeline here rfl
  | returned j stage slot here made fresh cdpContexts slots values next alone =>
    refine ⟨fun k v mem => ?_,halfway (by simp [next,Pc.halfway]) (by simp [alone]),fun c known => ?_⟩
    · rcases values k v mem with before | ⟨rfl,rfl⟩
      · exact sourcing.kept _ _ (sourced.values k v before)
      · rcases made with ⟨rfl,_⟩ | ⟨cdp,mine,⟨rfl,_⟩ | ⟨rfl,opened⟩⟩
        · exact sourcing.empty k
        · exact sourcing.kept _ _ (sourced.halfway i pc k cdp at_ mine)
        · exact sourcing.tab k cdp mine opened (sourced.halfway i pc k cdp at_ mine)
    · have before : c < s.pool.fresh := fresh ▸ known
      exact slots ▸ sourcing.placed c _ before (sourced.contexts c before)
  | built j slot waits origin fresh tabs cdpContexts slots calls done gave alone =>
    refine ⟨fun k v mem => sourcing.kept _ _ (sourced.values k v (calls ▸ mem)),
      halfway (by simp [done]) (by simp [alone]),fun c known => ?_⟩
    have within : c < s.pool.fresh + 1 := fresh ▸ known
    rw [slots c]
    split
    · next same =>
      subst same
      exact sourcing.built j slot waits fresh (by simp [slots]) (origin.imp_left (sourced.values j slot))
    · next apart =>
      have before : c < s.pool.fresh := Nat.lt_of_le_of_ne (Nat.le_of_lt_succ within) apart
      exact sourcing.placed c _ before (sourced.contexts c before)

/-- Tasks that arrive and time that passes touch no slot. -/
theorem Sourced.arrive {Q : Nat → Slot → Prop} {R : ContextId → Slot → Prop} {s : State} (sourced : Sourced Q R s)
    (stranger : pc.halfway = none) : Sourced Q R ⟨s.pool,s.tasks ++ [pc]⟩ := by
  refine ⟨sourced.values,fun k x j cdp atK here => ?_,sourced.contexts⟩
  rcases Tasks.getElem?_append_cases atK with atK | ⟨_,rfl⟩
  · exact sourced.halfway k x j cdp atK here
  · simp [stranger] at here

/-- The contexts have changed, but nothing that is on its way to them. -/
theorem Sourced.retab {Q Q' : Nat → Slot → Prop} {R R' : ContextId → Slot → Prop} {s : State} {q : PoolState}
    (sourced : Sourced Q R s) (calls : q.calls = s.pool.calls) (kept : ∀ j slot, Q j slot → Q' j slot)
    (contexts : ∀ c, c < q.fresh → R' c (q.slot c)) : Sourced Q' R' ⟨q,s.tasks⟩ :=
  ⟨fun j slot mem => kept _ _ (sourced.values j slot (calls ▸ mem)),
    fun i pc j cdp at_ half => kept _ _ (sourced.halfway i pc j cdp at_ half),contexts⟩

def initialSlot (cfg : Config) (c : ContextId) : Slot :=
  match cfg.scope.contextIsolation with
  | .isolated => ⟨some c,some c⟩
  | .shared => ⟨some c,none⟩

structure Populated (cfg : Config) (p : PoolState) : Prop where
  slots : ∀ c, c < p.fresh → p.slot c = initialSlot cfg c
  tabs : p.nextTab = p.fresh
  cdpContexts : cfg.scope.contextIsolation = .isolated → p.nextCdpContext = p.fresh

theorem Populated.create (populated : Populated cfg p) (contexts : List ContextId) :
    Populated cfg { createNewContext cfg p with contexts := contexts } := by
  have slot : ∀ c, ({ createNewContext cfg p with contexts := contexts } : PoolState).slot c =
      if c = p.fresh then initialSlot cfg c else p.slot c := by
    intro c
    cases isolation : cfg.scope.contextIsolation with
    | isolated =>
      have next := populated.cdpContexts isolation
      by_cases same : c = p.fresh <;>
        simp [PoolState.slot,createNewContext,isolation,initialSlot,PoolState.addContext,BrowserContext.new,
          populated.tabs,next,same]
    | shared =>
      by_cases same : c = p.fresh <;>
        simp [PoolState.slot,createNewContext,isolation,initialSlot,PoolState.addContext,BrowserContext.new,
          populated.tabs,same]
  refine ⟨fun c known => ?_,congrArg (· + 1) populated.tabs,fun isolated => ?_⟩
  · rw [slot c]
    split
    · rfl
    · next apart => exact populated.slots c (Nat.lt_of_le_of_ne (Nat.le_of_lt_succ known) apart)
  · simp [createNewContext,isolated,populated.cdpContexts isolated]

theorem populate_populated (n : Nat) (populated : Populated cfg p) : Populated cfg (populateInitialContexts cfg n p) := by
  induction n generalizing p with
  | zero => exact populated
  | succ n ih => exact ih (populated.create _)

theorem initial_populated (cfg : Config) : Populated cfg (initial cfg).pool := by
  have empty : Populated cfg PoolState.empty := ⟨by simp [PoolState.empty],rfl,fun _ => rfl⟩
  cases mode : cfg.scope.sessionMode with
  | reusable =>
    simp only [initial,mode]
    exact populate_populated _ empty
  | alwaysNew | dedicated => simpa only [initial,mode] using empty

/-- At startup no slot is on its way, so only the initial contexts have to satisfy `R`. -/
theorem Sourced.initial {Q : Nat → Slot → Prop} {R : ContextId → Slot → Prop}
    (placed : ∀ c, c < (Pool.initial cfg).pool.fresh → R c (initialSlot cfg c)) : Sourced Q R (Pool.initial cfg) := by
  refine ⟨fun j slot mem => ?_,fun i pc j cdp at_ here => ?_,fun c known => ?_⟩
  · rw [(initial_calls cfg).1] at mem
    simp [PoolState.empty,CdpCall.State.initial,CdpCall.held,CdpCall.unread,CdpCall.Thread.value,
      Oneshot.fresh] at mem
  · obtain rfl := initial_task at_
    contradiction
  · rw [(initial_populated cfg).slots c known]
    exact placed c known

end BrowserHive.Pool
