import BrowserHive.Pool.Origin

/-! The tabs of a pool whose contexts are isolated. A request that is served takes its
context's tab lock, opens the tab there is none of, opens another when the tab or its
connection turns out to be dead, and gives the lock back. `create_tab` runs on a blocking
thread like a creation does. Which CDP context each tab was opened in, and which tabs a
context ever held, is recorded in the state. -/
namespace BrowserHive.Pool

open BrowserHive Transition

variable {cfg : Config} {p pool : PoolState} {tasks : List Pc} {pc pc' : Pc} {spawned : List Pc}

inductive TabStage where
  | out
  | locked (context : ContextId)
  | creating (context : ContextId) (creation : Nat)
  | ready (context : ContextId)
  deriving DecidableEq, Repr

def TabStage.holds : TabStage → Option ContextId
  | .out => none
  | .locked c | .creating c _ | .ready c => some c

structure TabState where
  pool : State
  /-- By task. -/
  stage : Nat → TabStage
  creation : Nat → CdpCall.State Nat Unit
  /-- The context a `create_tab` works for, and the id it was called with. -/
  creationFor : Nat → ContextId
  calledWith : Nat → Option Nat
  nextCreation : Nat
  /-- The CDP context a tab was opened in; `none` is Chrome's default context. -/
  openedIn : Nat → Option Nat
  /-- Every tab a context holds or has held. -/
  held : ContextId → List Nat

inductive TabAction where
  | pool (action : Action)
  | lock (task : Nat)
  | look (task : Nat)
  | recreate (task : Nat)
  | creation (creation : Nat) (event : CdpCall.Event Nat Unit)
  | adopt (task : Nat)
  | giveUp (task : Nat)
  | unlock (task : Nat)
  | closeTab (task : Nat)
  deriving Repr

namespace TabState

def lockFree (s : TabState) (c : ContextId) : Bool :=
  (List.range s.pool.tasks.length).all fun i => (s.stage i).holds ≠ some c

def setStage (s : TabState) (i : Nat) (stage : TabStage) : TabState :=
  { s with stage := Function.update s.stage i stage }

def setPool (s : TabState) (pool : PoolState) : TabState := { s with pool := { s.pool with pool := pool } }

def setCreation (s : TabState) (k : Nat) (call : CdpCall.State Nat Unit) : TabState :=
  { s with creation := Function.update s.creation k call }

def createTab (s : TabState) (i : Nat) (c : ContextId) : TabState :=
  { s with
    stage := Function.update s.stage i (.creating c s.nextCreation)
    creation := Function.update s.creation s.nextCreation CdpCall.State.initial
    creationFor := Function.update s.creationFor s.nextCreation c
    calledWith := Function.update s.calledWith s.nextCreation (s.pool.pool.ctx c).cdpContextId
    nextCreation := s.nextCreation + 1 }

end TabState

def setTab (p : PoolState) (c : ContextId) (tab : Option Nat) : PoolState :=
  p.modify c fun context => { context with tab := tab }

def createTabCall : String := "Target.createTarget"

/-- `destroy_context` and the end of the request come after the tab lock is given back, and
whoever takes a tab out of a context needs the lock. -/
def lockPermits (s : TabState) : Action → Bool
  | .run i choice =>
    match s.pool.tasks[i]? with
    | some (.serving _) => (choice ≠ .destroy && choice ≠ .finish) || s.stage i = .out
    | some (.releasing (c :: _) _) => choice = .tabLockTimeout || s.lockFree c
    | some (.recycling (c :: _)) => s.lockFree c
    | _ => true
  | _ => true

/-- What the record adds when the pool takes a step: the thread of a creation opens its tab
in the CDP context it was given, and a new context holds the tab it was built with. -/
def TabState.follow (s : TabState) (action : Action) (t : State) : TabState :=
  { s with
    pool := t
    openedIn :=
      match action with
      | .run i _ =>
        match (s.pool.tasks[i]?).bind Pc.halfway with
        | some (_,cdp) =>
          if t.pool.nextTab = s.pool.pool.nextTab then s.openedIn
          else Function.update s.openedIn s.pool.pool.nextTab cdp
        | none => s.openedIn
      | _ => s.openedIn
    held :=
      if t.pool.fresh = s.pool.pool.fresh then s.held
      else Function.update s.held s.pool.pool.fresh (t.pool.ctx s.pool.pool.fresh).tab.toList }

/-- A future that is dropped gives its lock back, and leaves a tab that is being created to
its thread. -/
def TabState.dropFuture (s : TabState) (i : Nat) : Option TabState :=
  match s.stage i with
  | .creating _ k =>
    (CdpCall.step CdpCall.callTimeout createTabCall (s.creation k) .dropCaller).map fun call =>
      (s.setCreation k call).setStage i .out
  | _ => some (s.setStage i .out)

/-- A step of the thread, or of the request that waits for it. -/
def TabState.creationStep (s : TabState) (k : Nat) (event : CdpCall.Event Nat Unit) : Option TabState :=
  if s.nextCreation ≤ k then none
  else (CdpCall.step CdpCall.callTimeout createTabCall (s.creation k) event).bind fun call =>
    match event with
    | .closureReturns (.ok tab) =>
      -- `SlotFactory::new_tab`, in the context it was called with
      if tab = s.pool.pool.nextTab then
        some { (s.setCreation k call).setPool { s.pool.pool with nextTab := s.pool.pool.nextTab + 1 } with
          openedIn := Function.update s.openedIn tab (s.calledWith k) }
      else none
    | .cleanup =>
      match (s.creation k).thread with
      | .orphaned tab =>
        some ((s.setCreation k call).setPool
          { s.pool.pool with disposed := s.pool.pool.disposed ++ [.tab tab] })
      | _ => none
    | .dropCaller => none
    | _ => some (s.setCreation k call)

def tabStep (cfg : Config) (s : TabState) : TabAction → Option TabState
  | .pool action =>
    if lockPermits s action then
      (step cfg s.pool action).bind fun t =>
        match action with
        | .cancel i => (s.follow action t).dropFuture i
        | _ => some (s.follow action t)
    else none
  | .lock i =>
    match s.pool.tasks[i]?, s.stage i with
    | some (.serving c), .out => if s.lockFree c then some (s.setStage i (.locked c)) else none
    | _, _ => none
  | .look i =>
    match s.stage i with
    | .locked c =>
      match (s.pool.pool.ctx c).tab, (s.pool.pool.ctx c).cdpContextId, cfg.scope.contextIsolation with
      | some _, _, _ => some (s.setStage i (.ready c))
      -- the slot has lost its CDP context: the request destroys it and ends
      | none, none, .isolated =>
        (step cfg s.pool (.run i .destroy)).map fun t => (s.follow (.run i .destroy) t).setStage i .out
      | none, _, _ => some (s.createTab i c)
    | _ => none
  -- the tab's session is dead, or its connection is closed
  | .recreate i =>
    match s.stage i with
    | .ready c => some (s.createTab i c)
    | _ => none
  | .creation k event => s.creationStep k event
  | .adopt i =>
    match s.stage i with
    | .creating c k =>
      match (s.creation k).caller with
      | .returned (.ok tab) =>
        some { (s.setPool (setTab s.pool.pool c (some tab))).setStage i (.ready c) with
          held := Function.update s.held c (s.held c ++ [tab]) }
      | _ => none
    | _ => none
  | .giveUp i =>
    match s.stage i with
    | .creating _ k =>
      match (s.creation k).caller with
      | .returned (.error _) => some (s.setStage i .out)
      | _ => none
    | _ => none
  | .unlock i =>
    match s.stage i with
    | .locked _ | .ready _ => some (s.setStage i .out)
    | _ => none
  -- `CloseTabGuard::drop`, before the busy guard's
  | .closeTab i =>
    match s.pool.tasks[i]? with
    | some (.stamping c) =>
      if cfg.scope.closeTabAfterRequest ∧ cfg.scope.sessionMode = .reusable ∧ s.lockFree c then
        some (s.setPool { setTab s.pool.pool c none with
          disposed := s.pool.pool.disposed ++ resourcesOf (s.pool.pool.ctx c).tab none })
      else none
    | _ => none

def tabs (cfg : Config) : Machine TabState TabAction where
  initial :=
    ⟨initial cfg,fun _ => .out,fun _ => CdpCall.State.initial,fun _ => 0,fun _ => none,0,
      fun tab => (initialSlot cfg tab).cdpContextId,fun c => (initialSlot cfg c).tab.toList⟩
  step := tabStep cfg

/-- What holds of the pool whatever its tabs are. -/
structure PoolInvariant (s : State) : Prop where
  locks : LockInvariant s
  leases : LeaseInvariant s
  calls : CallInvariant s
  traced : ∃ o, Traced o s
  /-- No tab is about to be opened outside a CDP context. -/
  inside : ∀ (i : Nat) (pc : Pc) j cdp, s.tasks[i]? = some pc → pc.halfway = some (j,cdp) → cdp.isSome

theorem inside_moved {s : State} {i : Nat} (isolated : cfg.scope.contextIsolation = .isolated)
    (inside : ∀ (i : Nat) (pc : Pc) j cdp, s.tasks[i]? = some pc → pc.halfway = some (j,cdp) → cdp.isSome)
    (at_ : s.tasks[i]? = some pc) (slotted : Slotted cfg s.pool pc pool pc' spawned) (k : Nat) (x : Pc) (j : Nat)
    (cdp : Option Nat) (atK : (s.tasks.set i pc' ++ spawned)[k]? = some x) (half : x.halfway = some (j,cdp)) :
    cdp.isSome := by
  rcases Tasks.getElem?_set_append at_ pc' spawned atK with ⟨_,rfl⟩ | ⟨_,atK⟩ | ⟨_,born⟩
  · cases slotted with
    | quiet _ _ _ _ _ halfway => simp [halfway] at half
    | context j pipeline _ _ next =>
      obtain ⟨_,rfl⟩ := by simpa [next,Pc.halfway] using half
      rfl
    | returned _ _ _ _ _ _ _ _ _ next => simp [next,Pc.halfway] at half
    | built _ _ _ _ _ _ _ _ _ halfway => simp [halfway] at half
  · exact inside k x j cdp atK half
  · cases slotted with
    | quiet _ _ _ _ _ _ newborn =>
      have shared := (newborn x born j cdp half).1
      rw [isolated] at shared
      contradiction
    | context _ _ _ _ _ alone | returned _ _ _ _ _ _ _ _ _ _ alone | built _ _ _ _ _ _ _ _ _ _ _ alone =>
      simp [alone] at born

theorem PoolInvariant.step {s t : State} (isolated : cfg.scope.contextIsolation = .isolated) (valid : PoolInvariant s)
    (taken : step cfg s action = some t) : PoolInvariant t := by
  obtain ⟨o,traced⟩ := valid.traced
  refine ⟨valid.locks.step taken,valid.leases.step valid.locks taken,valid.calls.step taken,
    traced.step valid.calls taken,?_⟩
  rcases step_cases taken with ⟨_,_,rfl⟩ | ⟨pc,arrives,rfl⟩ | ⟨i,_,pc,pool,pc',spawned,_,at_,moved,rfl⟩ |
    ⟨i,pc,pool,pc',_,at_,dropped,rfl⟩
  · exact valid.inside
  · intro k x j cdp atK half
    rcases Tasks.getElem?_append_cases atK with atK | ⟨_,rfl⟩
    · exact valid.inside k x j cdp atK half
    · rcases arrival_cases arrives with ⟨_,rfl⟩ | ⟨_,rfl⟩ | ⟨_,rfl⟩ <;> contradiction
  · exact inside_moved isolated valid.inside at_ (next_slotted valid.calls.valid moved)
  · obtain ⟨slotted,_⟩ : Slotted cfg s.pool pc pool pc' [] ∧ _ := cancelled_slotted valid.calls.valid dropped
    simpa using inside_moved isolated valid.inside at_ slotted

theorem PoolInvariant.initial : PoolInvariant (initial cfg) := by
  refine ⟨.initial,.initial,.initial,⟨_,.initial cfg⟩,fun i pc j cdp at_ half => ?_⟩
  obtain rfl := initial_task at_
  contradiction

structure Retabbed (p q : PoolState) : Prop where
  contexts : q.contexts = p.contexts
  fresh : q.fresh = p.fresh
  calls : q.calls = p.calls
  nextCall : q.nextCall = p.nextCall
  nextCdpContext : q.nextCdpContext = p.nextCdpContext
  isBusy : ∀ c, q.isBusy c = p.isBusy c
  cdpContextId : ∀ c, (q.ctx c).cdpContextId = (p.ctx c).cdpContextId

theorem PoolInvariant.retab {s : State} {q : PoolState} (valid : PoolInvariant s) (same : Retabbed s.pool q) :
    PoolInvariant ⟨q,s.tasks⟩ := by
  have busy : ∀ c, busyCount q c = busyCount s.pool c := fun c => by simp [busyCount,same.isBusy]
  obtain ⟨o,traced⟩ := valid.traced
  refine ⟨⟨valid.locks.exclusive,fun i pc at_ => same.contexts ▸ valid.locks.sections i pc at_⟩,?_,?_,⟨o,?_⟩,
    valid.inside⟩
  · refine ⟨same.contexts ▸ valid.leases.distinct,?_,?_,?_,?_,?_⟩
    · rw [same.contexts,same.fresh]
      exact valid.leases.known
    · rw [same.fresh]
      exact valid.leases.mentioned
    · intro i pc c at_ incoming
      rw [same.contexts,busy]
      exact valid.leases.secret i pc c at_ incoming
    · intro c
      rw [busy]
      exact valid.leases.held c
    · intro c mem
      rw [busy]
      exact valid.leases.exact c (same.contexts ▸ mem)
  · refine ⟨?_,?_,?_⟩ <;> simp only [same.calls,same.nextCall]
    · exact valid.calls.valid
    · exact valid.calls.known
    · exact valid.calls.owned
  · refine ⟨traced.sourced.retab same.calls (fun j slot made id mine => ?_) (fun c known id mine => ?_),?_,?_,
      traced.receiver⟩
    · rw [same.nextCdpContext]
      exact made id mine
    · rw [same.nextCdpContext]
      exact traced.sourced.contexts c (same.fresh ▸ known) id ((same.cdpContextId c).symm.trans mine)
    · rw [same.fresh]
      exact traced.single
    · rw [same.fresh,same.nextCall]
      exact traced.spent

def TabState.Opened (s : TabState) (tab : Nat) (cdp : Option Nat) : Prop :=
  tab < s.pool.pool.nextTab ∧ ∃ id, cdp = some id ∧ s.openedIn tab = some id

def TabState.SlotTab (s : TabState) (_ : Nat) (slot : Slot) : Prop :=
  ∀ tab, slot.tab = some tab → s.Opened tab slot.cdpContextId

def TabState.ContextTabs (s : TabState) (c : ContextId) (slot : Slot) : Prop :=
  (∀ tab, slot.tab = some tab → tab ∈ s.held c) ∧ ∀ tab ∈ s.held c, s.Opened tab slot.cdpContextId

/-- A `create_tab` was called with the CDP context of the context it works for. -/
structure CreationTab (s : TabState) (k : Nat) : Prop where
  valid : CdpCall.Invariant (s.creation k)
  known : s.creationFor k < s.pool.pool.fresh
  own : s.calledWith k = (s.pool.pool.ctx (s.creationFor k)).cdpContextId
  inside : (s.calledWith k).isSome
  made : ∀ tab, (s.creation k).made = some tab → s.Opened tab (s.calledWith k)

def StageTab (s : TabState) : TabStage → Prop
  | .out => True
  | .locked c => c < s.pool.pool.fresh
  | .creating c k => c < s.pool.pool.fresh ∧ k < s.nextCreation ∧ s.creationFor k = c
  | .ready c => c < s.pool.pool.fresh ∧ (s.pool.pool.ctx c).cdpContextId.isSome

structure TabInvariant (s : TabState) : Prop where
  pool : PoolInvariant s.pool
  slots : Sourced s.SlotTab s.ContextTabs s.pool
  opened : ∀ tab, tab < s.pool.pool.nextTab → (s.openedIn tab).isSome
  creations : ∀ k, k < s.nextCreation → CreationTab s k
  stages : ∀ i, StageTab s (s.stage i)

/-- Contexts keep their CDP contexts, and tabs the ones they were opened in. -/
structure Extends (s t : TabState) : Prop where
  fresh : s.pool.pool.fresh ≤ t.pool.pool.fresh
  nextTab : s.pool.pool.nextTab ≤ t.pool.pool.nextTab
  cdpContextId : ∀ c, c < s.pool.pool.fresh → (t.pool.pool.ctx c).cdpContextId = (s.pool.pool.ctx c).cdpContextId
  openedIn : ∀ tab, tab < s.pool.pool.nextTab → t.openedIn tab = s.openedIn tab

theorem TabState.Opened.mono (opened : s.Opened tab cdp) (extends_ : Extends s t) : t.Opened tab cdp := by
  obtain ⟨older,id,same,in_⟩ := opened
  exact ⟨Nat.lt_of_lt_of_le older extends_.nextTab,id,same,(extends_.openedIn tab older).trans in_⟩

theorem CreationTab.mono (own : CreationTab s k) (extends_ : Extends s t) (creation : t.creation k = s.creation k)
    (for_ : t.creationFor k = s.creationFor k) (calledWith : t.calledWith k = s.calledWith k) : CreationTab t k := by
  refine ⟨creation ▸ own.valid,?_,?_,calledWith ▸ own.inside,fun tab made => ?_⟩
  · rw [for_]
    exact Nat.lt_of_lt_of_le own.known extends_.fresh
  · rw [for_,calledWith,extends_.cdpContextId _ own.known]
    exact own.own
  · rw [calledWith]
    exact (own.made tab (creation ▸ made)).mono extends_

theorem StageTab.mono {stage : TabStage} (own : StageTab s stage) (extends_ : Extends s t)
    (next : s.nextCreation ≤ t.nextCreation) (for_ : ∀ k, k < s.nextCreation → t.creationFor k = s.creationFor k) :
    StageTab t stage := by
  cases stage with
  | out => trivial
  | locked c => exact Nat.lt_of_lt_of_le own extends_.fresh
  | creating c k =>
    obtain ⟨known,older,same⟩ := own
    exact ⟨Nat.lt_of_lt_of_le known extends_.fresh,Nat.lt_of_lt_of_le older next,(for_ k older).trans same⟩
  | ready c => exact ⟨Nat.lt_of_lt_of_le own.1 extends_.fresh,(extends_.cdpContextId c own.1).symm ▸ own.2⟩

/-- The requests' side of the invariant, when they and their calls have not moved. -/
theorem TabInvariant.rest (valid : TabInvariant s) (extends_ : Extends s t) (creation : t.creation = s.creation)
    (for_ : t.creationFor = s.creationFor) (calledWith : t.calledWith = s.calledWith)
    (next : t.nextCreation = s.nextCreation) (stage : t.stage = s.stage) :
    (∀ k, k < t.nextCreation → CreationTab t k) ∧ ∀ i, StageTab t (t.stage i) := by
  refine ⟨fun k older => ?_,fun i => ?_⟩
  · exact (valid.creations k (next ▸ older)).mono extends_ (congrFun creation k) (congrFun for_ k) (congrFun calledWith k)
  · rw [stage]
    exact (valid.stages i).mono extends_ (Nat.le_of_eq next.symm) fun k _ => congrFun for_ k

theorem TabInvariant.setStage (valid : TabInvariant s) (own : StageTab s stage) : TabInvariant (s.setStage i stage) := by
  refine ⟨valid.pool,valid.slots,valid.opened,fun k older => ?_,fun j => ?_⟩
  · obtain ⟨call,known,same,inside,made⟩ := valid.creations k older
    exact ⟨call,known,same,inside,made⟩
  · by_cases same : j = i
    · subst same
      simp only [TabState.setStage,Function.update_self]
      cases stage <;> exact own
    · simp only [TabState.setStage,Function.update_of_ne same]
      have before := valid.stages j
      cases at_ : s.stage j <;> rw [at_] at before <;> exact before

theorem TabInvariant.createTab (valid : TabInvariant s) (known : c < s.pool.pool.fresh)
    (inside : (s.pool.pool.ctx c).cdpContextId.isSome) : TabInvariant (s.createTab i c) := by
  have extends_ : Extends s (s.createTab i c) := ⟨Nat.le_refl _,Nat.le_refl _,fun _ _ => rfl,fun _ _ => rfl⟩
  have for_ : ∀ k, k < s.nextCreation → (s.createTab i c).creationFor k = s.creationFor k := fun k older => by
    simp [TabState.createTab,Nat.ne_of_lt older]
  refine ⟨valid.pool,valid.slots,valid.opened,fun k older => ?_,fun j => ?_⟩
  · by_cases new : k = s.nextCreation
    · subst new
      refine ⟨?_,?_,?_,?_,fun tab made => ?_⟩ <;>
        simp only [TabState.createTab,Function.update_self] at *
      · exact CdpCall.initial_invariant
      · exact known
      · exact inside
      · simp [CdpCall.State.initial] at made
    · have before : k < s.nextCreation := Nat.lt_of_le_of_ne (Nat.le_of_lt_succ older) new
      exact (valid.creations k before).mono extends_ (by simp [TabState.createTab,new]) (for_ k before)
        (by simp [TabState.createTab,new])
  · by_cases same : j = i
    · subst same
      simp [TabState.createTab,StageTab,known]
    · have stage : (s.createTab i c).stage j = s.stage j := by simp [TabState.createTab,same]
      rw [stage]
      exact (valid.stages j).mono extends_ (Nat.le_succ _) for_

theorem TabInvariant.setCreation (valid : TabInvariant s) (stepped : CdpCall.step timeout name (s.creation k) event = some call)
    (silent : call.made = (s.creation k).made ∨ call.made = none) : TabInvariant (s.setCreation k call) := by
  refine ⟨valid.pool,valid.slots,valid.opened,fun l older => ?_,fun i => ?_⟩
  · obtain ⟨running,known,same,inside,made⟩ := valid.creations l older
    by_cases this : l = k
    · subst this
      refine ⟨?_,known,same,inside,?_⟩ <;> simp only [TabState.setCreation,Function.update_self]
      · exact CdpCall.step_invariant _ _ event running stepped
      · intro tab here
        rcases silent with before | nothing
        · exact made tab (before ▸ here)
        · simp [nothing] at here
    · refine ⟨?_,known,same,inside,?_⟩ <;> simp only [TabState.setCreation,Function.update_of_ne this]
      · exact running
      · exact made
  · have before := valid.stages i
    cases at_ : s.stage i <;> rw [at_] at before <;> simp only [TabState.setCreation,at_] <;> exact before

section Follow

variable {s : TabState} {t : State}

theorem follow_openedIn_old (action : Action) (older : tab < s.pool.pool.nextTab) :
    (s.follow action t).openedIn tab = s.openedIn tab := by
  cases action with
  | run i choice =>
    cases half : (s.pool.tasks[i]?).bind Pc.halfway with
    | none => simp [TabState.follow,half]
    | some made =>
      by_cases same : t.pool.nextTab = s.pool.pool.nextTab <;>
        simp [TabState.follow,half,same,Nat.ne_of_lt older]
  | _ => rfl

theorem follow_openedIn_new (at_ : s.pool.tasks[i]? = some pc) (half : pc.halfway = some (j,cdp))
    (grown : t.pool.nextTab = s.pool.pool.nextTab + 1) :
    (s.follow (.run i choice) t).openedIn s.pool.pool.nextTab = cdp := by
  simp [TabState.follow,at_,half,grown]

theorem follow_held_old (action : Action) (older : c < s.pool.pool.fresh) :
    (s.follow action t).held c = s.held c := by
  simp only [TabState.follow]
  split <;> simp [Nat.ne_of_lt older]

theorem follow_held_new (action : Action) (grown : t.pool.fresh = s.pool.pool.fresh + 1) :
    (s.follow action t).held s.pool.pool.fresh = (t.pool.slot s.pool.pool.fresh).tab.toList := by
  simp [TabState.follow,grown,PoolState.slot]

theorem follow_extends (action : Action) (fresh : s.pool.pool.fresh ≤ t.pool.fresh)
    (nextTab : s.pool.pool.nextTab ≤ t.pool.nextTab)
    (cdp : ∀ c, c < s.pool.pool.fresh → (t.pool.ctx c).cdpContextId = (s.pool.pool.ctx c).cdpContextId) :
    Extends s (s.follow action t) :=
  ⟨fresh,nextTab,cdp,fun _ older => follow_openedIn_old action older⟩

end Follow

theorem Slotted.fresh_le (slotted : Slotted cfg p pc pool pc' spawned) : p.fresh ≤ pool.fresh := by
  cases slotted with
  | quiet fresh => exact Nat.le_of_eq fresh.symm
  | context j pipeline at_ pool_ => subst pool_; exact Nat.le_refl _
  | returned j stage slot at_ made fresh => exact Nat.le_of_eq fresh.symm
  | built j slot waits origin fresh => exact fresh ▸ Nat.le_succ _

/-- A step opens at most one tab, the one its thread is half way to. -/
theorem Slotted.nextTab (slotted : Slotted cfg p pc pool pc' spawned) :
    pool.nextTab = p.nextTab ∨ (pool.nextTab = p.nextTab + 1 ∧ ∃ j cdp, pc.halfway = some (j,cdp)) := by
  cases slotted with
  | quiet fresh tabs => exact .inl tabs
  | context j pipeline at_ pool_ => subst pool_; exact .inl rfl
  | returned j stage slot at_ made =>
    rcases made with ⟨_,same⟩ | ⟨cdp,half,⟨_,same⟩ | ⟨_,grown⟩⟩
    · exact .inl same
    · exact .inl same
    · exact .inr ⟨grown,j,cdp,half⟩
  | built j slot waits origin fresh tabs => exact .inl tabs

/-- The thread of a creation opens its tab in the CDP context it made, and the context built
from the slot begins with that tab. -/
theorem follow_sourcing {s : TabState} {t : State} {i : Nat} (valid : TabInvariant s) (at_ : s.pool.tasks[i]? = some pc)
    (extends_ : Extends s (s.follow (.run i choice) t)) :
    Sourcing s.SlotTab (s.follow (.run i choice) t).SlotTab s.ContextTabs (s.follow (.run i choice) t).ContextTabs
      s.pool.pool pc t.pool := by
  have placed : ∀ c slot, c < s.pool.pool.fresh → s.ContextTabs c slot →
      (s.follow (.run i choice) t).ContextTabs c slot := by
    intro c slot older own
    refine ⟨fun tab mine => ?_,fun tab mem => ?_⟩
    · rw [follow_held_old _ older]
      exact own.1 tab mine
    · rw [follow_held_old _ older] at mem
      exact (own.2 tab mem).mono extends_
  refine ⟨fun j slot own tab mine => (own tab mine).mono extends_,fun j tab mine => by simp at mine,
    fun j pipeline _ _ tab mine => by simp at mine,?_,placed,?_,?_⟩
  · intro j cdp half grown _ tab mine
    obtain rfl : s.pool.pool.nextTab = tab := by simpa using mine
    obtain ⟨id,rfl⟩ := Option.isSome_iff_exists.mp (valid.pool.inside i pc j cdp at_ half)
    refine ⟨?_,id,rfl,follow_openedIn_new at_ half grown⟩
    change s.pool.pool.nextTab < t.pool.nextTab
    omega
  · intro c slot older own
    exact ⟨fun tab mine => by simp at mine,(placed c slot older own).2⟩
  · intro j slot waits grown same own
    have held : (s.follow (.run i choice) t).held s.pool.pool.fresh = slot.tab.toList := by
      rw [follow_held_new _ grown,same]
    refine ⟨fun tab mine => by simp [held,mine],fun tab mem => ?_⟩
    have mine : slot.tab = some tab := by simpa [held] using mem
    rcases own with own | rfl
    · exact (own tab mine).mono extends_
    · simp at mine

theorem TabInvariant.follow {s : TabState} {t : State} (isolated : cfg.scope.contextIsolation = .isolated)
    (valid : TabInvariant s) (taken : step cfg s.pool action = some t) : TabInvariant (s.follow action t) := by
  have pool := valid.pool.step isolated taken
  have still : t.pool.ctx = s.pool.pool.ctx → t.pool.fresh = s.pool.pool.fresh → t.pool.nextTab = s.pool.pool.nextTab →
      Sourced s.SlotTab s.ContextTabs t → TabInvariant (s.follow action t) := by
    intro ctx fresh nextTab sourced
    have extends_ : Extends s (s.follow action t) :=
      follow_extends action (Nat.le_of_eq fresh.symm) (Nat.le_of_eq nextTab.symm) (fun c _ => by rw [ctx])
    obtain ⟨creations,stages⟩ := valid.rest extends_ rfl rfl rfl rfl rfl
    refine ⟨pool,⟨?_,?_,fun c known => ?_⟩,fun tab older => ?_,creations,stages⟩
    · exact fun j slot mem tab mine => (sourced.values j slot mem tab mine).mono extends_
    · exact fun i pc j cdp at_ half tab mine => (sourced.halfway i pc j cdp at_ half tab mine).mono extends_
    · have own := sourced.contexts c known
      have older : c < s.pool.pool.fresh := fresh ▸ known
      refine ⟨fun tab mine => ?_,fun tab mem => ?_⟩
      · rw [follow_held_old _ older]
        exact own.1 tab mine
      · rw [follow_held_old _ older] at mem
        exact (own.2 tab mem).mono extends_
    · have before : tab < s.pool.pool.nextTab := nextTab ▸ older
      rw [follow_openedIn_old _ before]
      exact valid.opened tab before
  rcases step_cases taken with ⟨_,_,rfl⟩ | ⟨pc,arrives,rfl⟩ | ⟨i,choice,pc,q,pc',spawned,rfl,at_,moved,rfl⟩ |
    ⟨i,pc,q,pc',_,at_,dropped,rfl⟩
  · exact still rfl rfl rfl ⟨valid.slots.values,valid.slots.halfway,valid.slots.contexts⟩
  · have stranger : pc.halfway = none := by
      rcases arrival_cases arrives with ⟨_,rfl⟩ | ⟨_,rfl⟩ | ⟨_,rfl⟩ <;> rfl
    exact still rfl rfl rfl (valid.slots.arrive stranger)
  · have slotted : Slotted cfg s.pool.pool pc q pc' spawned := next_slotted valid.pool.calls.valid moved
    have opens := slotted.nextTab
    have extends_ := follow_extends (s := s) (t := ⟨q,s.pool.tasks.set i pc' ++ spawned⟩) (.run i choice)
      slotted.fresh_le (by rcases opens with same | ⟨grown,_⟩ <;> simp only <;> omega)
      (fun c known => (slotted.cdpContextId known).1)
    obtain ⟨creations,stages⟩ := valid.rest extends_ rfl rfl rfl rfl rfl
    refine ⟨pool,valid.slots.move at_ slotted (follow_sourcing valid at_ extends_),fun tab older => ?_,creations,stages⟩
    by_cases before : tab < s.pool.pool.nextTab
    · rw [follow_openedIn_old _ before]
      exact valid.opened tab before
    · change tab < q.nextTab at older
      rcases opens with same | ⟨grown,j,cdp,half⟩
      · omega
      · obtain rfl : tab = s.pool.pool.nextTab := by omega
        rw [follow_openedIn_new at_ half grown]
        exact valid.pool.inside i pc j cdp at_ half
  · obtain ⟨slotted,ctx,fresh,_,nextTab⟩ : Slotted cfg s.pool.pool pc q pc' [] ∧ _ :=
      cancelled_slotted valid.pool.calls.valid dropped
    apply still ctx fresh nextTab
    have sourcing : Sourcing s.SlotTab s.SlotTab s.ContextTabs s.ContextTabs s.pool.pool pc q :=
      ⟨fun _ _ own => own,fun j tab mine => by simp at mine,fun j pipeline _ _ tab mine => by simp at mine,
        fun j cdp half grown _ => absurd (nextTab.symm.trans grown) (Nat.succ_ne_self _).symm,fun _ _ _ own => own,
        fun c slot _ own => ⟨fun tab mine => by simp at mine,own.2⟩,
        fun j slot waits grown => absurd (fresh.symm.trans grown) (Nat.succ_ne_self _).symm⟩
    simpa using valid.slots.move at_ slotted sourcing

/-- Tabs leave their contexts, or one a context has held before comes back. -/
theorem TabInvariant.setPool {q : PoolState} (valid : TabInvariant s) (same : Retabbed s.pool.pool q)
    (nextTab : q.nextTab = s.pool.pool.nextTab)
    (tabs : ∀ c tab, c < s.pool.pool.fresh → (q.ctx c).tab = some tab → tab ∈ s.held c) : TabInvariant (s.setPool q) := by
  have extends_ : Extends s (s.setPool q) :=
    ⟨Nat.le_of_eq same.fresh.symm,Nat.le_of_eq nextTab.symm,fun c _ => same.cdpContextId c,fun _ _ => rfl⟩
  obtain ⟨creations,stages⟩ := valid.rest extends_ rfl rfl rfl rfl rfl
  refine ⟨valid.pool.retab same,?_,fun tab older => valid.opened tab (nextTab ▸ older),creations,stages⟩
  refine valid.slots.retab same.calls (fun j slot own tab mine => (own tab mine).mono extends_) fun c known => ?_
  have older : c < s.pool.pool.fresh := same.fresh ▸ known
  refine ⟨fun tab mine => tabs c tab older mine,fun tab mem => ?_⟩
  have before := ((valid.slots.contexts c older).2 tab mem).mono extends_
  simpa only [PoolState.slot,same.cdpContextId] using before

theorem TabInvariant.hold (valid : TabInvariant s) (opened : s.Opened tab (s.pool.pool.ctx c).cdpContextId) :
    TabInvariant { s with held := Function.update s.held c (s.held c ++ [tab]) } := by
  have extends_ : Extends s { s with held := Function.update s.held c (s.held c ++ [tab]) } :=
    ⟨Nat.le_refl _,Nat.le_refl _,fun _ _ => rfl,fun _ _ => rfl⟩
  obtain ⟨creations,stages⟩ := valid.rest extends_ rfl rfl rfl rfl rfl
  refine ⟨valid.pool,?_,valid.opened,creations,stages⟩
  refine valid.slots.retab rfl (fun j slot own tab mine => (own tab mine).mono extends_) fun d known => ?_
  obtain ⟨present,former⟩ := valid.slots.contexts d known
  by_cases same : d = c
  · subst same
    refine ⟨fun tab mine => ?_,fun tab mem => ?_⟩
    · simp [present tab mine]
    · rcases (by simpa using mem) with before | rfl
      · exact (former tab before).mono extends_
      · exact opened.mono extends_
  · refine ⟨fun tab mine => ?_,fun tab mem => ?_⟩
    · simpa [same] using present tab mine
    · exact (former tab (by simpa [same] using mem)).mono extends_

/-- The thread of a `create_tab` opens the tab in the CDP context it was called with. -/
theorem TabInvariant.openTab (valid : TabInvariant s) (known : k < s.nextCreation)
    (stepped : CdpCall.step timeout name (s.creation k) (.closureReturns (.ok s.pool.pool.nextTab)) = some call) :
    TabInvariant { (s.setCreation k call).setPool { s.pool.pool with nextTab := s.pool.pool.nextTab + 1 } with
      openedIn := Function.update s.openedIn s.pool.pool.nextTab (s.calledWith k) } := by
  have extends_ : Extends s
      { (s.setCreation k call).setPool { s.pool.pool with nextTab := s.pool.pool.nextTab + 1 } with
        openedIn := Function.update s.openedIn s.pool.pool.nextTab (s.calledWith k) } :=
    ⟨Nat.le_refl _,Nat.le_succ _,fun _ _ => rfl,fun tab older => Function.update_of_ne (Nat.ne_of_lt older) _ _⟩
  have own := valid.creations k known
  refine ⟨valid.pool.retab ⟨rfl,rfl,rfl,rfl,rfl,fun _ => rfl,fun _ => rfl⟩,?_,fun tab older => ?_,fun l older => ?_,
    fun i => (valid.stages i).mono extends_ (Nat.le_refl _) fun _ _ => rfl⟩
  · refine valid.slots.retab rfl (fun j slot own tab mine => (own tab mine).mono extends_) fun c known => ?_
    obtain ⟨present,former⟩ := valid.slots.contexts c known
    exact ⟨present,fun tab mem => (former tab mem).mono extends_⟩
  · by_cases new : tab = s.pool.pool.nextTab
    · subst new
      simpa using own.inside
    · simp only [Function.update_of_ne new]
      exact valid.opened tab (Nat.lt_of_le_of_ne (Nat.le_of_lt_succ older) new)
  · by_cases this : l = k
    · subst this
      refine ⟨?_,own.known,own.own,own.inside,fun tab made => ?_⟩
      · simp only [TabState.setPool,TabState.setCreation,Function.update_self]
        exact CdpCall.step_invariant _ _ _ own.valid stepped
      · simp only [TabState.setPool,TabState.setCreation,Function.update_self] at made
        rcases CdpCall.step_made stepped with before | ⟨result,returns,now⟩
        · exact (own.made tab (before ▸ made)).mono extends_
        · obtain rfl : .ok s.pool.pool.nextTab = result := by simpa using returns
          obtain rfl : s.pool.pool.nextTab = tab := by simpa [now,CdpCall.produced] using made
          obtain ⟨id,same⟩ := Option.isSome_iff_exists.mp own.inside
          exact ⟨Nat.lt_succ_self _,id,same,by simp [same]⟩
    · exact (valid.creations l older).mono extends_ (by simp [TabState.setPool,TabState.setCreation,this]) rfl rfl

theorem setTab_retabbed (p : PoolState) (c : ContextId) (tab : Option Nat) (disposed : List Resource) :
    Retabbed p { setTab p c tab with disposed := disposed } := by
  refine ⟨rfl,rfl,rfl,rfl,rfl,fun d => ?_,fun d => ?_⟩
  · exact PoolState.modify_isBusy p c d (fun context => { context with tab := tab }) rfl
  by_cases same : d = c
  · subst same
    simp [setTab,PoolState.modify]
  · simp [setTab,PoolState.modify,same]

theorem setTab_tab (p : PoolState) (c d : ContextId) (tab : Option Nat) :
    ((setTab p c tab).ctx d).tab = if d = c then tab else (p.ctx d).tab := by
  by_cases same : d = c
  · subst same
    simp [setTab,PoolState.modify]
  · simp [setTab,PoolState.modify,same]

/-- A context with a tab has a CDP context. -/
theorem TabInvariant.inside (valid : TabInvariant s) (known : c < s.pool.pool.fresh)
    (has : (s.pool.pool.ctx c).tab = some tab) : (s.pool.pool.ctx c).cdpContextId.isSome := by
  obtain ⟨present,former⟩ := valid.slots.contexts c known
  obtain ⟨_,id,same,_⟩ := former tab (present tab has)
  exact Option.isSome_iff_exists.mpr ⟨id,same⟩

/-- A request puts a tab into the context it was created for. -/
theorem TabInvariant.adopt (valid : TabInvariant s) (known : c < s.pool.pool.fresh)
    (opened : s.Opened tab (s.pool.pool.ctx c).cdpContextId) :
    TabInvariant { (s.setPool (setTab s.pool.pool c (some tab))).setStage i (.ready c) with
      held := Function.update s.held c (s.held c ++ [tab]) } := by
  have same := setTab_retabbed s.pool.pool c (some tab) s.pool.pool.disposed
  have moved : TabInvariant (({ s with held := Function.update s.held c (s.held c ++ [tab]) } : TabState).setPool
      (setTab s.pool.pool c (some tab))) := by
    refine (valid.hold opened).setPool same rfl fun d other older has => ?_
    rw [setTab_tab] at has
    by_cases here : d = c
    · subst here
      obtain rfl : tab = other := by simpa using has
      simp
    · have before := (valid.slots.contexts d older).1 other (by simpa [here,PoolState.slot] using has)
      simpa [here] using before
  have inside : ((setTab s.pool.pool c (some tab)).ctx c).cdpContextId.isSome := by
    obtain ⟨_,id,own,_⟩ := opened
    exact Option.isSome_iff_exists.mpr ⟨id,(same.cdpContextId c).trans own⟩
  exact moved.setStage ⟨known,inside⟩

theorem made_of_returned {call : CdpCall.State Nat Unit} (valid : CdpCall.Invariant call)
    (returned : call.caller = .returned (.ok tab)) : call.made = some tab := by
  have mem : tab ∈ CdpCall.held call := by simp [CdpCall.held,CdpCall.Caller.value,returned]
  rcases valid.lost with lost | whole
  · simp [lost] at mem
  · rw [whole] at mem
    simpa using mem

theorem TabInvariant.creationStep {t : TabState} (valid : TabInvariant s) (taken : s.creationStep k event = some t) :
    TabInvariant t := by
  simp only [TabState.creationStep] at taken
  split at taken
  · contradiction
  · next known =>
    obtain ⟨call,stepped,moved⟩ := Option.bind_eq_some_iff.mp taken
    have made := CdpCall.step_made stepped
    split at moved
    · split at moved
      · next same =>
        subst same
        obtain rfl := Option.some.inj moved
        exact valid.openTab (Nat.lt_of_not_le known) stepped
      · contradiction
    · split at moved
      · obtain rfl := Option.some.inj moved
        exact (valid.setCreation stepped (.inl (made.resolve_right (by simp)))).setPool
          ⟨rfl,rfl,rfl,rfl,rfl,fun _ => rfl,fun _ => rfl⟩ rfl
          fun c tab older has => (valid.slots.contexts c older).1 tab has
      · contradiction
    · contradiction
    · next silent _ _ =>
      obtain rfl := Option.some.inj moved
      refine valid.setCreation stepped (made.imp_right fun ⟨result,returns,now⟩ => ?_)
      cases result with
      | error e => exact now
      | ok tab => exact absurd returns (silent tab)

theorem TabInvariant.dropFuture {t : TabState} (valid : TabInvariant s) (taken : s.dropFuture i = some t) :
    TabInvariant t := by
  simp only [TabState.dropFuture] at taken
  split at taken
  · obtain ⟨call,stepped,rfl⟩ := Option.map_eq_some_iff.mp taken
    have made := (CdpCall.step_made stepped).resolve_right (by simp)
    exact (valid.setCreation stepped (.inl made)).setStage trivial
  · obtain rfl := Option.some.inj taken
    exact valid.setStage trivial

theorem TabInvariant.step {s t : TabState} (isolated : cfg.scope.contextIsolation = .isolated) (valid : TabInvariant s)
    (taken : tabStep cfg s action = some t) : TabInvariant t := by
  cases action with
  | pool action =>
    simp only [tabStep] at taken
    split at taken
    · obtain ⟨q,stepped,moved⟩ := Option.bind_eq_some_iff.mp taken
      have followed := valid.follow isolated stepped
      split at moved
      · exact followed.dropFuture moved
      · obtain rfl := Option.some.inj moved
        exact followed
    · contradiction
  | lock i =>
    simp only [tabStep] at taken
    split at taken
    · next c at_ _ =>
      split at taken
      · obtain rfl := Option.some.inj taken
        exact valid.setStage (valid.pool.leases.mentioned i _ at_ c (by simp [Pc.mentions]))
      · contradiction
    · contradiction
  | look i =>
    simp only [tabStep] at taken
    split at taken
    · next c stage =>
      have known : c < s.pool.pool.fresh := by simpa [StageTab,stage] using valid.stages i
      split at taken
      · next has =>
        obtain rfl := Option.some.inj taken
        exact valid.setStage ⟨known,valid.inside known has⟩
      · obtain ⟨q,stepped,rfl⟩ := Option.map_eq_some_iff.mp taken
        exact (valid.follow isolated stepped).setStage trivial
      · next cdp _ own =>
        obtain rfl := Option.some.inj taken
        apply valid.createTab known
        cases lost : (s.pool.pool.ctx c).cdpContextId with
        | none => exact (own lost isolated).elim
        | some id => rfl
    · contradiction
  | recreate i =>
    simp only [tabStep] at taken
    split at taken
    · next c stage =>
      obtain rfl := Option.some.inj taken
      have own : StageTab s (.ready c) := stage ▸ valid.stages i
      exact valid.createTab own.1 own.2
    · contradiction
  | creation k event => exact valid.creationStep taken
  | adopt i =>
    simp only [tabStep] at taken
    split at taken
    · next c k stage =>
      split at taken
      · next tab returned =>
        obtain rfl := Option.some.inj taken
        have own : StageTab s (.creating c k) := stage ▸ valid.stages i
        obtain ⟨known,older,rfl⟩ := own
        have creation := valid.creations k older
        have opened := creation.made tab (made_of_returned creation.valid returned)
        rw [creation.own] at opened
        exact valid.adopt known opened
      · contradiction
    · contradiction
  | giveUp i =>
    simp only [tabStep] at taken
    split at taken
    · split at taken
      · obtain rfl := Option.some.inj taken
        exact valid.setStage trivial
      · contradiction
    · contradiction
  | unlock i =>
    simp only [tabStep] at taken
    split at taken
    · obtain rfl := Option.some.inj taken
      exact valid.setStage trivial
    · obtain rfl := Option.some.inj taken
      exact valid.setStage trivial
    · contradiction
  | closeTab i =>
    simp only [tabStep] at taken
    split at taken
    · next c at_ =>
      split at taken
      · obtain rfl := Option.some.inj taken
        refine valid.setPool (setTab_retabbed _ c none _) rfl fun d tab known has => ?_
        change ((setTab s.pool.pool c none).ctx d).tab = some tab at has
        rw [setTab_tab] at has
        split at has
        · contradiction
        · exact (valid.slots.contexts d known).1 tab has
      · contradiction
    · contradiction

theorem TabInvariant.initial (isolated : cfg.scope.contextIsolation = .isolated) : TabInvariant (tabs cfg).initial := by
  have slot : ∀ c, initialSlot cfg c = ⟨some c,some c⟩ := fun c => by simp [initialSlot,isolated]
  have populated := initial_populated cfg
  refine ⟨.initial,Sourced.initial fun c known => ?_,fun tab _ => ?_,fun k older => absurd older (Nat.not_lt_zero k),
    fun _ => trivial⟩
  · have opened : (tabs cfg).initial.Opened c (some c) := by
      refine ⟨?_,c,rfl,?_⟩
      · change c < (Pool.initial cfg).pool.nextTab
        rw [populated.tabs]
        exact known
      · change (initialSlot cfg c).cdpContextId = some c
        rw [slot]
    have held : (tabs cfg).initial.held c = [c] := by
      change (initialSlot cfg c).tab.toList = [c]
      rw [slot]
      rfl
    rw [slot]
    exact ⟨fun tab mine => by simpa [held] using mine.symm,fun tab mem => by
      obtain rfl : tab = c := by simpa [held] using mem
      exact opened⟩
  · change ((initialSlot cfg tab).cdpContextId).isSome
    rw [slot]
    rfl

/-- No tab outside the CDP context of its own slot. The contexts ever built are those with
an id below `fresh`. -/
structure TabsIsolated (s : TabState) : Prop where
  /-- Every tab a context holds or has held was opened in the context's own CDP context. -/
  own : ∀ c tab, c < s.pool.pool.fresh → (s.pool.pool.ctx c).tab = some tab ∨ tab ∈ s.held c →
    ∃ id, (s.pool.pool.ctx c).cdpContextId = some id ∧ s.openedIn tab = some id
  inside : ∀ c, c < s.pool.pool.fresh → (s.pool.pool.ctx c).tab.isSome → (s.pool.pool.ctx c).cdpContextId.isSome
  distinct : ∀ c d id, c < s.pool.pool.fresh → d < s.pool.pool.fresh → (s.pool.pool.ctx c).cdpContextId = some id →
    (s.pool.pool.ctx d).cdpContextId = some id → c = d
  /-- What a `create_tab` opens for a context, adopted or not, is in that context's. -/
  created : ∀ k tab, k < s.nextCreation → (s.creation k).made = some tab →
    s.openedIn tab = (s.pool.pool.ctx (s.creationFor k)).cdpContextId
  /-- No tab was ever opened in Chrome's default context. -/
  opened : ∀ tab, tab < s.pool.pool.nextTab → (s.openedIn tab).isSome

theorem TabInvariant.isolated (valid : TabInvariant s) : TabsIsolated s := by
  obtain ⟨o,traced⟩ := valid.pool.traced
  refine ⟨fun c tab known holds => ?_,fun c known has => ?_,fun c d id hc hd mine yours => ?_,fun k tab older made => ?_,
    valid.opened⟩
  · obtain ⟨present,former⟩ := valid.slots.contexts c known
    obtain ⟨_,id,same,in_⟩ := former tab (holds.elim (present tab) fun mem => mem)
    exact ⟨id,same,in_⟩
  · obtain ⟨tab,mine⟩ := Option.isSome_iff_exists.mp has
    exact valid.inside known mine
  · exact traced.distinct hc hd mine yours
  · have creation := valid.creations k older
    obtain ⟨_,id,same,in_⟩ := creation.made tab made
    rw [in_,← creation.own,same]

/-- In every run of an isolated pool and of the requests that create tabs in it, with any
call failing, stalling or being dropped: every tab a context ever holds was opened in the
CDP context of that slot, which no other slot shares, and none in the default context. -/
theorem isolated_tabs (cfg : Config) (isolated : cfg.scope.contextIsolation = .isolated) (s : TabState)
    (run : (tabs cfg).Reachable s) : TabsIsolated s :=
  (run.invariant (TabInvariant.initial isolated) fun _ _ _ _ valid taken => valid.step isolated taken).isolated

def recreatedTab : List TabAction :=
  (firstRequest .createDedicatedContext).map .pool ++
    [.lock 1,.look 1,.recreate 1,.creation 0 (.closureReturns (.ok 1)),.creation 0 .send,.creation 0 .poll,.adopt 1]

theorem isolated_tabs_recreated :
    ∃ s, (tabs (Config.small .dedicated)).exec recreatedTab (tabs (Config.small .dedicated)).initial = some s ∧
      s.held 0 = [0,1] ∧ (s.pool.pool.ctx 0).tab = some 1 ∧ TabsIsolated s := by
  obtain ⟨s,ran,held,tab⟩ : ∃ s, (tabs (Config.small .dedicated)).exec recreatedTab
      (tabs (Config.small .dedicated)).initial = some s ∧ s.held 0 = [0,1] ∧ (s.pool.pool.ctx 0).tab = some 1 :=
    ⟨_,rfl,rfl,rfl⟩
  exact ⟨s,ran,held,tab,isolated_tabs _ rfl s (Machine.reachable_of_exec ran)⟩

end BrowserHive.Pool
