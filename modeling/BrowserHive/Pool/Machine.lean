import BrowserHive.Lib.Transition
import BrowserHive.Pool.State

/-! The steps of a pool's tasks. One step is what a task does between two points where
another task can interfere: a lock acquisition, an atomic operation on a busy flag, a
read of one context, an await. A section under the write lock of `contexts` that reads
no flag is one step. -/
namespace BrowserHive.Pool

open BrowserHive Transition

inductive Choice where
  | go
  | fail
  | touch
  | block (origin : String)
  | destroy
  | finish
  | poll
  | elapse
  | close
  | tryRecv
  | tabLockTimeout
  deriving DecidableEq, Repr

abbrev Next := Option (PoolState × Pc × List Pc)

def createCall : String := "Target.createBrowserContext/createTarget"
def recycleCall : String := "recycle Target.createBrowserContext/createTarget"

def Choice.event : Choice → Option (CdpCall.Event Slot Unit)
  | .poll => some .poll
  | .elapse => some .elapse
  | .close => some .close
  | .tryRecv => some .tryRecv
  | _ => none

def stepCall (name : String) (p : PoolState) (j : Nat) (event : CdpCall.Event Slot Unit) : Option PoolState :=
  (CdpCall.step CdpCall.callTimeout name (p.calls j) event).map (p.setCall j)

def awaitCall (name : String) (p : PoolState) (j : Nat) (choice : Choice) (pc : Pc) : Next :=
  choice.event.bind fun event => (stepCall name p j event).map fun p => (p,pc,[])

/-- The closure's result reaches the thread of its call. -/
def returnSlot (p : PoolState) (j : Nat) (result : Except Unit Slot) : Next :=
  (stepCall createCall p j (.closureReturns result)).map fun p => (p,.answering j,[])

/-- `bounded_with_cleanup`: a blocking thread, and a fresh call to wait for. -/
def spawnCall (p : PoolState) : PoolState :=
  { p.setCall p.nextCall CdpCall.State.initial with nextCall := p.nextCall + 1 }

/-- The first stage of `SlotFactory::build` and `create`. -/
def firstStage (cfg : Config) (pipeline : Pipeline) : Closure :=
  match cfg.scope.contextIsolation with
  | .isolated => .cdpContext pipeline
  | .shared => .newTab pipeline none

def reserve (p : PoolState) : PoolState := { p with pendingCreations := p.pendingCreations + 1 }

def unreserve (p : PoolState) : PoolState := { p with pendingCreations := p.pendingCreations - 1 }

@[simp] theorem spawnCall_contexts (p : PoolState) : (spawnCall p).contexts = p.contexts := rfl
@[simp] theorem spawnCall_pending (p : PoolState) : (spawnCall p).pendingCreations = p.pendingCreations := rfl
@[simp] theorem spawnCall_fresh (p : PoolState) : (spawnCall p).fresh = p.fresh := rfl
@[simp] theorem spawnCall_ctx (p : PoolState) : (spawnCall p).ctx = p.ctx := rfl
@[simp] theorem spawnCall_isBusy (p : PoolState) : (spawnCall p).isBusy c = p.isBusy c := rfl
@[simp] theorem reserve_isBusy (p : PoolState) : (reserve p).isBusy c = p.isBusy c := rfl
@[simp] theorem unreserve_isBusy (p : PoolState) : (unreserve p).isBusy c = p.isBusy c := rfl
@[simp] theorem reserve_contexts (p : PoolState) : (reserve p).contexts = p.contexts := rfl
@[simp] theorem reserve_pending (p : PoolState) : (reserve p).pendingCreations = p.pendingCreations + 1 := rfl
@[simp] theorem reserve_fresh (p : PoolState) : (reserve p).fresh = p.fresh := rfl
@[simp] theorem reserve_ctx (p : PoolState) : (reserve p).ctx = p.ctx := rfl
@[simp] theorem unreserve_contexts (p : PoolState) : (unreserve p).contexts = p.contexts := rfl
@[simp] theorem unreserve_pending (p : PoolState) : (unreserve p).pendingCreations = p.pendingCreations - 1 := rfl
@[simp] theorem unreserve_fresh (p : PoolState) : (unreserve p).fresh = p.fresh := rfl
@[simp] theorem unreserve_ctx (p : PoolState) : (unreserve p).ctx = p.ctx := rfl

theorem stepCall_cases (taken : stepCall name p j event = some pool) :
    ∃ call, CdpCall.step CdpCall.callTimeout name (p.calls j) event = some call ∧ pool = p.setCall j call := by
  obtain ⟨call,stepped,rfl⟩ := Option.map_eq_some_iff.mp taken
  exact ⟨call,stepped,rfl⟩

theorem awaitCall_cases (moved : awaitCall name p j choice pc = some (pool,pc',spawned)) :
    ∃ event call, choice.event = some event ∧
      CdpCall.step CdpCall.callTimeout name (p.calls j) event = some call ∧
      pool = p.setCall j call ∧ pc' = pc ∧ spawned = [] := by
  obtain ⟨event,chosen,called⟩ := Option.bind_eq_some_iff.mp moved
  obtain ⟨_,stepped,same⟩ := Option.map_eq_some_iff.mp called
  obtain ⟨call,taken,rfl⟩ := stepCall_cases stepped
  obtain ⟨rfl,rfl,rfl⟩ := by simpa using same
  exact ⟨event,call,chosen,taken,rfl,rfl,rfl⟩

theorem returnSlot_cases (moved : returnSlot p j result = some (pool,pc',spawned)) :
    ∃ call, CdpCall.step CdpCall.callTimeout createCall (p.calls j) (.closureReturns result) = some call ∧
      pool = p.setCall j call ∧ pc' = .answering j ∧ spawned = [] := by
  obtain ⟨_,stepped,same⟩ := Option.map_eq_some_iff.mp moved
  obtain ⟨call,taken,rfl⟩ := stepCall_cases stepped
  obtain ⟨rfl,rfl,rfl⟩ := by simpa using same
  exact ⟨call,taken,rfl,rfl,rfl⟩

/-- The monitor's tick, up to the calls it makes and the contexts it releases. -/
def monitorNext (cfg : Config) (p : PoolState) (tasks : List Pc) (choice : Choice) : Pc → Next
  | .sleeping =>
    if canWrite tasks then
      match cfg.scope.sessionMode with
      | .alwaysNew => some (p,.purging .monitor p.contexts [] [],[])
      | .dedicated => some (p,.draining p.contexts [] [],[])
      | .reusable => some (p,.picking p.contexts [],[])
    else none
  | .draining (c :: todo) alive expired =>
    if p.isBusy c then some (p,.draining todo (alive ++ [c]) expired,[])
    else some (p,.judging todo alive expired c,[])
  | .draining [] alive expired => some ({ p with contexts := alive },.releasing expired .sleep,[])
  | .judging todo alive expired c =>
    if shouldRecycleContext (p.ctx c) cfg.scope.lifecycle p.now then
      some (p,.draining todo alive (expired ++ [c]),[])
    else some (p,.draining todo (alive ++ [c]) expired,[])
  | .picking (c :: todo) claimed =>
    if shouldRecycleContext (p.ctx c) cfg.scope.lifecycle p.now then
      some (p,.pickingExpired todo claimed c,[])
    else some (p,.picking todo claimed,[])
  | .picking [] claimed => some (p,.recycling claimed,[])
  | .pickingExpired todo claimed c =>
    if p.isBusy c then some (p,.picking todo claimed,[])
    else some (p.setBusy c true,.picking todo (claimed ++ [c]),[])
  | .recycling (old :: todo) =>
    some (spawnCall (p.release cfg old),.rebuilding p.nextCall old todo,
      [.closure p.nextCall (firstStage cfg .create)])
  | .recycling [] => some (p,.sleeping,[])
  | .rebuilding j old todo =>
    match (p.calls j).caller with
    | .returned (.ok slot) => some (p.addContext slot false,.swapping p.fresh old todo,[])
    | .returned (.error _) => some (p.addContext ⟨none,none⟩ false,.swapping p.fresh old todo,[])
    | _ => awaitCall recycleCall p j choice (.rebuilding j old todo)
  | .swapping new old todo =>
    if canWrite tasks then
      if old ∈ p.contexts then
        some ({ p with
            contexts := p.contexts.set (p.contexts.idxOf old) new
            totalContextsRecycled := p.totalContextsRecycled + 1
            totalContextsCreated := p.totalContextsCreated + 1 },
          .recycling todo,[])
      else some (p,.releasing [new] (.recycle todo),[])
    else none
  | _ => none

/-- `reclaim_leaked_always_new_contexts`, for the monitor and for the request path, and
what follows it. -/
def purgeNext (cfg : Config) (p : PoolState) : Pc → Next
  | .purging sweeper (c :: todo) kept leaked =>
    if p.isBusy c then some (p,.purging sweeper todo (kept ++ [c]) leaked,[])
    else some (p,.purging sweeper todo kept (leaked ++ [c]),[])
  | .purging .monitor [] kept leaked => some ({ p with contexts := kept },.releasing leaked .sleep,[])
  | .purging .request [] kept leaked =>
    if ({ p with contexts := kept } : PoolState).occupiedSlots < cfg.scope.maxContexts then
      some (reserve { p with contexts := kept },.releasing leaked .build,[])
    else some ({ p with contexts := kept },.releasing leaked .refuse,[])
  | _ => none

/-- `get_or_create_context`, `create_dedicated_context`, `create_always_new_context`. -/
def acquireNext (cfg : Config) (p : PoolState) (tasks : List Pc) : Pc → Next
  | .acquiring (.getOrCreateContext lookup) =>
    if lookup.params.requiresDedicatedContext then some (p,.wantWrite lookup,[])
    else if canRead tasks then
      some (p,.selecting .read (.leastUsed lookup.origin) p.contexts [] lookup,[])
    else none
  | .acquiring .createDedicatedContext =>
    if canWrite tasks then
      if p.occupiedSlots ≥ cfg.scope.maxContexts then some (p,.finished,[])
      else some (reserve p,.building,[])
    else none
  | .acquiring .createAlwaysNewContext =>
    if canWrite tasks then some (p,.purging .request p.contexts [] [],[]) else none
  | .selecting access selection (c :: todo) found lookup =>
    if selection.admits cfg.scope.lifecycle p.now (p.ctx c) then
      some (p,.selecting access selection todo (found ++ [c]) lookup,[])
    else some (p,.selecting access selection todo found lookup,[])
  | .selecting access selection [] found lookup =>
    some (p,.claiming access selection (selection.sort p.now p.ctx found) lookup,[])
  | .claiming access selection (c :: candidates) lookup =>
    -- `try_claim`; a candidate lost to another claim is skipped for the next one
    if p.isBusy c then some (p,.claiming access selection candidates lookup,[])
    else match access, selection with
      | .write, .usedUp => some (p.setBusy c true,.replacing c,[])
      | _, _ => some (p.setBusy c true,.handover c,[])
  | .claiming .read _ [] lookup => some (p,.wantWrite lookup,[])
  | .claiming .write (.leastUsed _) [] lookup => some (p,.atCapacity lookup,[])
  | .claiming .write .usedUp [] lookup =>
    match lookup.origin with
    | some origin =>
      if lookup.params.requiresDedicatedContext then some (p,.finished,[])
      else some (p,.selecting .write (.soonestUnquarantined origin) p.contexts [] lookup,[])
    | none => some (p,.finished,[])
  | .claiming .write (.soonestUnquarantined _) [] _ => some (p,.finished,[])
  | .wantWrite lookup =>
    if canWrite tasks then
      if lookup.params.requiresDedicatedContext then some (p,.atCapacity lookup,[])
      else some (p,.selecting .write (.leastUsed lookup.origin) p.contexts [] lookup,[])
    else none
  | .atCapacity lookup =>
    if p.occupiedSlots < cfg.scope.maxContexts then some (reserve p,.building,[])
    else some (p,.selecting .write .usedUp p.contexts [] lookup,[])
  | .replacing c =>
    -- removal and reservation in one critical section
    some (reserve { p with contexts := p.contexts.filter (· ≠ c) },.releasing [c] .replace,[])
  | _ => none

/-- `create_new_context` and `build_reserved_context`. -/
def buildNext (cfg : Config) (p : PoolState) (tasks : List Pc) (choice : Choice) : Pc → Next
  | .building =>
    some (spawnCall p,.waiting p.nextCall,[.closure p.nextCall (firstStage cfg .build)])
  | .waiting j =>
    match (p.calls j).caller with
    | .returned (.ok slot) =>
      some ({ p.addContext slot true with totalContextsCreated := p.totalContextsCreated + 1 },
        .pushing p.fresh,[])
    | .returned (.error _) => some (unreserve p,.finished,[])
    | _ => awaitCall createCall p j choice (.waiting j)
  | .pushing c =>
    if canWrite tasks then
      some (unreserve { p with contexts := p.contexts ++ [c] },.handover c,[])
    else none
  | .handover c => some (p,.serving c,[])
  | _ => none

/-- `find_context_by_id`, `end_session_if_used_up` and the busy compare-exchange of a
session continuation. -/
def sessionNext (cfg : Config) (p : PoolState) (tasks : List Pc) : Pc → Next
  | .session c =>
    if canRead tasks then
      if c ∈ p.contexts then some (p,.found c,[]) else some (p,.finished,[])
    else none
  | .found c =>
    if (p.ctx c).isUsedUp cfg.scope.lifecycle p.now then some (p,.ending c,[])
    else some (p,.continuing c,[])
  | .ending c =>
    if canWrite tasks then
      if c ∉ p.contexts ∨ p.isBusy c then some (p,.continuing c,[])
      else some ({ p.setBusy c true with contexts := p.contexts.erase c },
        .releasing [c] .sessionEnded,[])
    else none
  | .continuing c =>
    if p.isBusy c then some (p,.finished,[]) else some (p.setBusy c true,.serving c,[])
  | _ => none

/-- `destroy_context`: everything with this id leaves the pool and is released. -/
def removeContext (p : PoolState) (c : ContextId) : PoolState × List ContextId :=
  ({ p with contexts := p.contexts.filter (· ≠ c) },p.contexts.filter (· = c))

/-- A request under its busy guard, the guard's drop, and the cleanup task of `AlwaysNew`. -/
def serveNext (cfg : Config) (p : PoolState) (tasks : List Pc) (choice : Choice) : Pc → Next
  | .serving c =>
    match choice with
    | .touch =>
      some (p.modify c (fun context =>
        { context with lastUsedAt := p.now, totalRequests := context.totalRequests + 1 }),.serving c,[])
    | .block origin =>
      some (p.modify c (fun context =>
        context.quarantineOrigin p.now origin cfg.scope.blockQuarantine),.serving c,[])
    | .destroy => some (p,.destroying c,[])
    | .finish => some (p,.stamping c,[])
    | _ => none
  | .destroying c =>
    if canWrite tasks then
      some ((removeContext p c).1,.releasing (removeContext p c).2 (.serve c),[])
    else none
  | .stamping c =>
    some (p.modify c (fun context => { context with lastUsedAt := p.now }),.clearing c,[])
  | .clearing c =>
    match cfg.scope.sessionMode with
    | .alwaysNew => some (p.setBusy c false,.finished,[.destroy c])
    | _ => some (p.setBusy c false,.finished,[])
  | .destroy c =>
    if canWrite tasks then some ((removeContext p c).1,.releasing (removeContext p c).2 .done,[])
    else none
  | _ => none

def After.next (p : PoolState) : After → PoolState × Pc
  | .sleep => (p,.sleeping)
  | .recycle todo => (p,.recycling todo)
  | .build => (p,.building)
  | .replace => ({ p with totalContextsRecycled := p.totalContextsRecycled + 1 },.building)
  | .refuse | .sessionEnded | .done => (p,.finished)
  | .serve c => (p,.serving c)

/-- `release_context`, one removed context after the other. -/
def releaseNext (cfg : Config) (p : PoolState) (choice : Choice) : Pc → Next
  | .releasing (c :: todo) after =>
    match choice with
    | .tabLockTimeout => some (p,.releasing todo after,[])
    | _ => some (p.release cfg c,.releasing todo after,[])
  | .releasing [] after => some ((after.next p).1,(after.next p).2,[])
  | _ => none

/-- `SlotFactory::build` and `create` on a blocking thread, then the send and, when
nobody is left to receive, `discard`. -/
def closureNext (cfg : Config) (p : PoolState) (choice : Choice) : Pc → Next
  | .closure j (.cdpContext pipeline) =>
    match choice, pipeline with
    | .fail, .build => returnSlot p j (.error ())
    | .fail, .create => returnSlot p j (.ok ⟨none,none⟩)
    | _, _ =>
      some ({ p with nextCdpContext := p.nextCdpContext + 1 },
        .closure j (.newTab pipeline (some p.nextCdpContext)),[])
  | .closure j (.newTab pipeline cdp) =>
    match choice, pipeline with
    | .fail, .build => returnSlot (p.discard cfg ⟨none,cdp⟩) j (.error ())
    | .fail, .create => returnSlot p j (.ok ⟨none,cdp⟩)
    | _, _ => returnSlot { p with nextTab := p.nextTab + 1 } j (.ok ⟨some p.nextTab,cdp⟩)
  | .answering j =>
    match (p.calls j).thread with
    | .returned _ => (stepCall createCall p j .send).map fun p => (p,.answering j,[])
    | .orphaned slot =>
      (stepCall createCall p j .cleanup).map fun p => (p.discard cfg slot,.finished,[])
    | _ => some (p,.finished,[])
  | _ => none

def next (cfg : Config) (p : PoolState) (tasks : List Pc) (choice : Choice) (pc : Pc) : Next :=
  match pc with
  | .sleeping | .draining .. | .judging .. | .picking .. | .pickingExpired .. | .recycling _
  | .rebuilding .. | .swapping .. => monitorNext cfg p tasks choice pc
  | .purging .. => purgeNext cfg p pc
  | .acquiring _ | .selecting .. | .claiming .. | .wantWrite _ | .atCapacity _
  | .replacing _ => acquireNext cfg p tasks pc
  | .building | .waiting _ | .pushing _ | .handover _ => buildNext cfg p tasks choice pc
  | .session _ | .found _ | .ending _ | .continuing _ => sessionNext cfg p tasks pc
  | .serving _ | .destroying _ | .stamping _ | .clearing _ | .destroy _ =>
    serveNext cfg p tasks choice pc
  | .releasing .. => releaseNext cfg p choice pc
  | .closure .. | .answering _ => closureNext cfg p choice pc
  | .finished => none

/-- A caller's future is dropped at the await it is suspended in. A guard or a slot
reservation it owns is dropped with it; the monitor and the spawned tasks have no caller. -/
def cancelled (p : PoolState) : Pc → Option (PoolState × Pc)
  | .acquiring _ | .wantWrite _ | .session _ | .ending _ | .destroy _ => some (p,.finished)
  | .waiting j =>
    (stepCall createCall p j .dropCaller).map fun p => (unreserve p,.finished)
  | .pushing _ => some (unreserve p,.finished)
  | .serving c | .destroying c => some (p,.stamping c)
  | .releasing (_ :: _) after =>
    match after with
    | .build | .replace => some (unreserve p,.finished)
    | .serve c => some (p,.stamping c)
    | .refuse | .sessionEnded | .done => some (p,.finished)
    | .sleep | .recycle _ => none
  | _ => none

structure State where
  pool : PoolState
  tasks : List Pc

inductive Action where
  | tick (elapsed : Nat)
  | call (call : Call)
  | session (context : ContextId)
  | destroy (context : ContextId)
  | run (task : Nat) (choice : Choice)
  | cancel (task : Nat)
  deriving DecidableEq, Repr

def step (cfg : Config) (s : State) : Action → Option State
  | .tick elapsed => some { s with pool := { s.pool with now := s.pool.now + elapsed } }
  | .call call => some { s with tasks := s.tasks ++ [.acquiring call] }
  | .session c => some { s with tasks := s.tasks ++ [.session c] }
  | .destroy c => some { s with tasks := s.tasks ++ [.destroy c] }
  | .run i choice =>
    match s.tasks[i]? with
    | none => none
    | some pc =>
      match next cfg s.pool s.tasks choice pc with
      | none => none
      | some (pool,pc',spawned) => some ⟨pool,s.tasks.set i pc' ++ spawned⟩
  | .cancel i =>
    match s.tasks[i]? with
    | none => none
    | some pc =>
      match cancelled s.pool pc with
      | none => none
      | some (pool,pc') => some ⟨pool,s.tasks.set i pc'⟩

def PoolState.empty : PoolState :=
  { now := 0, contexts := [],
    ctx := fun _ => BrowserContext.new 0 none none, fresh := 0, pendingCreations := 0,
    calls := fun _ => CdpCall.State.initial, nextCall := 0, nextTab := 0, nextCdpContext := 0,
    disposed := [], totalContextsCreated := 0, totalContextsRecycled := 0 }

@[simp] theorem PoolState.empty_contexts : PoolState.empty.contexts = [] := rfl
@[simp] theorem PoolState.empty_pending : PoolState.empty.pendingCreations = 0 := rfl

/-- `create_new_context` when Chrome answers: a tab, in its own CDP context if isolated. -/
def createNewContext (cfg : Config) (p : PoolState) : PoolState :=
  let cdp := match cfg.scope.contextIsolation with
    | .isolated => some p.nextCdpContext
    | .shared => none
  { p.addContext ⟨some p.nextTab,cdp⟩ false with
    nextTab := p.nextTab + 1
    nextCdpContext := p.nextCdpContext + (if cdp.isSome then 1 else 0)
    totalContextsCreated := p.totalContextsCreated + 1 }

def populateInitialContexts (cfg : Config) : Nat → PoolState → PoolState
  | 0, p => p
  | n + 1, p =>
    populateInitialContexts cfg n { createNewContext cfg p with contexts := p.contexts ++ [p.fresh] }

/-- `BrowserPool::new`: contexts are pre-created only where any request can take one. -/
def initial (cfg : Config) : State :=
  ⟨match cfg.scope.sessionMode with
    | .reusable => populateInitialContexts cfg cfg.scope.minContexts PoolState.empty
    | _ => PoolState.empty,
   [.sleeping]⟩

def machine (cfg : Config) : Machine State Action := ⟨initial cfg,step cfg⟩

def Config.small (mode : SessionMode) : Config := ⟨ValidScope.small mode,true⟩

/-- The first request of a small pool: it reserves the slot, its blocking thread creates a
CDP context and a tab, and it runs in the context built from them. -/
def firstRequest (call : Call) : List Action :=
  [.call call,.run 1 .go,.run 1 .go,.run 2 .go,.run 2 .go,.run 2 .go,.run 1 .poll,.run 1 .go,.run 1 .go,
    .run 1 .go]

end BrowserHive.Pool
