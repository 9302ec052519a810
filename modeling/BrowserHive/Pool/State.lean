import BrowserHive.Context
import BrowserHive.CdpCall
import BrowserHive.Lib.Tasks

/-! The state of one `BrowserPool` and the program points of the tasks that work on it:
requests, the lifecycle monitor and the blocking threads that create tabs. Task 0 is the
monitor. Whether the `contexts` lock is held is read off the program points. -/
namespace BrowserHive.Pool

open BrowserHive

structure Slot where
  tab : Option Nat
  cdpContextId : Option Nat
  deriving DecidableEq, Repr

/-- Something open in Chrome that only an explicit close or disposal ends. -/
inductive Resource where
  | tab (id : Nat)
  | cdpContext (id : Nat)
  deriving DecidableEq, Repr

def resourcesOf (tab cdpContextId : Option Nat) : List Resource :=
  (tab.map Resource.tab).toList ++ (cdpContextId.map Resource.cdpContext).toList

def Slot.resources (slot : Slot) : List Resource := resourcesOf slot.tab slot.cdpContextId

structure Config where
  scope : ValidScope
  disposer : Bool

structure PoolState where
  now : Nat
  contexts : List ContextId
  ctx : ContextId → BrowserContext
  fresh : ContextId
  pendingCreations : Nat
  calls : Nat → CdpCall.State Slot Unit
  nextCall : Nat
  nextTab : Nat
  nextCdpContext : Nat
  /-- Handed to `discard`, `release_context` or `release_context_detached`. -/
  disposed : List Resource
  totalContextsCreated : Nat
  totalContextsRecycled : Nat

structure Lookup where
  params : ProxyParams
  origin : Option String
  deriving DecidableEq, Repr

inductive Call where
  | getOrCreateContext (lookup : Lookup)
  | createDedicatedContext
  | createAlwaysNewContext
  deriving DecidableEq, Repr

def acquireContext (mode : SessionMode) (lookup : Lookup) : Call :=
  match mode with
  | .alwaysNew => .createAlwaysNewContext
  | .reusable => .getOrCreateContext lookup
  | .dedicated => .createDedicatedContext

inductive Access where
  | read
  | write
  deriving DecidableEq, Repr

inductive Sweeper where
  | monitor
  | request
  deriving DecidableEq, Repr

/-- `build` serves a request and keeps nothing when it fails; `create` serves the monitor
and keeps what it got. -/
inductive Pipeline where
  | build
  | create
  deriving DecidableEq, Repr

inductive Closure where
  | cdpContext (pipeline : Pipeline)
  | newTab (pipeline : Pipeline) (cdpContextId : Option Nat)
  deriving DecidableEq, Repr

/-- Where a task goes once the contexts it removed are released. -/
inductive After where
  | sleep
  | recycle (todo : List ContextId)
  | build
  | replace
  | refuse
  | sessionEnded
  | serve (context : ContextId)
  | done
  deriving DecidableEq, Repr

inductive Pc where
  -- the monitor's tick, by session mode
  | sleeping
  | purging (sweeper : Sweeper) (todo kept leaked : List ContextId)
  | draining (todo alive expired : List ContextId)
  | judging (todo alive expired : List ContextId) (context : ContextId)
  | picking (todo claimed : List ContextId)
  | pickingExpired (todo claimed : List ContextId) (context : ContextId)
  | recycling (todo : List ContextId)
  | rebuilding (call : Nat) (old : ContextId) (todo : List ContextId)
  | swapping (new old : ContextId) (todo : List ContextId)
  -- a session-less request gets its context
  | acquiring (call : Call)
  | selecting (access : Access) (selection : Selection) (todo found : List ContextId) (lookup : Lookup)
  | claiming (access : Access) (selection : Selection) (candidates : List ContextId) (lookup : Lookup)
  | wantWrite (lookup : Lookup)
  | atCapacity (lookup : Lookup)
  | replacing (context : ContextId)
  | building
  | waiting (call : Nat)
  | pushing (context : ContextId)
  | handover (context : ContextId)
  -- a session continuation finds and claims its own
  | session (context : ContextId)
  | found (context : ContextId)
  | ending (context : ContextId)
  | continuing (context : ContextId)
  -- the request runs, under its busy guard
  | serving (context : ContextId)
  | destroying (context : ContextId)
  | stamping (context : ContextId)
  | clearing (context : ContextId)
  | destroy (context : ContextId)
  | releasing (todo : List ContextId) (after : After)
  -- a blocking thread
  | closure (call : Nat) (stage : Closure)
  | answering (call : Nat)
  | finished
  deriving DecidableEq, Repr

@[simp] def Pc.holdsRead : Pc → Bool
  | .selecting access .. | .claiming access .. => access = .read
  | _ => false

@[simp] def Pc.holdsWrite : Pc → Bool
  | .selecting access .. | .claiming access .. => access = .write
  | .purging .. | .draining .. | .judging .. | .picking .. | .pickingExpired .. | .atCapacity _
  | .replacing _ => true
  | _ => false

def canRead (tasks : List Pc) : Bool := tasks.all (fun pc => !pc.holdsWrite)

def canWrite (tasks : List Pc) : Bool := tasks.all (fun pc => !pc.holdsWrite && !pc.holdsRead)

namespace PoolState

@[simp] def occupiedSlots (p : PoolState) : Nat := p.contexts.length + p.pendingCreations

def modify (p : PoolState) (c : ContextId) (f : BrowserContext → BrowserContext) : PoolState :=
  { p with ctx := Function.update p.ctx c (f (p.ctx c)) }

def isBusy (p : PoolState) (c : ContextId) : Bool := (p.ctx c).isBusy

def setBusy (p : PoolState) (c : ContextId) (busy : Bool) : PoolState :=
  p.modify c (fun context => { context with isBusy := busy })

def addContext (p : PoolState) (slot : Slot) (busy : Bool) : PoolState :=
  { p with
    ctx := Function.update p.ctx p.fresh
      { BrowserContext.new p.now slot.tab slot.cdpContextId with isBusy := busy }
    fresh := p.fresh + 1 }

/-- `release_context` with the tab lock free: the tab is taken, and the tab and, when
there is a disposer, the CDP context are handed over. -/
def release (cfg : Config) (p : PoolState) (c : ContextId) : PoolState :=
  let context := p.ctx c
  { p.modify c (fun context => { context with tab := none }) with
    disposed := p.disposed ++
      resourcesOf context.tab (if cfg.disposer then context.cdpContextId else none) }

def discard (cfg : Config) (p : PoolState) (slot : Slot) : PoolState :=
  { p with
    disposed := p.disposed ++
      resourcesOf slot.tab (if cfg.disposer then slot.cdpContextId else none) }

def setCall (p : PoolState) (j : Nat) (call : CdpCall.State Slot Unit) : PoolState :=
  { p with calls := Function.update p.calls j call }

section Frame

variable (p : PoolState) (c d : ContextId) (f : BrowserContext → BrowserContext) (busy : Bool)
  (cfg : Config) (slot : Slot) (j : Nat) (call : CdpCall.State Slot Unit)

@[simp] theorem modify_contexts : (p.modify c f).contexts = p.contexts := rfl
@[simp] theorem modify_pending : (p.modify c f).pendingCreations = p.pendingCreations := rfl
@[simp] theorem modify_fresh : (p.modify c f).fresh = p.fresh := rfl
@[simp] theorem setBusy_contexts : (p.setBusy c busy).contexts = p.contexts := rfl
@[simp] theorem setBusy_pending : (p.setBusy c busy).pendingCreations = p.pendingCreations := rfl
@[simp] theorem setBusy_fresh : (p.setBusy c busy).fresh = p.fresh := rfl
@[simp] theorem addContext_contexts : (p.addContext slot busy).contexts = p.contexts := rfl
@[simp] theorem addContext_pending : (p.addContext slot busy).pendingCreations = p.pendingCreations := rfl
@[simp] theorem addContext_fresh : (p.addContext slot busy).fresh = p.fresh + 1 := rfl
@[simp] theorem release_contexts : (p.release cfg c).contexts = p.contexts := rfl
@[simp] theorem release_pending : (p.release cfg c).pendingCreations = p.pendingCreations := rfl
@[simp] theorem release_fresh : (p.release cfg c).fresh = p.fresh := rfl
@[simp] theorem discard_contexts : (p.discard cfg slot).contexts = p.contexts := rfl
@[simp] theorem discard_pending : (p.discard cfg slot).pendingCreations = p.pendingCreations := rfl
@[simp] theorem discard_fresh : (p.discard cfg slot).fresh = p.fresh := rfl
@[simp] theorem discard_ctx : (p.discard cfg slot).ctx = p.ctx := rfl
@[simp] theorem setCall_contexts : (p.setCall j call).contexts = p.contexts := rfl
@[simp] theorem setCall_pending : (p.setCall j call).pendingCreations = p.pendingCreations := rfl
@[simp] theorem setCall_fresh : (p.setCall j call).fresh = p.fresh := rfl
@[simp] theorem setCall_ctx : (p.setCall j call).ctx = p.ctx := rfl

theorem modify_isBusy (keeps : (f (p.ctx c)).isBusy = (p.ctx c).isBusy) :
    (p.modify c f).isBusy d = p.isBusy d := by
  by_cases same : d = c
  · subst same
    simp [isBusy,modify,keeps]
  · simp [isBusy,modify,same]

@[simp] theorem setBusy_isBusy :
    (p.setBusy c busy).isBusy d = if d = c then busy else p.isBusy d := by
  by_cases same : d = c <;> simp [isBusy,setBusy,modify,same]

@[simp] theorem addContext_isBusy :
    (p.addContext slot busy).isBusy d = if d = p.fresh then busy else p.isBusy d := by
  by_cases same : d = p.fresh <;> simp [isBusy,addContext,same]

@[simp] theorem release_isBusy : (p.release cfg c).isBusy d = p.isBusy d :=
  modify_isBusy p c d (fun context => { context with tab := none }) rfl

@[simp] theorem discard_isBusy : (p.discard cfg slot).isBusy d = p.isBusy d := rfl
@[simp] theorem setCall_isBusy : (p.setCall j call).isBusy d = p.isBusy d := rfl

end Frame

end PoolState

end BrowserHive.Pool
