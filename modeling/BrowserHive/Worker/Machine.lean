import BrowserHive.Lib.Transition
import BrowserHive.Lib.RwLock
import BrowserHive.Worker.Response

/-! The `scrape_page` handlers of one worker over the shared lock on its browser pool. A
handler's guards are read off its program point and the flag of the lookup guard, so a
guard lives exactly as long as its scope does. Busy flags, capacity and Chrome's answers
are choices of the environment; `BrowserHive.Pool` models what is behind them. -/
namespace BrowserHive.Worker

open BrowserHive Transition RwLock

/-- The part of a worker all handlers see. `home` and `removed` are ghosts: the pool each
context belongs to, and which contexts were removed by which handler, or by the monitor. -/
structure Pools where
  number : Nat
  alive : Bool
  generation : Nat
  contexts : List ContextId
  fresh : ContextId
  home : ContextId → Nat
  removed : List (ContextId × Option Nat)

namespace Pools

/-- A context for a session-less request; its id is one nobody has seen. -/
def create (p : Pools) : Pools := { p with contexts := p.contexts ++ [p.fresh], fresh := p.fresh + 1 }

def remove (p : Pools) (c : ContextId) (remover : Option Nat) : Pools :=
  if c ∈ p.contexts then
    { p with contexts := p.contexts.filter (· ≠ c), removed := p.removed ++ [(c,remover)] }
  else p

def initialContexts (scope : ValidScope) : Nat :=
  match scope.sessionMode with
  | .reusable => scope.minContexts
  | _ => 0

/-- The new pool takes the old one's place. -/
def replace (scope : ValidScope) (p : Pools) : Pools :=
  { p with
    number := p.number + 1
    alive := true
    contexts := List.range' p.fresh (initialContexts scope)
    fresh := p.fresh + initialContexts scope
    home := fun c => if c < p.fresh then p.home c else p.number + 1 }

def bump (p : Pools) : Pools := { p with generation := p.generation + 1 }

def replaced (p : Pools) (c : ContextId) : Bool := p.home c ≠ p.number

/-- A client names an id: no context will be given it any more. -/
def name (p : Pools) (c : ContextId) : Pools := { p with fresh := max p.fresh (c + 1) }

end Pools

/-- One run of `scrape_page_internal`; the first keeps the generation read before it. -/
structure Attempt where
  generation : Option Nat
  context : ContextId
  deriving DecidableEq, Repr

/-- Where `recreate_browser_pool` was called from. -/
inductive Back where
  | acquire (retry : Bool)
  | attempt (attempt : Attempt)
  deriving DecidableEq, Repr

/-- A handler's program point. At `-ing` points it waits for the lock, and the point that
follows holds the guard. -/
inductive Pc where
  | arrived
  -- an invalid url: `surviving_session_context_id`
  | echoing
  | echo
  -- the session lookup
  | lookingUp
  | lookup
  | found (context : ContextId)
  -- `acquire_context_with_recovery`
  | acquiring (retry recovered : Bool)
  | acquire (retry recovered : Bool)
  -- `recreate_browser_pool`, with the pool that was seen dead
  | launching (dead : Nat) (back : Back)
  | replacing (dead : Nat) (back : Back)
  | replace (dead : Nat) (back : Back)
  | bump (back : Back)
  -- the attempt
  | bound (context : ContextId)
  | claim (attempt : Attempt)
  | tabbing (attempt : Attempt)
  | tab (attempt : Attempt)
  | navigate (attempt : Attempt)
  | load (attempt : Attempt)
  | leaving (attempt : Attempt)
  | leave (attempt : Attempt)
  | status (attempt : Attempt)
  | discarding (attempt : Attempt) (reply : Reply)
  | discard (attempt : Attempt) (reply : Reply)
  /-- `replaced` is a ghost: whether the context's pool was replaced when the attempt ended. -/
  | ended (attempt : Attempt) (replaced : Bool) (result : Result)
  | finishing (result : Result)
  | returned (result : Result)
  | dropped
  deriving DecidableEq

def Pc.guard : Pc → Option Access
  | .echo | .acquire .. | .tab _ | .leave _ | .discard .. => some .read
  | .replace .. | .bump _ => some .write
  | _ => none

def Pc.asks : Pc → Option Access
  | .echoing | .lookingUp | .acquiring .. | .tabbing _ | .leaving _ | .discarding .. => some .read
  | .replacing .. => some .write
  | _ => none

def Pc.granted : Pc → Pc
  | .echoing => .echo
  | .lookingUp => .lookup
  | .acquiring retry recovered => .acquire retry recovered
  | .replacing dead back => .replace dead back
  | .tabbing a => .tab a
  | .leaving a => .leave a
  | .discarding a reply => .discard a reply
  | pc => pc

/-- The points with an await, where the handler's future can be dropped. -/
def Pc.suspends : Pc → Bool
  | .replace .. | .bump _ | .bound _ | .ended .. | .finishing _ | .returned _ | .dropped => false
  | _ => true

/-- `outer` is the guard of the session lookup. The counts are ghosts: attempts started,
and contexts created for this request. -/
structure Handler where
  req : Request
  outer : Bool
  attempts : Nat
  created : List ContextId
  pc : Pc

def Handler.guards (h : Handler) : List Access :=
  (if h.outer then [.read] else []) ++ h.pc.guard.toList

def Handler.goto (h : Handler) (pc : Pc) : Handler := { h with pc := pc }

def Handler.granted (h : Handler) : Handler :=
  { h with pc := h.pc.granted, outer := h.outer || h.pc = .lookingUp }

structure State where
  pools : Pools
  terminating : Bool
  queue : List (Nat × Access)
  handlers : List Handler

def State.holders (s : State) : List (Nat × Access) :=
  s.handlers.zipIdx.flatMap (fun entry => entry.1.guards.map (fun access => (entry.2,access)))

/-- The lock as the handlers' program points and the queue describe it. -/
def State.lock (s : State) : Lock Nat := ⟨s.holders,s.queue⟩

inductive Choice where
  | go
  | usedUp
  | create
  | reuse (context : ContextId)
  | exhausted
  | fail
  | dead
  | busy
  | insecure
  | lost
  | stall
  | terminate
  | stuck
  | stuckContent
  | observe (page : Page)
  | unanswered (page : Page)
  deriving DecidableEq

def Request.session (scope : ValidScope) (req : Request) : Option ContextId :=
  if scope.sessionMode.returnsSessionId then req.contextId else none

section Handler

variable (scope : ValidScope) (p : Pools) (i : Nat) (h : Handler)

def endWith (a : Attempt) (result : Result) : Option (Pools × Handler) :=
  some (p,h.goto (.ended a (p.replaced a.context) result))

def failWith (a : Attempt) (errorCode : ErrorCode) : Option (Pools × Handler) :=
  endWith p h a (.ok (.failure errorCode (addressableContextId scope.sessionMode a.context)))

def finish (result : Result) : Option (Pools × Handler) := some (p,h.goto (.finishing result))

/-- `scrape_page` up to the context it looks up. -/
def lookupNext (terminating : Bool) (choice : Choice) : Option (Pools × Handler) :=
  match h.pc with
  | .arrived =>
    if terminating then finish p h (.ok (.failure .terminating none))
    else if h.req.hasDomain then some (p,h.goto .lookingUp)
    else match h.req.session scope with
      | some _ => some (p,h.goto .echoing)
      | none => finish p h (.ok (.failure .invalidUrl none))
  | .echo =>
    finish p h (.ok (.failure .invalidUrl ((h.req.session scope).filter (· ∈ p.contexts))))
  | .lookup =>
    match h.req.session scope with
    | some c =>
      if c ∈ p.contexts then some (p,h.goto (.found c))
      else finish p h (.ok (.failure .sessionNotFound none))
    | none => some (p,{ h with outer := false, pc := .acquiring false false })
  | .found c =>
    match choice with
    | .go => some (p,h.goto (.bound c))
    | .usedUp =>
      -- `end_session_if_used_up` removes the context unless it is gone or busy
      if c ∈ p.contexts then finish (p.remove c (some i)) h (.ok (.failure .sessionNotFound none)) else none
    | _ => none
  | _ => none

def bindContext (retry : Bool) (c : ContextId) (h : Handler) : Handler :=
  h.goto (if retry then .claim ⟨none,c⟩ else .bound c)

/-- `acquire_context_with_recovery` and `recreate_browser_pool`. -/
def acquireNext (choice : Choice) : Option (Pools × Handler) :=
  match h.pc with
  | .acquire retry recovered =>
    match choice with
    | .create => some (p.create,bindContext retry p.fresh { h with created := h.created ++ [p.fresh] })
    | .reuse c =>
      if scope.sessionMode = .reusable ∧ c ∈ p.contexts then some (p,bindContext retry c h) else none
    | .exhausted => finish p h (.ok (.failure .capacityExhausted none))
    | .fail => finish p h (.ok (.failure .contextCreationFailed none))
    | .dead =>
      if p.alive then none
      else if recovered then finish p h (.ok (.failure .contextCreationFailed none))
      else some (p,h.goto (.launching p.number (.acquire retry)))
    | _ => none
  | .launching dead back =>
    match choice with
    | .go => some (p,h.goto (.replacing dead back))
    | .fail =>
      match back with
      | .acquire _ => finish p h (.ok (.failure .browserError none))
      | .attempt a => failWith scope p h a .browserError
    | _ => none
  | .replace _ back => some (p.replace scope,h.goto (.bump back))
  | .bump (.acquire retry) => some (p.bump,h.goto (.acquiring retry true))
  | .bump (.attempt a) => endWith p.bump h a (.ok (.failure .browserError none))
  | _ => none

/-- `scrape_page_internal` up to the navigation. -/
def attemptNext (terminating : Bool) (choice : Choice) : Option (Pools × Handler) :=
  match h.pc with
  | .bound c => some (p,h.goto (.claim ⟨some p.generation,c⟩))
  | .claim a =>
    match choice with
    | .busy =>
      -- only the first attempt of a session continuation finds its context unclaimed
      if a.generation.isSome ∧ (h.req.session scope).isSome then
        failWith scope p { h with attempts := h.attempts + 1 } a .sessionBusy
      else none
    | .go =>
      if h.req.hasDomain then some (p,{ h with attempts := h.attempts + 1, pc := .tabbing a })
      else failWith scope p { h with attempts := h.attempts + 1 } a .invalidUrl
    | _ => none
  | .tab a =>
    match choice with
    | .go => some (p,h.goto (.navigate a))
    | .insecure | .fail => failWith scope p h a .browserError
    | .lost => endWith (p.remove a.context (some i)) h a (.ok (.failure .browserError none))
    | .stall => some (p,h.goto (.discarding a (.failure .browserError none)))
    | .dead => if p.alive then none else some (p,h.goto (.launching p.number (.attempt a)))
    | _ => none
  | .navigate a =>
    match choice with
    | .go =>
      match h.req.validateWait with
      | .ok () => some (p,h.goto (.load a))
      | .error status => endWith p h a (.error status)
    | .stall => some (p,h.goto (.discarding a (.failure .browserError none)))
    | .stuck => some (p,h.goto (.discarding a (.failure .timeoutBrowser none)))
    | .terminate => if terminating then failWith scope p h a .terminating else none
    | .fail => failWith scope p h a .browserError
    | _ => none
  | _ => none

/-- The rest of `scrape_page_internal`, and the end of the handler. -/
def finishNext (terminating : Bool) (choice : Choice) : Option (Pools × Handler) :=
  match h.pc with
  | .load a =>
    match choice with
    | .go => some (p,h.goto (if scope.sessionMode = .alwaysNew then .leaving a else .status a))
    | .stuck => some (p,h.goto (.discarding a (.failure .timeoutBrowser none)))
    | .stuckContent => some (p,h.goto (.discarding a (.failure .browserError none)))
    | .terminate => if terminating then failWith scope p h a .terminating else none
    | .fail => failWith scope p h a .browserError
    | _ => none
  | .leave a => some (p.remove a.context (some i),h.goto (.status a))
  | .status a =>
    match choice with
    | .observe page =>
      if scope.destroySessionOnBlock ∧ scope.sessionMode = .dedicated ∧ shouldExitEarly page.statusCode then
        some (p,h.goto (.discarding a (page.reply none)))
      else endWith p h a (.ok (page.reply (addressableContextId scope.sessionMode a.context)))
    | .unanswered page => some (p,h.goto (.discarding a (({ page with statusCode := 0 } : Page).reply none)))
    | _ => none
  | .discard a reply => endWith (p.remove a.context (some i)) h a (.ok reply)
  | .ended a _ result =>
    match a.generation with
    | some generation =>
      if p.generation ≠ generation ∧ isFailure result then some (p,h.goto (.acquiring true false))
      else finish p h result
    | none => finish p h result
  | .finishing result => some (p,{ h with outer := false, pc := .returned result })
  | _ => none

def next (terminating : Bool) (choice : Choice) : Option (Pools × Handler) :=
  match h.pc with
  | .arrived | .echo | .lookup | .found _ => lookupNext scope p i h terminating choice
  | .acquire .. | .launching .. | .replace .. | .bump _ => acquireNext scope p h choice
  | .bound _ | .claim _ | .tab _ | .navigate _ => attemptNext scope p i h terminating choice
  | .load _ | .leave _ | .status _ | .discard .. | .ended .. | .finishing _ =>
    finishNext scope p i h terminating choice
  | _ => none

end Handler

inductive Action where
  | arrive (req : Request)
  | run (handler : Nat) (choice : Choice)
  | drop (handler : Nat)
  | expire (context : ContextId)
  | die
  | terminate
  deriving DecidableEq

def State.grants (s : State) (i : Nat) (access : Access) : Bool :=
  (s.holders ++ s.queue.takeWhile (fun entry => entry.1 ≠ i)).all (fun other => !access.conflicts other.2)

def State.queued (s : State) (i : Nat) : Bool := s.queue.any (fun entry => entry.1 = i)

/-- A handler that waits for the lock joins the queue and is granted its guard in turn. -/
def lockStep (s : State) (i : Nat) (h : Handler) (access : Access) : Option State :=
  if s.queued i then
    if s.grants i access then
      some { s with
        queue := s.queue.filter (fun entry => entry.1 ≠ i)
        handlers := s.handlers.set i h.granted }
    else none
  else some { s with queue := s.queue ++ [(i,access)] }

def step (scope : ValidScope) (s : State) : Action → Option State
  | .arrive req =>
    some { s with
      pools := match req.contextId with
        | some c => s.pools.name c
        | none => s.pools
      handlers := s.handlers ++ [⟨req,false,0,[],.arrived⟩] }
  | .run i choice =>
    match s.handlers[i]? with
    | none => none
    | some h =>
      match h.pc.asks with
      | some access => lockStep s i h access
      | none =>
        match next scope s.pools i h s.terminating choice with
        | none => none
        | some (pools,h') => some { s with pools := pools, handlers := s.handlers.set i h' }
  | .drop i =>
    match s.handlers[i]? with
    | none => none
    | some h =>
      if h.pc.suspends then
        some { s with
          queue := s.queue.filter (fun entry => entry.1 ≠ i)
          handlers := s.handlers.set i { h with outer := false, pc := .dropped } }
      else none
  | .expire c => some { s with pools := s.pools.remove c none }
  | .die => some { s with pools := { s.pools with alive := false } }
  | .terminate => some { s with terminating := true }

def initial (scope : ValidScope) : State :=
  ⟨⟨0,true,0,List.range' 0 (Pools.initialContexts scope),Pools.initialContexts scope,fun _ => 0,[]⟩,false,[],[]⟩

def machine (scope : ValidScope) : Machine State Action := ⟨initial scope,step scope⟩

def Request.page (contextId : Option ContextId) : Request := ⟨true,contextId,"timeout",1000,none⟩

def Page.fine : Page := ⟨.loaded,false,.success,false,false,200⟩

def creates (i : Nat) : List Action :=
  .arrive (Request.page none) :: List.replicate 6 (.run i .go) ++ [.run i .create]

def continues (i : Nat) (c : ContextId) : List Action :=
  .arrive (Request.page (some c)) :: List.replicate 5 (.run i .go)

def prepares (i : Nat) : List Action := List.replicate 4 (.run i .go)

def answers (i : Nat) : List Action :=
  List.replicate 3 (.run i .go) ++ [.run i (.observe Page.fine),.run i .go,.run i .go]

end BrowserHive.Worker
