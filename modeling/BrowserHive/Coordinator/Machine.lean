import BrowserHive.Lib.Transition
import BrowserHive.Coordinator.Selection
import BrowserHive.Coordinator.Session
import BrowserHive.Coordinator.Retry

/-! The coordinator: any number of `scrape_page` requests over the discovery maps, the
health set, the in-flight counts and the session store, with the background tasks that
rewrite these taking steps of their own in between. -/
namespace BrowserHive.Coordinator

open Transition

structure ScrapePageRequest where
  scopeName : String
  url : String
  timeoutSeconds : Nat
  sessionId : String
  countryCode : String
  deriving DecidableEq, Repr

def ScrapePageRequest.noSession (req : ScrapePageRequest) : Bool := req.sessionId = ""

structure WorkerRequest where
  url : String
  timeoutSeconds : Nat
  contextId : String
  countryCode : String
  deriving DecidableEq, Repr

structure WorkerResponse where
  success : Bool
  statusCode : Nat
  errorMessage : String
  errorCode : Int
  contextId : String
  deriving DecidableEq, Repr

structure ScrapePageResponse where
  success : Bool
  statusCode : Nat
  errorMessage : String
  errorCode : Int
  sessionId : String
  workerId : String
  contextId : String
  deriving DecidableEq, Repr

inductive Outcome where
  | answered (resp : WorkerResponse)
  | unreachable (message : String)
  deriving DecidableEq, Repr

def Outcome.plan (noSession : Bool) : Outcome → Option RetryPlan
  | .answered resp => classifyRetry resp.errorCode noSession
  | .unreachable _ => classifyUnreachableRetry noSession

structure Target where
  workerId : String
  endpoint : String
  deriving DecidableEq, Repr

def WorkerEndpoint.target (w : WorkerEndpoint) : Target := ⟨w.podName,w.address⟩

/-- How an attempt came to its worker; a retry with the budget left when it was decided,
and the worker's health and free slots when it was picked. -/
inductive Choice where
  | routed
  | session
  | retry (remaining : Nat) (healthy : Bool) (freeSlots : Nat)
  deriving DecidableEq, Repr

structure Attempt where
  worker : String
  choice : Choice
  outcome : Option Outcome
  deriving DecidableEq, Repr

/-- A request's program point; at `dispatching` the next pass of the retry loop begins. -/
inductive Pc where
  | arrived
  | looking
  | routing
  | forgetting
  | missing
  | refreshing (target : Target)
  | dispatching (target : Target) (choice : Choice)
  | connecting (target : Target)
  | calling (target : Target) (forwarded : WorkerRequest)
  | retrying (target : Target) (outcome : Outcome) (plan : RetryPlan) (remaining : Nat)
  | finishing (target : Target) (outcome : Outcome)
  | responded (response : ScrapePageResponse)
  /-- `InvalidArgument` is handed through as the gRPC status it is. -/
  | refused
  | dropped
  deriving DecidableEq

/-- The points inside the scope of the read guard on the routable map. -/
def Pc.reads : Pc → Bool
  | .routing | .forgetting | .missing | .refreshing _ => true
  | _ => false

def Pc.occupies : Pc → Option String
  | .connecting target | .calling target _ | .retrying target .. => some target.workerId
  | _ => none

/-- The points with an await, where the request's future can be dropped. -/
def Pc.suspends : Pc → Bool
  | .finishing _ (.answered resp) => resp.contextId ≠ ""
  | .dispatching .. | .finishing .. | .responded _ | .refused | .dropped => false
  | _ => true

/-- `trail` is a ghost: the attempts made, the latest first. -/
structure Handler where
  req : ScrapePageRequest
  startTime : Nat
  metrics : RequestMetrics
  session : Option SessionInfo
  attempt : Nat
  excluded : List String
  trail : List Attempt
  pc : Pc

namespace Handler

def new (req : ScrapePageRequest) (now : Nat) : Handler :=
  ⟨req,now,.new req.scopeName,none,0,[],[],.arrived⟩

def goto (h : Handler) (pc : Pc) : Handler := { h with pc := pc }

def requestDeadline (h : Handler) : Nat := h.startTime + clientBudget h.req.timeoutSeconds

def occupies (h : Handler) : Option String := if h.req.noSession then h.pc.occupies else none

def contextId (h : Handler) : String :=
  if h.req.noSession then "" else ((SessionId.fromString h.req.sessionId).map SessionId.contextId).getD ""

def recordOutcome (h : Handler) (outcome : Outcome) : Handler :=
  match h.trail with
  | a :: older => { h with trail := { a with outcome := some outcome } :: older }
  | [] => h

end Handler

/-- What the requests share. `samples` is a ghost: the scope labels samples were recorded
under. `found` is a discovery round whose second map is not stored yet. -/
structure Shared where
  now : Nat
  cancelled : Bool
  routable : Routable
  presences : Presences
  found : Option Presences
  healthy : List String
  rotation : Nat
  inFlight : InFlight
  sessions : Sessions
  samples : List String

namespace Shared

def freeSlots (s : Shared) (w : WorkerEndpoint) : Nat := s.inFlight.freeSlots w

/-- `fetch_add` on the routing counter. -/
def rotate (s : Shared) : Shared := { s with rotation := (s.rotation + 1) % 2^64 }

def sample (s : Shared) (label : String) : Shared := { s with samples := s.samples ++ [label] }

/-- The in-flight guard of this request is dropped. -/
def release (s : Shared) (h : Handler) : Shared :=
  match h.occupies with
  | some pod => { s with inFlight := s.inFlight.finish pod }
  | none => s

theorem release_eq (s : Shared) (h : Handler) : s.release h = { s with inFlight := (s.release h).inFlight } := by
  unfold release
  split <;> rfl

section

variable (s : Shared) (h : Handler)

@[simp] theorem release_now : (s.release h).now = s.now := by rw [release_eq]

@[simp] theorem release_cancelled : (s.release h).cancelled = s.cancelled := by rw [release_eq]

@[simp] theorem release_routable : (s.release h).routable = s.routable := by rw [release_eq]

@[simp] theorem release_presences : (s.release h).presences = s.presences := by rw [release_eq]

@[simp] theorem release_found : (s.release h).found = s.found := by rw [release_eq]

@[simp] theorem release_healthy : (s.release h).healthy = s.healthy := by rw [release_eq]

@[simp] theorem release_rotation : (s.release h).rotation = s.rotation := by rw [release_eq]

@[simp] theorem release_sessions : (s.release h).sessions = s.sessions := by rw [release_eq]

@[simp] theorem release_samples : (s.release h).samples = s.samples := by rw [release_eq]

end

/-- What the background tasks write stays as it is. -/
structure Framed (s t : Shared) : Prop where
  now : t.now = s.now
  cancelled : t.cancelled = s.cancelled
  routable : t.routable = s.routable
  presences : t.presences = s.presences
  found : t.found = s.found
  healthy : t.healthy = s.healthy

end Shared

inductive Event where
  | go
  | fresh (slots : Option Nat)
  | connectFailed (message : String)
  | answered (resp : WorkerResponse)
  | broke (message : String)
  | invalidArgument
  deriving DecidableEq

section Handler

variable (s : Shared) (h : Handler)

def leave (pc : Pc) : Shared × Handler := (s.sample h.metrics.label,h.goto pc)

def refuse (reason : RejectReason) (errorCode : ErrorCode) (errorMessage workerId : String) :
    Shared × Handler :=
  leave s { h with metrics := h.metrics.reject reason }
    (.responded ⟨false,0,errorMessage,errorCode.code,"",workerId,""⟩)

def routeSession : Shared × Handler :=
  match s.sessions.getSession s.now h.req.sessionId with
  | none => refuse s h .sessionNotFound .sessionNotFound "Session not found or expired" ""
  | some (info,sessions) =>
    let s := { s with sessions := sessions }
    let h := { h with metrics := h.metrics.setScope info.scopeName, session := some info }
    let workerExists := ((s.routable info.scopeName).getD []).any
      (fun w => w.podName == info.sessionId.workerId)
    if workerExists then
      (s,h.goto (.dispatching ⟨info.sessionId.workerId,info.workerEndpoint⟩ .session))
    else (s,h.goto .forgetting)

def routeNew : Shared × Handler :=
  match s.routable h.req.scopeName with
  | none => (s,h.goto .missing)
  | some scopeWorkers =>
    if scopeWorkers.isEmpty then
      refuse s h .noWorkers .noWorkersAvailable ("No workers available for scope: " ++ h.req.scopeName) ""
    else match selectBestWorker scopeWorkers s.healthy s.freeSlots s.rotation with
      | none =>
        refuse s.rotate h .noWorkers .noWorkersAvailable
          ("No available workers for scope: " ++ h.req.scopeName) ""
      | some selected =>
        if selected.freeSlots = 0 then (s.rotate,h.goto (.refreshing selected.worker.target))
        else (s.rotate,h.goto (.dispatching selected.worker.target .routed))

def routeNext (event : Event) : Option (Shared × Handler) :=
  match h.pc,event with
  | .arrived,.go =>
    if s.cancelled then
      some (refuse s h .terminating .terminating "Coordinator is shutting down, please retry" "")
    else some (s,h.goto .looking)
  | .looking,.go => some (s,h.goto .routing)
  | .routing,.go => some (if h.req.noSession then routeNew s h else routeSession s h)
  | .forgetting,.go =>
    some (refuse { s with sessions := s.sessions.removeSession h.req.sessionId } h .sessionNotFound
      .sessionNotFound "Session expired or worker unavailable. Please retry without session_id" "")
  | .missing,.go =>
    let missing := classifyMissingScope h.req.scopeName (s.presences h.req.scopeName)
    some (refuse s h missing.1 missing.2.1 missing.2.2 "")
  | .refreshing target,.fresh slots =>
    if 0 < slots.getD 0 then some (s,h.goto (.dispatching target .routed))
    else some (refuse s h .noSlots .noWorkersAvailable
      ("No available slots in scope: " ++ h.req.scopeName ++ ". All workers are busy.") "")
  | _,_ => none

def breakWith (target : Target) (outcome : Outcome) : Shared × Handler :=
  (s.release h,h.goto (.finishing target outcome))

/-- An attempt is over: is this an outcome another pod could still serve? -/
def judge (target : Target) (outcome : Outcome) : Shared × Handler :=
  let h := h.recordOutcome outcome
  match outcome.plan h.req.noSession with
  | none => breakWith s h target outcome
  | some plan =>
    let h := { h with excluded := target.workerId :: h.excluded }
    let remaining := h.requestDeadline - s.now
    if remaining < minRetryTimeRemaining then breakWith s h target outcome
    else if h.attempt ≥ plan.maxAttempts then breakWith s h target outcome
    else (s,h.goto (.retrying target outcome plan remaining))

/-- Another worker of the request's scope, ranked like the first. -/
def retry (target : Target) (outcome : Outcome) (remaining : Nat) : Shared × Handler :=
  match s.routable h.req.scopeName with
  | none => breakWith s h target outcome
  | some scopeWorkers =>
    let candidates := scopeWorkers.filter (fun w => w.podName ∈ s.healthy ∧ w.podName ∉ h.excluded)
    match pickMostFree candidates s.freeSlots s.rotation with
    | none => breakWith s.rotate h target outcome
    | some (best,freeSlots) =>
      if freeSlots = 0 then breakWith s.rotate h target outcome
      else ((s.rotate.release h).sample h.metrics.scope,
        h.goto (.dispatching best.target (.retry remaining (best.podName ∈ s.healthy) freeSlots)))

def connectMessage (target : Target) (message : String) : String :=
  "Failed to connect to worker " ++ target.workerId ++ ": " ++ message

def brokenMessage (target : Target) (message : String) : String :=
  "Worker " ++ target.workerId ++ " became unreachable during the request: " ++ message

def attemptNext (event : Event) : Option (Shared × Handler) :=
  match h.pc,event with
  | .dispatching target choice,.go =>
    let s := if h.req.noSession then { s with inFlight := s.inFlight.start target.workerId } else s
    some (s,{ h with
      attempt := h.attempt + 1
      trail := ⟨target.workerId,choice,none⟩ :: h.trail
      pc := .connecting target })
  | .connecting target,.connectFailed message =>
    some (judge s h target (.unreachable (connectMessage target message)))
  | .connecting target,.go =>
    let timeoutSeconds := max 1 ((h.requestDeadline - s.now) / seconds 1)
    some (s,h.goto (.calling target ⟨h.req.url,timeoutSeconds,h.contextId,h.req.countryCode⟩))
  | .calling target _,.answered resp => some (judge s h target (.answered resp))
  | .calling target _,.broke message =>
    some (judge s h target (.unreachable (brokenMessage target message)))
  | .calling _ _,.invalidArgument => some (leave (s.release h) h .refused)
  | .retrying target outcome _ remaining,.go => some (retry s h target outcome remaining)
  | _,_ => none

/-- A worker without a slot answers about capacity, which is the coordinator's own vocabulary. -/
def translate (resp : WorkerResponse) : Handler × WorkerResponse :=
  if resp.errorCode = capacityExhausted then
    ({ h with metrics := h.metrics.reject .noSlots },
      { resp with
        errorMessage := "No available slots in scope " ++ h.req.scopeName ++ ": " ++ resp.errorMessage
        errorCode := ErrorCode.noWorkersAvailable.code })
  else (h,resp)

def respond (target : Target) (resp : WorkerResponse) : Shared × Handler :=
  let (h,resp) := translate h resp
  if resp.contextId = "" then
    leave s h (.responded ⟨resp.success,resp.statusCode,resp.errorMessage,resp.errorCode,"",
      target.workerId,resp.contextId⟩)
  else
    let (sessionId,sessions) := s.sessions.createSession s.now h.req.scopeName target.workerId
      resp.contextId target.endpoint
    leave { s with sessions := sessions } h (.responded ⟨resp.success,resp.statusCode,
      resp.errorMessage,resp.errorCode,sessionId.toString,target.workerId,resp.contextId⟩)

def finishNext (event : Event) : Option (Shared × Handler) :=
  match h.pc,event with
  | .finishing target (.unreachable message),.go =>
    some (refuse s h .workerUnreachable .workerUnreachable message target.workerId)
  | .finishing target (.answered resp),.go => some (respond s h target resp)
  | _,_ => none

def next (event : Event) : Option (Shared × Handler) :=
  match h.pc with
  | .dispatching .. | .connecting _ | .calling .. | .retrying .. => attemptNext s h event
  | .finishing .. => finishNext s h event
  | _ => routeNext s h event

def dropNext : Option (Shared × Handler) :=
  if h.pc.suspends then some (leave (s.release h) h .dropped) else none

end Handler

structure State where
  shared : Shared
  handlers : List Handler

inductive Action where
  | tick (elapsed : Nat)
  | cancel
  | arrive (req : ScrapePageRequest)
  /-- A discovery round: the routable map is replaced, and then what is known of scopes. -/
  | discover (pods : List Pod)
  | publish
  | monitor (healthy : List String)
  | cleanup
  | advance (i : Nat) (event : Event)
  | drop (i : Nat)

/-- The scope label of every pod, and the workers configured where discovery is local. -/
structure Fleet where
  label : String → String
  configured : Routable
  known : Presences
  listed : configured.All (fun scope w => label w.podName = scope)

/-- Kubernetes lists a pod under its own label. -/
def Fleet.lists (fleet : Fleet) (pod : Pod) : Bool :=
  match pod.name,pod.scope with
  | some name,some scope => fleet.label name = scope
  | _,_ => true

def sessionTtl : Nat := seconds (30 * 60)

def Fleet.initial (fleet : Fleet) : State :=
  ⟨⟨0,false,fleet.configured,fleet.known,none,[],0,.empty,.empty,[]⟩,[]⟩

def State.take (s : State) (i : Nat) (act : Shared → Handler → Option (Shared × Handler)) :
    Option State := do
  let h ← s.handlers[i]?
  let (shared,h') ← act s.shared h
  some ⟨shared,s.handlers.set i h'⟩

def step (fleet : Fleet) (s : State) : Action → Option State
  | .tick elapsed => some { s with shared := { s.shared with now := s.shared.now + elapsed } }
  | .cancel => some { s with shared := { s.shared with cancelled := true } }
  | .arrive req => some { s with handlers := s.handlers ++ [.new req s.shared.now] }
  | .discover pods =>
    if s.shared.found.isNone ∧ pods.all fleet.lists ∧ s.handlers.all (fun h => !h.pc.reads) then
      let maps := discoverWorkers pods
      some { s with shared := { s.shared with routable := maps.1, found := some maps.2 } }
    else none
  | .publish =>
    s.shared.found.map fun presences =>
      { s with shared := { s.shared with presences := presences, found := none } }
  | .monitor healthy => some { s with shared := { s.shared with healthy := healthy } }
  | .cleanup =>
    some { s with shared := { s.shared with
      sessions := s.shared.sessions.cleanup s.shared.now sessionTtl } }
  | .advance i event => s.take i (fun shared h => next shared h event)
  | .drop i => s.take i dropNext

def machine (fleet : Fleet) : Machine State Action := ⟨fleet.initial,step fleet⟩

def Fleet.discovered (label : String → String) : Fleet :=
  ⟨label,fun _ => none,fun _ => none,fun _ _ found => nomatch found⟩

def Pod.ready (name scope : String) (availableSlots : Nat) : Pod :=
  ⟨some name,some scope,true,false,some "10.0.0.1",
    some ({ totalContexts := availableSlots, availableSlots := availableSlots },0)⟩

def ScrapePageRequest.page (scopeName sessionId : String) : ScrapePageRequest :=
  ⟨scopeName,"https://example.com",0,sessionId,""⟩

def WorkerResponse.failure (errorCode : Int) : WorkerResponse := ⟨false,0,"",errorCode,""⟩

/-- The steps of request `i` that take a session-less request to its first dispatch. -/
def dispatched (i : Nat) : List Action := List.replicate 5 (.advance i .go)

end BrowserHive.Coordinator
