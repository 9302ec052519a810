import BrowserHive.Context

/-! What a worker reads from a scrape request and what it answers: the wait parameters
and their validation, the error codes of the protocol, and the outcome computed from what
was observed of the page. -/
namespace BrowserHive.Worker

open BrowserHive

structure WaitOptions where
  strategy : Option String
  timeoutMs : Option Nat
  deriving DecidableEq, Repr

/-- The fields of `ScrapePageRequest` that decide how it is handled. `hasDomain` tells
whether `extract_domain` accepts the url. -/
structure Request where
  hasDomain : Bool
  contextId : Option ContextId
  waitStrategy : String
  waitTimeoutMs : Nat
  wait : Option WaitOptions
  deriving DecidableEq, Repr

structure ResolvedWait where
  strategy : String
  timeoutMs : Nat
  deriving DecidableEq, Repr

/-- A set field of `wait` overrides its flat counterpart. -/
def Request.resolvedWait (req : Request) : ResolvedWait where
  strategy := (req.wait.bind WaitOptions.strategy).getD req.waitStrategy
  timeoutMs := (req.wait.bind WaitOptions.timeoutMs).getD req.waitTimeoutMs

def maxWaitTimeoutMs : Nat := 40000

/-- The names in the `WaitStrategyRegistry`. -/
def waitStrategies : List String := ["network_idle","timeout"]

/-- Why `scrape_page_internal` answers with a gRPC status instead of a response. -/
inductive Status where
  | invalidWaitTimeout (timeoutMs : Nat)
  | unknownWaitStrategy (strategy : String)
  deriving DecidableEq, Repr

def validateTimeout (timeoutMs : Nat) : Except Status Unit :=
  if timeoutMs > maxWaitTimeoutMs then .error (.invalidWaitTimeout timeoutMs) else .ok ()

def validateStrategy (strategy : String) : Except Status Unit :=
  if strategy = "" ∨ strategy ∈ waitStrategies then .ok () else .error (.unknownWaitStrategy strategy)

def Request.validateWait (req : Request) : Except Status Unit := do
  validateTimeout req.resolvedWait.timeoutMs
  validateStrategy req.resolvedWait.strategy

inductive ErrorCode where
  | none
  | browserError
  | networkError
  | contextCreationFailed
  | terminating
  | proxyError
  | capacityExhausted
  | pageLoadIncomplete
  | invalidUrl
  | sessionNotFound
  | sessionBusy
  | timeoutBrowser
  | selectorNotFound
  | skipSelectorFound
  | redirectToAnotherDomain
  deriving DecidableEq, Repr

def ErrorCode.code : ErrorCode → Nat
  | .none => 0
  | .browserError => 5003
  | .networkError => 5004
  | .contextCreationFailed => 5005
  | .terminating => 5006
  | .proxyError => 5007
  | .capacityExhausted => 5008
  | .pageLoadIncomplete => 5009
  | .invalidUrl => 4001
  | .sessionNotFound => 4002
  | .sessionBusy => 4004
  | .timeoutBrowser => 4041
  | .selectorNotFound => 4042
  | .skipSelectorFound => 4043
  | .redirectToAnotherDomain => 4050

/-- The fields of `ScrapePageResponse` that a client acts on. -/
structure Reply where
  success : Bool
  statusCode : Nat
  errorCode : ErrorCode
  contextId : Option ContextId
  deriving DecidableEq, Repr

abbrev Result := Except Status Reply

def Reply.failure (errorCode : ErrorCode) (contextId : Option ContextId) : Reply :=
  ⟨false,0,errorCode,contextId⟩

def isFailure : Result → Bool
  | .ok reply => !reply.success
  | .error _ => false

def tells : Result → Option ContextId
  | .ok reply => reply.contextId
  | .error _ => none

def addressableContextId (mode : SessionMode) (c : ContextId) : Option ContextId :=
  if mode.returnsSessionId then some c else none

/-- Statuses with which an origin refuses the session. -/
def shouldExitEarly (statusCode : Nat) : Bool := statusCode = 403 || statusCode = 429

inductive Navigation where
  | loaded
  | proxyFailed
  | failed
  deriving DecidableEq, Repr

inductive WaitResult where
  | success
  | skipSelectorFound
  | waitSelectorNotFound
  | failed
  deriving DecidableEq, Repr

structure Page where
  navigation : Navigation
  redirected : Bool
  wait : WaitResult
  proxyFailures : Bool
  incomplete : Bool
  statusCode : Nat
  deriving DecidableEq, Repr

/-- Navigation error before off-domain redirect before wait result. -/
def Page.outcome (page : Page) : ErrorCode :=
  match page.navigation with
  | .proxyFailed => .proxyError
  | .failed => .networkError
  | .loaded =>
    if page.redirected then .redirectToAnotherDomain
    else match page.wait with
      | .success => .none
      | .skipSelectorFound => .skipSelectorFound
      | .waitSelectorNotFound => .selectorNotFound
      | .failed => .timeoutBrowser

/-- Lost resource loads explain a missing selector or a timeout. -/
def Page.blameProxy (page : Page) (code : ErrorCode) : ErrorCode :=
  if page.proxyFailures ∧ (code = .selectorNotFound ∨ code = .timeoutBrowser) then .proxyError else code

/-- A selector missing from a page that never finished loading says nothing about it. -/
def Page.blameLoad (page : Page) (code : ErrorCode) : ErrorCode :=
  if page.incomplete ∧ code = .selectorNotFound then .pageLoadIncomplete else code

def Page.reply (page : Page) (contextId : Option ContextId) : Reply where
  success := page.outcome = .none
  statusCode := page.statusCode
  errorCode := page.blameLoad (page.blameProxy page.outcome)
  contextId := contextId

end BrowserHive.Worker
