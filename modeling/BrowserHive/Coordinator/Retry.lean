import BrowserHive.Worker.Response
import BrowserHive.Coordinator.Discovery

/-! Which worker answers are sent to another pod, the time a client grants, and how
requests that never reach a worker are refused. Times are in nanoseconds. -/
namespace BrowserHive.Coordinator

def seconds (n : Nat) : Nat := n * 1000000000

def grpcRequestTimeout : Nat := seconds 320

/-- A client that does not set its timeout sends 0. -/
def clientBudget (timeoutSeconds : Nat) : Nat :=
  if timeoutSeconds = 0 then grpcRequestTimeout else seconds timeoutSeconds

def minRetryTimeRemaining : Nat := seconds 10

def maxTerminatingAttempts : Nat := 3

def maxCapacityAttempts : Nat := 2

def maxUnreachableAttempts : Nat := 2

inductive ErrorCode where
  | noWorkersAvailable
  | workerUnreachable
  | terminating
  | sessionNotFound
  | scopeNotFound
  deriving DecidableEq, Repr

def ErrorCode.code : ErrorCode → Int
  | .noWorkersAvailable => 5001
  | .workerUnreachable => 5002
  | .terminating => 5006
  | .sessionNotFound => 4002
  | .scopeNotFound => 4003

def capacityExhausted : Int := Worker.ErrorCode.capacityExhausted.code

inductive RetryReason where
  | terminating
  | noSlots
  | workerUnreachable
  deriving DecidableEq, Repr

structure RetryPlan where
  reason : RetryReason
  maxAttempts : Nat
  deriving DecidableEq, Repr

def classifyRetry (errorCode : Int) (noSession : Bool) : Option RetryPlan :=
  if errorCode = ErrorCode.terminating.code then some ⟨.terminating,maxTerminatingAttempts⟩
  else if errorCode = capacityExhausted ∧ noSession then some ⟨.noSlots,maxCapacityAttempts⟩
  else none

def classifyUnreachableRetry (noSession : Bool) : Option RetryPlan :=
  if noSession then some ⟨.workerUnreachable,maxUnreachableAttempts⟩ else none

inductive RejectReason where
  | scopeNotFound
  | noWorkers
  | scopeUnavailable
  | noSlots
  | sessionNotFound
  | terminating
  | workerUnreachable
  deriving DecidableEq, Repr

def classifyMissingScope (scopeName : String) (presence : Option ScopePresence) :
    RejectReason × ErrorCode × String :=
  match presence with
  | some presence =>
    (.scopeUnavailable,.noWorkersAvailable,
      "Scope " ++ scopeName ++ " is temporarily unavailable (" ++ presence.describe ++ "); retry shortly")
  | none => (.scopeNotFound,.scopeNotFound,"Scope not found: " ++ scopeName)

def unknownScope : String := "unknown"

def RejectReason.scopeIsUntrusted : RejectReason → Bool
  | .scopeNotFound => true
  | _ => false

/-- The per-request recorder; the sample is taken when it is dropped. -/
structure RequestMetrics where
  scope : String
  rejectReason : Option RejectReason
  deriving DecidableEq, Repr

namespace RequestMetrics

def new (scope : String) : RequestMetrics := ⟨scope,none⟩

def setScope (m : RequestMetrics) (scope : String) : RequestMetrics := { m with scope := scope }

def reject (m : RequestMetrics) (reason : RejectReason) : RequestMetrics :=
  { m with rejectReason := some reason }

/-- The scope label the drop records under. -/
def label (m : RequestMetrics) : String :=
  match m.rejectReason with
  | some reason => if reason.scopeIsUntrusted then unknownScope else m.scope
  | none => m.scope

end RequestMetrics

end BrowserHive.Coordinator
