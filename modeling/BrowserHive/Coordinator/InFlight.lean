import Mathlib.Algebra.GroupWithZero.Nat
import Mathlib.Logic.Function.Basic

/-! Requests the coordinator has sent to each worker pod and not yet seen answered, and
the free slots of a worker as the coordinator estimates them from the last discovery. -/
namespace BrowserHive.Coordinator

structure WorkerStats where
  totalContexts : Nat := 0
  availableSlots : Nat := 0
  activeRequests : Nat := 0
  totalRequests : Nat := 0
  deriving DecidableEq, Repr

structure WorkerEndpoint where
  podName : String
  podIp : String
  port : Nat
  scopeName : String
  stats : WorkerStats
  /-- Requests in flight to this pod when `stats` arrived. -/
  inFlightAtSnapshot : Nat
  isTerminating : Bool
  deriving DecidableEq, Repr

def WorkerEndpoint.address (w : WorkerEndpoint) : String :=
  "http://" ++ w.podIp ++ ":" ++ toString w.port

/-- The map of `InFlightTracker`: a pod has an entry while requests to it are counted. -/
abbrev InFlight := String → Option Nat

namespace InFlight

def empty : InFlight := fun _ => none

def current (m : InFlight) (pod : String) : Nat := (m pod).getD 0

def start (m : InFlight) (pod : String) : InFlight :=
  Function.update m pod (some (m.current pod + 1))

def finish (m : InFlight) (pod : String) : InFlight :=
  match m pod with
  | none => m
  | some count => Function.update m pod (if count - 1 = 0 then none else some (count - 1))

@[simp] theorem current_empty (pod : String) : empty.current pod = 0 := rfl

@[simp] theorem current_start (m : InFlight) (pod other : String) :
    (m.start pod).current other = m.current other + if other = pod then 1 else 0 := by
  by_cases same : other = pod
  · subst same
    simp [start,current]
  · simp [start,current,same]

/-- Dropping a guard takes one request off its own pod, and off no other. -/
@[simp] theorem current_finish (m : InFlight) (pod other : String) :
    (m.finish pod).current other = m.current other - if other = pod then 1 else 0 := by
  unfold finish
  cases entry : m pod with
  | none =>
    by_cases same : other = pod
    · subst same
      simp [current,entry]
    · simp [same]
  | some count =>
    by_cases same : other = pod
    · subst same
      by_cases last : count - 1 = 0 <;> simp [current,entry,last]
    · simp [current,same]

end InFlight

/-- `available_slots` corrected by what was dispatched and answered since the snapshot. -/
def effectiveFreeSlots (w : WorkerEndpoint) (inFlightNow : Nat) : Nat :=
  (w.stats.availableSlots + w.inFlightAtSnapshot) - inFlightNow

def InFlight.freeSlots (m : InFlight) (w : WorkerEndpoint) : Nat :=
  effectiveFreeSlots w (m.current w.podName)

end BrowserHive.Coordinator
