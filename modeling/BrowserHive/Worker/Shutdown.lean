import BrowserHive.Lib.Tasks
import BrowserHive.Lib.Transition

/-! Shutting a worker down: readiness is cleared, the requests in flight are waited for,
and what is left is cancelled, while requests arrive, are admitted and end in any order.
Times are in nanoseconds. -/
namespace BrowserHive.Worker.Shutdown

open Transition Tasks

def pollInterval : Nat := 500000000

/-- The pause `shutdown_signal` drains with. -/
def minUnroutablePause : Nat := 3000000000

inductive DrainOutcome where
  | drained
  | timedOut (remaining : Nat)
  | interrupted (remaining : Nat)
  deriving DecidableEq, Repr

structure Drain where
  start : Nat
  deadline : Nat
  pauseEnd : Nat
  deriving DecidableEq, Repr

def Drain.enter (minPause timeout now : Nat) : Drain :=
  ⟨now,now + timeout,now + min minPause timeout⟩

/-- One pass of the loop of `drain`: an outcome, or when to look again. -/
def Drain.pass (d : Drain) (now remaining : Nat) : DrainOutcome ⊕ Nat :=
  if remaining = 0 ∧ now ≥ d.pauseEnd then .inl .drained
  else if now ≥ d.deadline then .inl (.timedOut remaining)
  else .inr (min (now + pollInterval) d.deadline)

/-- A pass that does not return sets a later time, at the deadline at the latest. -/
theorem Drain.pass_wake {d : Drain} (again : d.pass now remaining = .inr wake) :
    now < wake ∧ wake ≤ d.deadline := by
  unfold Drain.pass at again
  split at again
  · cases again
  · split at again
    · cases again
    · next early =>
      obtain rfl := Sum.inr.inj again
      unfold pollInterval
      omega

/-- `drain` with exact timers: what it returns, and when, if its passes read these counts
and the interrupt fires as given, some time into the sleep of a pass with a count of its own. -/
def Drain.run (d : Drain) (readings : Nat → Nat) (interrupts : Nat → Option (Nat × Nat)) (k now : Nat) :
    DrainOutcome × Nat :=
  match _again : d.pass now (readings k) with
  | .inl outcome => (outcome,now)
  | .inr wake =>
    match interrupts k with
    | some (elapsed,remaining) =>
      if now + elapsed ≤ wake then (.interrupted remaining,now + elapsed)
      else d.run readings interrupts (k + 1) wake
    | none => d.run readings interrupts (k + 1) wake
termination_by d.deadline - now
decreasing_by
  all_goals
    have later := Drain.pass_wake _again
    omega

/-- A request's place between the counter and the readiness check. -/
inductive Request where
  | arrived
  | counted
  | checking
  | working
  | refused
  | gone
  deriving DecidableEq, Repr

def Request.guards : Request → Nat
  | .arrived | .gone => 0
  | _ => 1

inductive Task where
  | waiting
  | signalled
  | unready
  | head (d : Drain)
  | reading (d : Drain) (now : Nat)
  | sleeping (d : Drain) (wake : Nat)
  | returned (d : Drain) (outcome : DrainOutcome)
  | closing (d : Drain) (outcome : DrainOutcome)
  | closed (d : Drain) (outcome : DrainOutcome)
  deriving DecidableEq, Repr

def Task.outcome : Task → Option (Drain × DrainOutcome)
  | .returned d outcome | .closing d outcome | .closed d outcome => some (d,outcome)
  | _ => none

structure State where
  now : Nat
  isReady : Bool
  cancelled : Bool
  activeRequests : Nat
  requests : List Request
  task : Task

def State.inFlight (s : State) : Nat := weigh Request.guards s.requests

inductive Action where
  | tick (elapsed : Nat)
  | arrive
  | request (i : Nat)
  /-- The request ends, or its future is dropped. -/
  | leave (i : Nat)
  | task
  | interrupt
  deriving DecidableEq

/-- `scrape_page` up to its readiness check. -/
def requestNext (s : State) (i : Nat) : Request → Option State
  | .arrived =>
    some { s with activeRequests := s.activeRequests + 1, requests := s.requests.set i .counted }
  | .counted =>
    some { s with requests := s.requests.set i (if s.cancelled then .refused else .checking) }
  | .checking =>
    some { s with requests := s.requests.set i (if s.isReady then .working else .refused) }
  | _ => none

/-- `shutdown_signal`. The counter is read a step after the clock. -/
def taskNext (minPause timeout : Nat) (s : State) : Option State :=
  match s.task with
  | .waiting => some { s with task := .signalled }
  | .signalled => some { s with isReady := false, task := .unready }
  | .unready => some { s with task := .head (.enter minPause timeout s.now) }
  | .head d => some { s with task := .reading d s.now }
  | .reading d now =>
    match d.pass now s.activeRequests with
    | .inl outcome => some { s with task := .returned d outcome }
    | .inr wake => some { s with task := .sleeping d wake }
  | .sleeping d wake => if wake ≤ s.now then some { s with task := .head d } else none
  | .returned d outcome => some { s with cancelled := true, task := .closing d outcome }
  | .closing d outcome =>
    if s.activeRequests = 0 then some { s with task := .closed d outcome } else none
  | .closed .. => none

def step (minPause timeout : Nat) (s : State) : Action → Option State
  | .tick elapsed => some { s with now := s.now + elapsed }
  | .arrive => some { s with requests := s.requests ++ [.arrived] }
  | .request i => s.requests[i]?.bind (requestNext s i)
  | .leave i =>
    match s.requests[i]? with
    | some .counted | some .checking | some .working | some .refused =>
      some { s with activeRequests := s.activeRequests - 1, requests := s.requests.set i .gone }
    | _ => none
  | .task => taskNext minPause timeout s
  | .interrupt =>
    match s.task with
    | .sleeping d _ => some { s with task := .returned d (.interrupted s.activeRequests) }
    | _ => none

def initial : State := ⟨0,true,false,0,[],.waiting⟩

def machine (minPause timeout : Nat) : Machine State Action := ⟨initial,step minPause timeout⟩

variable {minPause timeout : Nat} {s t : State}

def Task.begun : Task → Bool
  | .waiting | .signalled => false
  | _ => true

def Task.draining : Task → Option Drain
  | .head d | .reading d _ | .sleeping d _ => some d
  | _ => none

def DrainOutcome.Reports (s : State) : DrainOutcome → Prop
  | .drained => s.inFlight = 0
  | .timedOut remaining | .interrupted remaining => remaining = s.inFlight

structure DrainContract (minPause timeout : Nat) (s : State) : Prop where
  /-- Once drained, no admitted request is running, now or later. -/
  drained : ∀ d, s.task.outcome = some (d,.drained) → .working ∉ s.requests
  paused : ∀ d, s.task.outcome = some (d,.drained) → d.start + min minPause timeout ≤ s.now
  /-- The step that returns reports the requests counted at that moment. -/
  reports : ∀ a t, step minPause timeout s a = some t → s.task.outcome = none →
    ∀ d outcome, t.task.outcome = some (d,outcome) → outcome.Reports t

structure Sound (minPause timeout : Nat) (s : State) : Prop where
  counted : s.activeRequests = s.inFlight
  ready : s.task.begun = true → s.isReady = false
  bounds : ∀ d, s.task.draining = some d → d = .enter minPause timeout d.start
  read : ∀ d now, s.task = .reading d now → now ≤ s.now
  drained : ∀ d, s.task.outcome = some (d,.drained) →
    .working ∉ s.requests ∧ d.start + min minPause timeout ≤ s.now

theorem Sound.initial : Sound minPause timeout initial := by
  constructor <;> simp [Shutdown.initial,State.inFlight,Task.begun,Task.draining,Task.outcome]

/-- A request's step moves the counter with its own place, and admits it only while ready. -/
theorem requestNext_cases (taken : requestNext s i r = some t) :
    ∃ r' active, t = { s with activeRequests := active, requests := s.requests.set i r' } ∧
      active + r.guards = s.activeRequests + r'.guards ∧ (r' = .working → s.isReady = true) := by
  cases r with
  | arrived => exact ⟨.counted,_,(Option.some.inj taken).symm,rfl,by simp⟩
  | counted => exact ⟨_,_,(Option.some.inj taken).symm,by split <;> rfl,by split <;> simp⟩
  | checking => exact ⟨_,_,(Option.some.inj taken).symm,by split <;> rfl,by split <;> simp_all⟩
  | _ => contradiction

theorem leave_cases (taken : step minPause timeout s (.leave i) = some t) :
    ∃ r, s.requests[i]? = some r ∧ r.guards = 1 ∧
      t = { s with activeRequests := s.activeRequests - 1, requests := s.requests.set i .gone } := by
  simp only [step] at taken
  split at taken
  · next here => exact ⟨_,here,rfl,(Option.some.inj taken).symm⟩
  · next here => exact ⟨_,here,rfl,(Option.some.inj taken).symm⟩
  · next here => exact ⟨_,here,rfl,(Option.some.inj taken).symm⟩
  · next here => exact ⟨_,here,rfl,(Option.some.inj taken).symm⟩
  · contradiction

/-- With no guard alive nothing is admitted and running. -/
theorem not_working (empty : s.inFlight = 0) : .working ∉ s.requests := by
  intro member
  obtain ⟨i,here⟩ := List.mem_iff_getElem?.mp member
  exact absurd (weigh_eq_zero_iff.mp empty i _ here) (by decide)

theorem Sound.request (sound : Sound minPause timeout s) (here : s.requests[i]? = some r)
    (taken : requestNext s i r = some t) : Sound minPause timeout t := by
  obtain ⟨r',active,rfl,guards,admitted⟩ := requestNext_cases taken
  refine { sound with counted := ?_, drained := fun d outcome => ?_ }
  · have moved := weigh_set (w := Request.guards) here r'
    have counted := sound.counted
    unfold State.inFlight at counted ⊢
    simp only
    omega
  · obtain ⟨idle,paused⟩ := sound.drained d outcome
    refine ⟨fun member => ?_,paused⟩
    rcases List.mem_or_eq_of_mem_set member with old | same
    · exact idle old
    · have begun : s.task.begun = true := by
        cases at_ : s.task <;> simp_all [Task.outcome,Task.begun]
      exact absurd (admitted same.symm) (by simp [sound.ready begun])

theorem Sound.leave (sound : Sound minPause timeout s) (here : s.requests[i]? = some r)
    (guards : r.guards = 1) : Sound minPause timeout
      { s with activeRequests := s.activeRequests - 1, requests := s.requests.set i .gone } := by
  refine { sound with counted := ?_, drained := fun d outcome => ?_ }
  · have moved := weigh_set (w := Request.guards) here .gone
    have gone : Request.gone.guards = 0 := rfl
    have counted := sound.counted
    unfold State.inFlight at counted ⊢
    simp only
    omega
  · obtain ⟨idle,paused⟩ := sound.drained d outcome
    refine ⟨fun member => ?_,paused⟩
    rcases List.mem_or_eq_of_mem_set member with old | same
    · exact idle old
    · cases same

/-- The outcome of a pass is the one its reading deserves. -/
theorem Drain.pass_outcome {d : Drain} (returned : d.pass now remaining = .inl outcome) :
    (outcome = .drained ∧ remaining = 0 ∧ d.pauseEnd ≤ now) ∨ outcome = .timedOut remaining := by
  unfold Drain.pass at returned
  split at returned
  · next empty => exact .inl ⟨(Sum.inl.inj returned).symm,empty⟩
  · split at returned
    · exact .inr (Sum.inl.inj returned).symm
    · cases returned

theorem Sound.task (sound : Sound minPause timeout s) (taken : taskNext minPause timeout s = some t) :
    Sound minPause timeout t := by
  obtain ⟨counted,ready,bounds,read,drained⟩ := sound
  unfold taskNext at taken
  split at taken
  · obtain rfl := Option.some.inj taken
    exact ⟨counted,by simp [Task.begun],by simp [Task.draining],by simp,by simp [Task.outcome]⟩
  · obtain rfl := Option.some.inj taken
    exact ⟨counted,fun _ => rfl,by simp [Task.draining],by simp,by simp [Task.outcome]⟩
  · next at_ =>
    obtain rfl := Option.some.inj taken
    refine ⟨counted,fun _ => ready (by simp [at_,Task.begun]),fun d same => ?_,by simp,by simp [Task.outcome]⟩
    obtain rfl := Option.some.inj same
    rfl
  · next d at_ =>
    obtain rfl := Option.some.inj taken
    refine ⟨counted,fun _ => ready (by simp [at_,Task.begun]),fun d' same => ?_,fun d' now same => ?_,
      by simp [Task.outcome]⟩
    · exact bounds d' (by simpa [at_,Task.draining] using same)
    · exact (Task.reading.inj same).2 ▸ Nat.le_refl _
  · next d now at_ =>
    have readAt : now ≤ s.now := read d now at_
    have entered : d = .enter minPause timeout d.start := bounds d (by simp [at_,Task.draining])
    have notReady : s.isReady = false := ready (by simp [at_,Task.begun])
    split at taken
    · next outcome returned =>
      obtain rfl := Option.some.inj taken
      refine ⟨counted,fun _ => notReady,by simp [Task.draining],by simp,fun d' same => ?_⟩
      obtain ⟨rfl,rfl⟩ := Prod.mk.injEq .. ▸ Option.some.inj same
      rcases Drain.pass_outcome returned with ⟨_,empty,late⟩ | timedOut
      · refine ⟨not_working (counted ▸ empty),?_⟩
        rw [entered] at late
        exact Nat.le_trans late readAt
      · cases timedOut
    · obtain rfl := Option.some.inj taken
      refine ⟨counted,fun _ => notReady,fun d' same => ?_,by simp,by simp [Task.outcome]⟩
      exact Option.some.inj same ▸ entered
  · next d wake at_ =>
    split at taken
    · obtain rfl := Option.some.inj taken
      refine ⟨counted,fun _ => ready (by simp [at_,Task.begun]),fun d' same => ?_,by simp,by simp [Task.outcome]⟩
      exact bounds d' (by simpa [at_,Task.draining] using same)
    · contradiction
  · next d outcome at_ =>
    obtain rfl := Option.some.inj taken
    refine ⟨counted,fun _ => ready (by simp [at_,Task.begun]),by simp [Task.draining],by simp,fun d' same => ?_⟩
    exact drained d' (by simpa [at_,Task.outcome] using same)
  · next d outcome at_ =>
    split at taken
    · obtain rfl := Option.some.inj taken
      refine ⟨counted,fun _ => ready (by simp [at_,Task.begun]),by simp [Task.draining],by simp,fun d' same => ?_⟩
      exact drained d' (by simpa [at_,Task.outcome] using same)
    · contradiction
  · contradiction

theorem Sound.step (sound : Sound minPause timeout s) (taken : Shutdown.step minPause timeout s a = some t) :
    Sound minPause timeout t := by
  cases a with
  | tick elapsed =>
    obtain rfl := Option.some.inj taken
    refine { sound with read := fun d now at_ => ?_, drained := fun d outcome => ?_ }
    · exact Nat.le_add_right_of_le (sound.read d now at_)
    · exact ⟨(sound.drained d outcome).1,Nat.le_add_right_of_le (sound.drained d outcome).2⟩
  | arrive =>
    obtain rfl := Option.some.inj taken
    refine { sound with counted := ?_, drained := fun d outcome => ?_ }
    · simpa [State.inFlight,Request.guards] using sound.counted
    · obtain ⟨idle,paused⟩ := sound.drained d outcome
      exact ⟨by simpa using idle,paused⟩
  | request i =>
    obtain ⟨r,here,moved⟩ := Option.bind_eq_some_iff.mp taken
    exact sound.request here moved
  | leave i =>
    obtain ⟨r,here,guards,rfl⟩ := leave_cases taken
    exact sound.leave here guards
  | task => exact sound.task taken
  | interrupt =>
    simp only [Shutdown.step] at taken
    split at taken
    · next d wake at_ =>
      obtain rfl := Option.some.inj taken
      refine ⟨sound.counted,fun _ => sound.ready (by simp [at_,Task.begun]),by simp [Task.draining],by simp,
        fun d' same => ?_⟩
      cases (Prod.mk.injEq .. ▸ Option.some.inj same).2
    · contradiction

/-- Only a pass or the interrupt returns from the drain. -/
theorem Sound.reports (sound : Sound minPause timeout s)
    (taken : Shutdown.step minPause timeout s a = some t) (before : s.task.outcome = none)
    (after : t.task.outcome = some (d,outcome)) : outcome.Reports t := by
  cases a with
  | tick elapsed =>
    obtain rfl := Option.some.inj taken
    exact absurd (before.symm.trans after) (by simp)
  | arrive =>
    obtain rfl := Option.some.inj taken
    exact absurd (before.symm.trans after) (by simp)
  | request i =>
    obtain ⟨r,here,moved⟩ := Option.bind_eq_some_iff.mp taken
    obtain ⟨r',active,rfl,_⟩ := requestNext_cases moved
    exact absurd (before.symm.trans after) (by simp)
  | leave i =>
    obtain ⟨r,here,guards,rfl⟩ := leave_cases taken
    exact absurd (before.symm.trans after) (by simp)
  | interrupt =>
    simp only [Shutdown.step] at taken
    split at taken
    · obtain rfl := Option.some.inj taken
      obtain ⟨rfl,rfl⟩ := Prod.mk.injEq .. ▸ Option.some.inj after
      exact sound.counted
    · contradiction
  | task =>
    simp only [Shutdown.step,taskNext] at taken
    split at taken
    · cases Option.some.inj taken
      cases after
    · cases Option.some.inj taken
      cases after
    · cases Option.some.inj taken
      cases after
    · cases Option.some.inj taken
      cases after
    · split at taken
      · next returned =>
        obtain rfl := Option.some.inj taken
        obtain ⟨rfl,rfl⟩ := Prod.mk.injEq .. ▸ Option.some.inj after
        rcases Drain.pass_outcome returned with ⟨rfl,empty,_⟩ | rfl
        · exact sound.counted ▸ empty
        · exact sound.counted
      · cases Option.some.inj taken
        cases after
    · split at taken
      · cases Option.some.inj taken
        cases after
      · contradiction
    · next at_ => simp [at_,Task.outcome] at before
    · next at_ => simp [at_,Task.outcome] at before
    · contradiction

/-- With exact timers the drain takes its steps at once, and sleeps no longer than it set. -/
def Exact (s : State) : Action → Prop
  | .tick elapsed =>
    match s.task with
    | .head _ | .reading .. => elapsed = 0
    | .sleeping _ wake => s.now + elapsed ≤ wake
    | _ => True
  | _ => True

def OnTime (s : State) : Prop :=
  match s.task with
  | .head d => s.now ≤ d.deadline
  | .reading d now => now = s.now ∧ s.now ≤ d.deadline
  | .sleeping d wake => s.now ≤ wake ∧ wake ≤ d.deadline
  | _ => True

theorem OnTime.task (onTime : OnTime s) (taken : taskNext minPause timeout s = some t) : OnTime t := by
  unfold taskNext at taken
  split at taken
  · exact Option.some.inj taken ▸ trivial
  · exact Option.some.inj taken ▸ trivial
  · exact Option.some.inj taken ▸ Nat.le_add_right ..
  · next d at_ =>
    simp only [OnTime,at_] at onTime
    exact Option.some.inj taken ▸ ⟨rfl,onTime⟩
  · next d now at_ =>
    simp only [OnTime,at_] at onTime
    split at taken
    · exact Option.some.inj taken ▸ trivial
    · next wake again =>
      obtain ⟨later,bound⟩ := Drain.pass_wake again
      exact Option.some.inj taken ▸ ⟨onTime.1 ▸ Nat.le_of_lt later,bound⟩
  · next d wake at_ =>
    simp only [OnTime,at_] at onTime
    split at taken
    · exact Option.some.inj taken ▸ Nat.le_trans onTime.1 onTime.2
    · contradiction
  · exact Option.some.inj taken ▸ trivial
  · split at taken
    · exact Option.some.inj taken ▸ trivial
    · contradiction
  · contradiction

theorem OnTime.step (onTime : OnTime s) (exact_ : Exact s a)
    (taken : Shutdown.step minPause timeout s a = some t) : OnTime t := by
  cases a with
  | tick elapsed =>
    obtain rfl := Option.some.inj taken
    cases at_ : s.task with
    | head d =>
      simp only [OnTime,Exact,at_] at onTime exact_ ⊢
      omega
    | reading d now =>
      simp only [OnTime,Exact,at_] at onTime exact_ ⊢
      omega
    | sleeping d wake =>
      simp only [OnTime,Exact,at_] at onTime exact_ ⊢
      omega
    | _ => simp [OnTime]
  | arrive => exact Option.some.inj taken ▸ onTime
  | request i =>
    obtain ⟨r,here,moved⟩ := Option.bind_eq_some_iff.mp taken
    obtain ⟨r',active,rfl,_⟩ := requestNext_cases moved
    exact onTime
  | leave i =>
    obtain ⟨r,here,guards,rfl⟩ := leave_cases taken
    exact onTime
  | task => exact onTime.task taken
  | interrupt =>
    simp only [Shutdown.step] at taken
    split at taken
    · exact Option.some.inj taken ▸ trivial
    · contradiction

theorem OnTime.draining (onTime : OnTime s) (draining : s.task.draining = some d) : s.now ≤ d.deadline := by
  cases at_ : s.task with
  | head d' | reading d' now | sleeping d' wake =>
    simp only [OnTime,at_] at onTime
    simp only [Task.draining,at_,Option.some.injEq] at draining
    subst draining
    omega
  | _ => simp [Task.draining,at_] at draining

/-- Whatever its passes read, a drain with exact timers returns by its deadline. -/
theorem Drain.run_by_deadline (d : Drain) (readings : Nat → Nat) (interrupts : Nat → Option (Nat × Nat))
    (k now : Nat) (inTime : now ≤ d.deadline) : (d.run readings interrupts k now).2 ≤ d.deadline := by
  fun_induction Drain.run d readings interrupts k now with
  | case1 k now outcome returned => simpa [returned] using inTime
  | case2 k now wake again elapsed remaining fires early => 
    exact Nat.le_trans early (pass_wake again).2
  | case3 k now wake again elapsed remaining fires late ih => exact ih (pass_wake again).2
  | case4 k now wake again fires ih => exact ih (pass_wake again).2

/-- What a drain promises, for every interleaving with the requests and every clock; with
exact timers also when it returns. -/
theorem drain_contract (minPause timeout : Nat) :
    (∀ s, (machine minPause timeout).Reachable s → DrainContract minPause timeout s) ∧
    (∀ s d, (machine minPause timeout).Reach Exact s → s.task.draining = some d → s.now ≤ d.deadline) ∧
    ∀ now readings interrupts,
      ((Drain.enter minPause timeout now).run readings interrupts 0 now).2 ≤ now + timeout := by
  refine ⟨fun s reached => ?_,fun s d reached draining => ?_,fun now readings interrupts => ?_⟩
  · have sound : Sound minPause timeout s :=
      Machine.Reachable.invariant Sound.initial (fun s a t _ sound taken => sound.step taken) reached
    exact ⟨fun d outcome => (sound.drained d outcome).1,fun d outcome => (sound.drained d outcome).2,
      fun a t taken before d outcome after => sound.reports taken before after⟩
  · have start : OnTime initial := trivial
    have onTime : OnTime s :=
      Machine.Reach.invariant start (fun s a t _ onTime met taken => onTime.step met taken) reached
    exact onTime.draining draining
  · exact Drain.run_by_deadline _ readings interrupts 0 now (Nat.le_add_right ..)

def lateRequest : List Action :=
  [.arrive,.request 0,.request 0,.request 0,.task,.task,.arrive,.request 1,.task,.task,.task,.leave 0,
    .request 1,.request 1,.leave 1,.tick minUnroutablePause,.task,.task,.task]

theorem drain_contract_late_request : ∃ s,
    (machine minUnroutablePause (5 * pollInterval)).exec lateRequest initial = some s ∧
    s.task = .returned (.enter minUnroutablePause (5 * pollInterval) 0) .drained ∧
    s.requests = [.gone,.gone] ∧ DrainContract minUnroutablePause (5 * pollInterval) s := by
  obtain ⟨s,ran,returned,gone⟩ : ∃ s,
      (machine minUnroutablePause (5 * pollInterval)).exec lateRequest initial = some s ∧
      s.task = .returned (.enter minUnroutablePause (5 * pollInterval) 0) .drained ∧
      s.requests = [.gone,.gone] := ⟨_,rfl,by decide,by decide⟩
  exact ⟨s,ran,returned,gone,(drain_contract _ _).1 s (Machine.reachable_of_exec ran)⟩

end BrowserHive.Worker.Shutdown
