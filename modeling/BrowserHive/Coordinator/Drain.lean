import BrowserHive.Lib.Tasks
import BrowserHive.Coordinator.Labels

/-! Shutting the coordinator down: the token is cancelled, and the requests that were counted
are waited for, however long they take, while others arrive and end in any order. -/
namespace BrowserHive.Coordinator

open Transition

def drainInterval : Nat := 500000000

inductive Closing where
  | waiting
  | signalled
  | counting
  | head
  | sleeping (wake : Nat)
  | returned
  deriving DecidableEq, Repr

def Closing.begun : Closing → Bool
  | .waiting | .signalled => false
  | _ => true

/-- The coordinator and its shutdown. `guards` tells of each request whether its
`ActiveRequestGuard` is alive: it is the last thing of a request to be dropped. -/
structure Draining where
  coordinator : State
  activeRequests : Nat
  guards : List Bool
  task : Closing

inductive DrainAction where
  | act (a : Action)
  | unguard (i : Nat)
  | task

namespace Draining

def taskNext (s : Draining) : Option Draining :=
  match s.task with
  | .waiting => some { s with task := .signalled }
  | .signalled =>
    some { s with
      coordinator.shared.cancelled := true
      task := .counting }
  | .counting => some { s with task := if s.activeRequests > 0 then .head else .returned }
  | .head =>
    some { s with
      task := if s.activeRequests = 0 then .returned else .sleeping (s.coordinator.shared.now + drainInterval) }
  | .sleeping wake => if wake ≤ s.coordinator.shared.now then some { s with task := .head } else none
  | .returned => none

/-- Nobody but the shutdown cancels the token. -/
def step (fleet : Fleet) (s : Draining) : DrainAction → Option Draining
  | .act .cancel => none
  | .act (.arrive req) =>
    (openStep fleet s.coordinator (.arrive req)).map fun coordinator =>
      { s with
        coordinator := coordinator
        activeRequests := s.activeRequests + 1
        guards := s.guards ++ [true] }
  | .act a => (openStep fleet s.coordinator a).map fun coordinator => { s with coordinator := coordinator }
  | .unguard i =>
    match s.coordinator.handlers[i]?,s.guards[i]? with
    | some h,some true =>
      if h.pc.ended then some { s with activeRequests := s.activeRequests - 1, guards := s.guards.set i false }
      else none
    | _,_ => none
  | .task => s.taskNext

end Draining

def draining (fleet : Fleet) : Machine Draining DrainAction := ⟨⟨fleet.initial,0,[],.waiting⟩,Draining.step fleet⟩

def guardWeight : Bool → Nat
  | true => 1
  | false => 0

def turnedAway : ScrapePageResponse :=
  ⟨false,0,"Coordinator is shutting down, please retry",ErrorCode.terminating.code,"","",""⟩

def Pc.outside : Pc → Bool
  | .arrived | .responded _ | .refused | .dropped => true
  | _ => false

structure Draining.Sane (s : Draining) : Prop where
  counted : s.activeRequests = Tasks.weigh guardWeight s.guards
  each : s.guards.length = s.coordinator.handlers.length
  held : ∀ (i : Nat) (h : Handler), s.coordinator.handlers[i]? = some h → h.pc.ended = false → s.guards[i]? = some true
  cancelled : s.task.begun = true → s.coordinator.shared.cancelled = true
  drained : s.task = .returned → ∀ h ∈ s.coordinator.handlers, h.pc.outside = true
  fresh : ∀ h ∈ s.coordinator.handlers, h.pc = .arrived → h.trail = []

inductive Acted (s : Draining) : Draining → Prop where
  | request (here : s.coordinator.handlers[i]? = some h) (moved : Move s.coordinator.shared h (shared,h')) :
      Acted s { s with coordinator := ⟨shared,s.coordinator.handlers.set i h'⟩ }
  | arrive (req : ScrapePageRequest) :
      Acted s { s with
        coordinator.handlers := s.coordinator.handlers ++ [.new req s.coordinator.shared.now]
        activeRequests := s.activeRequests + 1
        guards := s.guards ++ [true] }
  | background (cancelled : shared.cancelled = s.coordinator.shared.cancelled)
      (inFlight : shared.inFlight = s.coordinator.shared.inFlight) :
      Acted s { s with coordinator.shared := shared }

section Steps

variable {fleet : Fleet} {c c' : Shared} {h h' : Handler} {s t : Draining}

theorem Pc.outside_of_ended {pc : Pc} (ended : pc.ended = true) : pc.outside = true := by
  cases pc <;> first | rfl | simp [Pc.ended] at ended

theorem Move.not_arrived (moved : Move c h (c',h')) : h'.pc ≠ .arrived := by
  cases moved with
  | select _ _ _ _ full => rcases full with ⟨rfl,_⟩ | ⟨rfl,_⟩ <;> rintro ⟨⟩
  | judge _ judged => cases judged <;> rintro ⟨⟩
  | retry _ retried => cases retried <;> rintro ⟨⟩
  | respond _ responded => cases responded <;> rintro ⟨⟩
  | _ => rintro ⟨⟩

/-- Once the token is cancelled, a request that has not looked at it is turned away. -/
theorem Move.turned_away (moved : Move c h (c',h')) (cancelled : c.cancelled = true) (outside : h.pc.outside = true) :
    h.pc = .arrived ∧ c'.inFlight = c.inFlight ∧ c'.sessions = c.sessions ∧ h'.trail = h.trail ∧
      (h'.pc = .dropped ∨ h'.pc = .responded turnedAway) := by
  have at_ : h.pc = .arrived := by
    have going := moved.ongoing
    cases pc : h.pc <;> simp_all [Pc.outside,Pc.ended]
  refine ⟨at_,?_⟩
  cases moved with
  | accept _ serving => simp [cancelled] at serving
  | refuse why =>
    cases why with
    | terminating => exact ⟨rfl,rfl,rfl,.inr rfl⟩
    | _ => simp_all
  | drop =>
    refine ⟨?_,?_,rfl,.inl rfl⟩ <;> simp [Shared.release,Handler.occupies,at_,Pc.occupies,Shared.sample]
  | judge there => rcases there with there | ⟨_,there⟩ <;> simp [at_] at there
  | _ => simp_all

theorem acted (taken : (draining fleet).step s (.act a) = some t) : Acted s t := by
  cases a with
  | cancel => cases taken
  | arrive req =>
    obtain rfl := Option.some.inj taken
    exact .arrive req
  | advance i event =>
    obtain ⟨_,opened,rfl⟩ := Option.map_eq_some_iff.mp taken
    obtain ⟨h,shared,h',here,moved,rfl⟩ := take_cases (fun shared h => next shared h event) opened
    exact .request here (next_move moved)
  | drop i =>
    obtain ⟨_,opened,rfl⟩ := Option.map_eq_some_iff.mp taken
    obtain ⟨h,shared,h',here,moved,rfl⟩ := take_cases dropNext opened
    exact .request here (drop_move moved)
  | discover pods =>
    obtain ⟨_,moved,rfl⟩ := Option.map_eq_some_iff.mp taken
    simp only [openStep] at moved
    split at moved
    · obtain rfl := Option.some.inj moved
      exact .background rfl rfl
    · contradiction
  | publish =>
    obtain ⟨_,moved,rfl⟩ := Option.map_eq_some_iff.mp taken
    obtain ⟨_,_,rfl⟩ := Option.map_eq_some_iff.mp moved
    exact .background rfl rfl
  | tick | monitor | cleanup =>
    obtain rfl := Option.some.inj taken
    exact .background rfl rfl

theorem Draining.Sane.initial : (draining fleet).initial.Sane := by
  constructor <;> simp [draining,Fleet.initial,Closing.begun]

theorem Draining.Sane.act (sane : s.Sane) (acted : Acted s t) : t.Sane := by
  obtain ⟨counted,each,held,cancelled,drained,fresh⟩ := sane
  cases acted with
  | request here moved =>
    refine ⟨counted,by simpa using each,fun j h at_ going => ?_,fun begun => ?_,fun returned h member => ?_,
      fun h member at_ => ?_⟩
    · rcases Tasks.getElem?_set_cases here at_ with ⟨rfl,rfl⟩ | ⟨_,old⟩
      · exact held j _ here moved.ongoing
      · exact held j h old going
    · exact moved.frame.cancelled.trans (cancelled begun)
    · rcases List.mem_or_eq_of_mem_set member with old | rfl
      · exact drained returned h old
      · have begun : s.task.begun = true := by
          rw [show s.task = .returned from returned]
          rfl
        have away := moved.turned_away (cancelled begun) (drained returned _ (List.mem_of_getElem? here))
        rcases away.2.2.2.2 with settled | settled <;>
          simp [settled,Pc.outside]
    · rcases List.mem_or_eq_of_mem_set member with old | rfl
      · exact fresh h old at_
      · exact absurd at_ moved.not_arrived
  | arrive req =>
    refine ⟨by simp [counted,guardWeight],by simp [each],fun j h at_ going => ?_,cancelled,fun returned h member => ?_,
      fun h member at_ => ?_⟩
    · rcases Tasks.getElem?_append_cases at_ with old | ⟨rfl,rfl⟩
      · have bound := (List.getElem?_eq_some_iff.mp (held j h old going)).1
        exact (List.getElem?_append_left bound).trans (held j h old going)
      · simp [← each]
    · rcases List.mem_append.mp member with old | new
      · exact drained returned h old
      · obtain rfl := List.mem_singleton.mp new
        rfl
    · rcases List.mem_append.mp member with old | new
      · exact fresh h old at_
      · obtain rfl := List.mem_singleton.mp new
        rfl
  | background same inFlight => exact ⟨counted,each,held,fun begun => same.trans (cancelled begun),drained,fresh⟩

theorem Draining.Sane.unguard (sane : s.Sane) (taken : (draining fleet).step s (.unguard i) = some t) : t.Sane := by
  obtain ⟨counted,each,held,cancelled,drained,fresh⟩ := sane
  simp only [draining,Draining.step] at taken
  split at taken
  · next h here alive =>
    split at taken
    · next ended =>
      obtain rfl := Option.some.inj taken
      refine ⟨?_,by simpa using each,fun j g at_ going => ?_,cancelled,drained,fresh⟩
      · have moved := Tasks.weigh_set (w := guardWeight) alive false
        simp only [guardWeight] at moved
        simp only
        omega
      · have apart : i ≠ j := by
          rintro rfl
          obtain rfl := Option.some.inj (here.symm.trans at_)
          simp [ended] at going
        simpa [apart] using held j g at_ going
    · contradiction
  · contradiction

/-- No counted guard means no request past its look at the token. -/
theorem Draining.Sane.idle (sane : s.Sane) (none_ : s.activeRequests = 0) :
    ∀ h ∈ s.coordinator.handlers, h.pc.outside = true := by
  intro h member
  obtain ⟨i,here⟩ := List.mem_iff_getElem?.mp member
  by_contra inside
  have alive : s.guards[i]? = some true := by
    refine sane.held i h here ?_
    by_contra ended
    exact inside (Pc.outside_of_ended (by simpa using ended))
  have weight := Tasks.weigh_eq_zero_iff.mp (sane.counted ▸ none_) i true alive
  simp [guardWeight] at weight

theorem Draining.Sane.close (sane : s.Sane) (taken : s.taskNext = some t) : t.Sane := by
  have idle := sane.idle
  obtain ⟨counted,each,held,cancelled,drained,fresh⟩ := sane
  unfold Draining.taskNext at taken
  split at taken
  · obtain rfl := Option.some.inj taken
    exact ⟨counted,each,held,by rintro ⟨⟩,by rintro ⟨⟩,fresh⟩
  · obtain rfl := Option.some.inj taken
    exact ⟨counted,each,held,fun _ => rfl,by rintro ⟨⟩,fresh⟩
  · next at_ =>
    obtain rfl := Option.some.inj taken
    refine ⟨counted,each,held,fun _ => cancelled (by simp [at_,Closing.begun]),fun returned => idle ?_,fresh⟩
    simp only at returned
    split at returned
    · cases returned
    · next none_ => exact Nat.eq_zero_of_not_pos none_
  · next at_ =>
    obtain rfl := Option.some.inj taken
    refine ⟨counted,each,held,fun _ => cancelled (by simp [at_,Closing.begun]),fun returned => idle ?_,fresh⟩
    simp only at returned
    split at returned
    · next none_ => exact none_
    · cases returned
  · next wake at_ =>
    split at taken
    · obtain rfl := Option.some.inj taken
      exact ⟨counted,each,held,fun _ => cancelled (by simp [at_,Closing.begun]),by rintro ⟨⟩,fresh⟩
    · contradiction
  · contradiction

theorem Draining.Sane.step (sane : s.Sane) (taken : (draining fleet).step s a = some t) : t.Sane := by
  cases a with
  | act a => exact sane.act (acted taken)
  | unguard i => exact sane.unguard taken
  | task => exact sane.close taken

/-- What is left of the requests once the shutdown has returned. -/
structure Quiet (s t : Draining) : Prop where
  returned : t.task = .returned
  inFlight : t.coordinator.shared.inFlight = s.coordinator.shared.inFlight
  settled : ∀ (i : Nat) (h : Handler), s.coordinator.handlers[i]? = some h → h.pc.ended = true →
    t.coordinator.handlers[i]? = some h
  away : ∀ (i : Nat) (h : Handler), t.coordinator.handlers[i]? = some h →
    (s.coordinator.handlers[i]? = some h ∧ h.pc.ended = true) ∨
      h.trail = [] ∧ (h.pc = .arrived ∨ h.pc = .dropped ∨ h.pc = .responded turnedAway)

theorem Draining.Sane.quiet (sane : s.Sane) (returned : s.task = .returned) : Quiet s s := by
  refine ⟨returned,rfl,fun _ _ here _ => here,fun i h here => ?_⟩
  have member := List.mem_of_getElem? here
  have outside := sane.drained returned h member
  by_cases at_ : h.pc = .arrived
  · exact .inr ⟨sane.fresh h member at_,.inl at_⟩
  · refine .inl ⟨here,?_⟩
    cases pc : h.pc <;> simp_all [Pc.outside,Pc.ended]

theorem Quiet.act (quiet : Quiet s t) (sane : t.Sane) (acted : Acted t u) : Quiet s u := by
  obtain ⟨returned,inFlight,settled,away⟩ := quiet
  have cancelled : t.coordinator.shared.cancelled = true := sane.cancelled (by rw [returned]; rfl)
  cases acted with
  | @request i h shared h' here moved =>
    obtain ⟨at_,same,_,trail,left⟩ :=
      moved.turned_away cancelled (sane.drained returned _ (List.mem_of_getElem? here))
    refine ⟨returned,same.trans inFlight,fun j g before ended => ?_,fun j g later => ?_⟩
    · have apart : i ≠ j := by
        rintro rfl
        obtain rfl := Option.some.inj (here.symm.trans (settled i g before ended))
        simp [at_,Pc.ended] at ended
      simpa [apart] using settled j g before ended
    · rcases Tasks.getElem?_set_cases here later with ⟨rfl,rfl⟩ | ⟨_,old⟩
      · exact .inr ⟨trail.trans (sane.fresh h (List.mem_of_getElem? here) at_),.inr left⟩
      · exact away j g old
  | arrive req =>
    refine ⟨returned,inFlight,fun j g before ended => ?_,fun j g later => ?_⟩
    · have there := settled j g before ended
      exact (List.getElem?_append_left (List.getElem?_eq_some_iff.mp there).1).trans there
    · rcases Tasks.getElem?_append_cases later with old | ⟨_,rfl⟩
      · exact away j g old
      · exact .inr ⟨rfl,.inl rfl⟩
  | background _ same => exact ⟨returned,same.trans inFlight,settled,away⟩

theorem Quiet.step (quiet : Quiet s t) (sane : t.Sane) (taken : (draining fleet).step t a = some u) : Quiet s u := by
  cases a with
  | act a => exact quiet.act sane (acted taken)
  | unguard i =>
    simp only [draining,Draining.step] at taken
    split at taken
    · split at taken
      · obtain rfl := Option.some.inj taken
        exact ⟨quiet.returned,quiet.inFlight,quiet.settled,quiet.away⟩
      · contradiction
    · contradiction
  | task =>
    simp only [draining,Draining.step,Draining.taskNext,quiet.returned] at taken
    contradiction

end Steps

theorem sane_of_reachable {fleet : Fleet} {s : Draining} (run : (draining fleet).Reachable s) : s.Sane :=
  run.invariant Draining.Sane.initial (fun _ _ _ _ sane taken => sane.step taken)

theorem quiet_exec {fleet : Fleet} {s t u : Draining} (quiet : Quiet s t) (sane : t.Sane)
    (ran : (draining fleet).exec actions t = some u) : Quiet s u := by
  induction actions generalizing t with
  | nil => exact Option.some.inj ran ▸ quiet
  | cons a rest ih =>
    obtain ⟨mid,taken,later⟩ := Option.bind_eq_some_iff.mp ran
    exact ih (quiet.step sane taken) (sane.step taken) later

/-- In every run: the shutdown has counted each request whose guard is alive, and once it has
returned, no request is past its look at the token, now or later. What was answered stays so,
what arrives is turned away, and no worker is called or counted busy for it. -/
theorem drained_for_good {fleet : Fleet} {s t : Draining} (run : (draining fleet).Reachable s) :
    s.activeRequests = s.guards.countP id ∧
      (s.task = .returned → (draining fleet).exec actions s = some t → Quiet s t) := by
  have sane := sane_of_reachable run
  refine ⟨?_,fun returned ran => quiet_exec (sane.quiet returned) sane ran⟩
  rw [sane.counted]
  generalize s.guards = guards
  induction guards with
  | nil => rfl
  | cons alive rest ih =>
    cases alive with
    | true => simp [guardWeight,ih,Nat.add_comm]
    | false => simp [guardWeight,ih]

def lateArrival : List DrainAction :=
  [.act (.discover [.ready "web-0" "web" 1]),.act (.monitor ["web-0"]),.act (.arrive (.page "web" ""))] ++
    (dispatched 0).map .act ++
    [.task,.task,.task,.task,.act (.advance 0 (.answered ⟨true,200,"",0,""⟩)),.act (.advance 0 .go),.unguard 0,
      .act (.tick drainInterval),.task,.task]

theorem drained_for_good_late_arrival : ∃ s t, (draining (.discovered fun _ => "web")).exec lateArrival
      (draining (.discovered fun _ => "web")).initial = some s ∧
    (draining (.discovered fun _ => "web")).exec [.act (.arrive (.page "web" "")),.act (.advance 1 .go)] s = some t ∧
    (t.coordinator.handlers[1]?).map Handler.pc = some (.responded turnedAway) ∧ Quiet s t := by
  obtain ⟨s,t,ran,returned,later,away⟩ : ∃ s t, (draining (.discovered fun _ => "web")).exec lateArrival
        (draining (.discovered fun _ => "web")).initial = some s ∧ s.task = .returned ∧
      (draining (.discovered fun _ => "web")).exec [.act (.arrive (.page "web" "")),.act (.advance 1 .go)] s = some t ∧
      (t.coordinator.handlers[1]?).map Handler.pc = some (.responded turnedAway) := ⟨_,_,rfl,rfl,rfl,rfl⟩
  exact ⟨s,t,ran,later,away,(drained_for_good (Machine.reachable_of_exec ran)).2 returned later⟩

end BrowserHive.Coordinator
