import BrowserHive.Worker.Moves

/-! The request counters of a worker: every handler bumps the total once it is accepted and
the failures at most once when it ends, and `get_stats` loads the two one after the other
and subtracts. The handlers are those of the worker machine; counting rides on their steps. -/
namespace BrowserHive.Worker

open BrowserHive Transition

def countsAsFailure (errorCode : Nat) : Bool :=
  if errorCode = ErrorCode.capacityExhausted.code then false else 5000 ≤ errorCode && errorCode < 6000

/-- `record_failed_if_5xxx` on a response; a gRPC status always counts. -/
def recordsFailure : Result → Bool
  | .ok reply => countsAsFailure reply.errorCode.code
  | .error _ => true

/-- A `get_stats` call: it loads the total, then the failures, and then the total again. -/
inductive StatsCall where
  | asked
  | loaded (total : Nat)
  | subtracted (total failed : Nat)
  | answered (total failed count : Nat)
  deriving DecidableEq, Repr

/-- `counted` and `failures` are ghosts: the handlers in the order they were counted, and
those counted as failed. -/
structure Counters where
  totalRequests : Nat
  failedRequests : Nat
  counted : List Nat
  failures : List Nat
  calls : List StatsCall

namespace Counters

def zero : Counters := ⟨0,0,[],[],[]⟩

def count (c : Counters) (i : Nat) : Counters :=
  { c with totalRequests := c.totalRequests + 1, counted := c.counted ++ [i] }

def fail (c : Counters) (i : Nat) : Counters :=
  { c with failedRequests := c.failedRequests + 1, failures := i :: c.failures }

/-- What a handler counts on its way from one program point to the next: the request, past
the check for termination, and a failure, when it ends with one after that. -/
def follow (c : Counters) (i : Nat) (terminating : Bool) (pc pc' : Pc) : Counters :=
  match pc,pc' with
  | .arrived,_ => if terminating then c else c.count i
  | _,.finishing result => if recordsFailure result then c.fail i else c
  | _,_ => c

def advance (c : Counters) (j : Nat) : Option Counters :=
  match c.calls[j]? with
  | some .asked => some { c with calls := c.calls.set j (.loaded c.totalRequests) }
  | some (.loaded total) => some { c with calls := c.calls.set j (.subtracted total c.failedRequests) }
  | some (.subtracted total failed) =>
    some { c with calls := c.calls.set j (.answered total failed c.totalRequests) }
  | _ => none

end Counters

structure Counting where
  worker : State
  counters : Counters

inductive CountingAction where
  | worker (action : Action)
  | getStats
  | advance (call : Nat)
  deriving DecidableEq

def Counters.after (c : Counters) (s t : State) : Action → Counters
  | .run i _ =>
    match s.handlers[i]?,t.handlers[i]? with
    | some h,some h' => c.follow i s.terminating h.pc h'.pc
    | _,_ => c
  | _ => c

def countingStep (scope : ValidScope) (s : Counting) : CountingAction → Option Counting
  | .worker action => (step scope s.worker action).map fun t => ⟨t,s.counters.after s.worker t action⟩
  | .getStats => some { s with counters := { s.counters with calls := s.counters.calls ++ [.asked] } }
  | .advance j => (s.counters.advance j).map fun counters => { s with counters := counters }

def counting (scope : ValidScope) : Machine Counting CountingAction :=
  ⟨⟨initial scope,.zero⟩,countingStep scope⟩

/-- `total - failed` did not go below zero in this call. -/
def StatsCall.Sound : StatsCall → Prop
  | .subtracted total failed | .answered total failed _ => failed ≤ total
  | _ => True

def NoUnderflow (s : Counting) : Prop :=
  ∀ (j : Nat) (call : StatsCall), s.counters.calls[j]? = some call → call.Sound

/-- When a call loads the failures: the requests counted since it loaded the total that have
failed are no more than those counted before that have not. -/
def FailuresAwaited (s : Counting) : CountingAction → Prop
  | .advance j => ∀ total, s.counters.calls[j]? = some (.loaded total) →
    (s.counters.counted.drop total).countP (· ∈ s.counters.failures) ≤
      (s.counters.counted.take total).countP (· ∉ s.counters.failures)
  | _ => True

def Pc.accepted : Pc → Bool
  | .arrived | .finishing _ | .returned _ | .dropped => false
  | _ => true

structure Tally (s : Counting) : Prop where
  total : s.counters.totalRequests = s.counters.counted.length
  failed : s.counters.failedRequests = s.counters.failures.length
  once : s.counters.counted.Nodup
  failedOnce : s.counters.failures.Nodup
  counted : ∀ i ∈ s.counters.failures, i ∈ s.counters.counted
  known : ∀ i ∈ s.counters.counted, i < s.worker.handlers.length
  arrived : ∀ i h, s.worker.handlers[i]? = some h → h.pc = .arrived → i ∉ s.counters.counted
  accepted : ∀ i h, s.worker.handlers[i]? = some h → h.pc.accepted = true →
    i ∈ s.counters.counted ∧ i ∉ s.counters.failures
  loaded : ∀ j total : Nat, s.counters.calls[j]? = some (.loaded total) → total ≤ s.counters.totalRequests

section Steps

variable {scope : ValidScope} {p pools : Pools} {h h' : Handler} {pc pc' : Pc} {c : Counters}

theorem Pc.accepted_granted (asks : pc.asks = some access) :
    pc.accepted = true ∧ pc.granted.accepted = true ∧ pc ≠ .arrived ∧ ∀ result, pc.granted ≠ .finishing result := by
  cases pc <;> simp_all [Pc.asks,Pc.accepted,Pc.granted]

theorem Pc.accepted_of_attempt (within : pc.attempt = some a) : pc.accepted = true := by
  cases pc <;> simp_all [Pc.attempt,Pc.accepted]

theorem Move.accepted (moved : Move scope p i h terminating pools h') (at_ : h.pc.accepted = true) :
    h'.pc.accepted = true ∨ ∃ result, h'.pc = .finishing result := by
  cases moved with
  | refuse at' | look at' | ask at' | leaveHandler at' => simp [at',Pc.accepted] at at_
  | echo | miss | retire | giveUp | settle => exact .inr ⟨_,rfl⟩
  | @create retry | @reuse retry => cases retry <;> exact .inl rfl
  | walk at' running inside plain attempts counted => exact .inl (Pc.accepted_of_attempt inside)
  | _ => exact .inl rfl

/-- A handler leaves its arrival, refused when the worker is terminating. -/
theorem arrived_next (moved : next scope p i h terminating choice = some (pools,h')) (at_ : h.pc = .arrived) :
    h'.pc ≠ .arrived ∧ (terminating = true → h'.pc.accepted = false) := by
  simp only [next,lookupNext,at_,finish,Handler.goto] at moved
  split at moved
  · obtain ⟨rfl,rfl⟩ := by simpa using moved
    simp [Pc.accepted]
  · next serving =>
    refine ⟨?_,fun stopping => absurd stopping serving⟩
    split at moved
    · obtain ⟨rfl,rfl⟩ := by simpa using moved
      simp
    · split at moved
      · obtain ⟨rfl,rfl⟩ := by simpa using moved
        simp
      · obtain ⟨rfl,rfl⟩ := by simpa using moved
        simp

theorem ended_next (moved : next scope p i h terminating choice = some (pools,h'))
    (past : h.pc.accepted = false) (left : h.pc ≠ .arrived) : ∃ result, h'.pc = .returned result := by
  cases at_ : h.pc with
  | finishing result =>
    simp only [next,finishNext,at_] at moved
    obtain ⟨rfl,rfl⟩ := by simpa using moved
    exact ⟨result,rfl⟩
  | returned result | dropped =>
    simp only [next,at_] at moved
    contradiction
  | arrived => exact absurd at_ left
  | _ => simp [at_,Pc.accepted] at past

theorem follow_arrived (at_ : pc = .arrived) :
    c.follow i terminating pc pc' = if terminating then c else c.count i := by
  subst at_
  rfl

/-- Nothing is counted of a handler that goes on. -/
theorem follow_going (left : pc ≠ .arrived) (goes : ∀ result, pc' ≠ .finishing result) :
    c.follow i terminating pc pc' = c := by
  unfold Counters.follow
  split
  · exact absurd rfl left
  · next result _ => exact absurd rfl (goes result)
  · rfl

theorem follow_ending (left : pc ≠ .arrived) (ends : pc' = .finishing result) :
    c.follow i terminating pc pc' = c ∨ c.follow i terminating pc pc' = c.fail i := by
  subst ends
  unfold Counters.follow
  split
  · exact absurd rfl left
  · split
    · exact .inr rfl
    · exact .inl rfl
  · exact .inl rfl

end Steps

inductive StatsCall.Loads (c : Counters) : StatsCall → StatsCall → Prop where
  | total : Loads c .asked (.loaded c.totalRequests)
  | failed : Loads c (.loaded total) (.subtracted total c.failedRequests)
  | count : Loads c (.subtracted total failed) (.answered total failed c.totalRequests)

theorem advance_loads {c c' : Counters} (moved : c.advance j = some c') : ∃ call call',
    c.calls[j]? = some call ∧ StatsCall.Loads c call call' ∧ c' = { c with calls := c.calls.set j call' } := by
  unfold Counters.advance at moved
  split at moved
  · next here => exact ⟨_,_,here,.total,(Option.some.inj moved).symm⟩
  · next total here => exact ⟨_,_,here,.failed,(Option.some.inj moved).symm⟩
  · next total failed here => exact ⟨_,_,here,.count,(Option.some.inj moved).symm⟩
  · contradiction

section Tally

variable {scope : ValidScope} {s : Counting} {w : State} {h h' : Handler}

theorem Tally.initial : Tally (counting scope).initial := by
  refine ⟨rfl,rfl,List.nodup_nil,List.nodup_nil,?_,?_,?_,?_,?_⟩ <;>
    simp [counting,Counters.zero,Worker.initial]

theorem Tally.quiet (tally : Tally s) (here : s.worker.handlers[i]? = some h)
    (handlers : w.handlers = s.worker.handlers.set i h') (left : h'.pc ≠ .arrived)
    (stays : h'.pc.accepted = true → h.pc.accepted = true) : Tally ⟨w,s.counters⟩ := by
  refine { tally with known := ?_, arrived := ?_, accepted := ?_ }
  · intro j member
    simpa [handlers] using tally.known j member
  · intro j k found at_
    rw [handlers] at found
    rcases Tasks.getElem?_set_cases here found with ⟨_,rfl⟩ | ⟨_,old⟩
    · exact absurd at_ left
    · exact tally.arrived j k old at_
  · intro j k found at_
    rw [handlers] at found
    rcases Tasks.getElem?_set_cases here found with ⟨rfl,rfl⟩ | ⟨_,old⟩
    · exact tally.accepted j h here (stays at_)
    · exact tally.accepted j k old at_

theorem Tally.count (tally : Tally s) (here : s.worker.handlers[i]? = some h) (at_ : h.pc = .arrived)
    (handlers : w.handlers = s.worker.handlers.set i h') (left : h'.pc ≠ .arrived) :
    Tally ⟨w,s.counters.count i⟩ := by
  have new := tally.arrived i h here at_
  have inside := (List.getElem?_eq_some_iff.mp here).1
  refine ⟨?_,tally.failed,?_,tally.failedOnce,?_,?_,?_,?_,?_⟩
  · simp [Counters.count,tally.total]
  · exact List.nodup_append.mpr ⟨tally.once,List.nodup_singleton i,by
      intro j member k same
      obtain rfl := List.mem_singleton.mp same
      rintro rfl
      exact new member⟩
  · exact fun j member => List.mem_append_left _ (tally.counted j member)
  · intro j member
    rw [handlers,List.length_set]
    rcases List.mem_append.mp member with old | same
    · exact tally.known j old
    · exact List.mem_singleton.mp same ▸ inside
  · intro j k found at'
    rw [handlers] at found
    rcases Tasks.getElem?_set_cases here found with ⟨_,rfl⟩ | ⟨apart,old⟩
    · exact absurd at' left
    · intro member
      rcases List.mem_append.mp member with before | same
      · exact tally.arrived j k old at' before
      · exact apart (List.mem_singleton.mp same)
  · intro j k found at'
    rw [handlers] at found
    rcases Tasks.getElem?_set_cases here found with ⟨rfl,rfl⟩ | ⟨_,old⟩
    · exact ⟨List.mem_append_right _ (List.mem_singleton.mpr rfl),fun failed => new (tally.counted j failed)⟩
    · obtain ⟨counted,live⟩ := tally.accepted j k old at'
      exact ⟨List.mem_append_left _ counted,live⟩
  · exact fun j total found => Nat.le_succ_of_le (tally.loaded j total found)

theorem Tally.fail (tally : Tally s) (here : s.worker.handlers[i]? = some h) (at_ : h.pc.accepted = true)
    (handlers : w.handlers = s.worker.handlers.set i h') (ends : h'.pc = .finishing result) :
    Tally ⟨w,s.counters.fail i⟩ := by
  obtain ⟨counted,live⟩ := tally.accepted i h here at_
  refine ⟨tally.total,?_,tally.once,List.nodup_cons.mpr ⟨live,tally.failedOnce⟩,?_,?_,?_,?_,tally.loaded⟩
  · simp [Counters.fail,tally.failed]
  · intro j member
    rcases List.mem_cons.mp member with rfl | old
    · exact counted
    · exact tally.counted j old
  · intro j member
    rw [handlers,List.length_set]
    exact tally.known j member
  · intro j k found at'
    rw [handlers] at found
    rcases Tasks.getElem?_set_cases here found with ⟨_,rfl⟩ | ⟨_,old⟩
    · simp [ends] at at'
    · exact tally.arrived j k old at'
  · intro j k found at'
    rw [handlers] at found
    rcases Tasks.getElem?_set_cases here found with ⟨_,rfl⟩ | ⟨apart,old⟩
    · simp [ends,Pc.accepted] at at'
    · obtain ⟨counted,live⟩ := tally.accepted j k old at'
      refine ⟨counted,fun member => ?_⟩
      rcases List.mem_cons.mp member with same | failed
      · exact apart same
      · exact live failed

theorem Tally.worker (tally : Tally s) (taken : step scope s.worker action = some w) :
    Tally ⟨w,s.counters.after s.worker w action⟩ := by
  cases step_steps taken with
  | arrive req =>
    refine { tally with known := ?_, arrived := ?_, accepted := ?_ }
    · intro j member
      exact Nat.lt_of_lt_of_le (tally.known j member) (by simp)
    · intro j k found at_ member
      rcases Tasks.getElem?_append_cases found with old | ⟨rfl,_⟩
      · exact tally.arrived j k old at_ member
      · exact Nat.lt_irrefl _ (tally.known _ member)
    · intro j k found at_
      rcases Tasks.getElem?_append_cases found with old | ⟨_,rfl⟩
      · exact tally.accepted j k old at_
      · cases at_
  | queue choice here asks out =>
    obtain ⟨accepted,_,left,_⟩ := Pc.accepted_granted asks
    simp only [Counters.after,here]
    rw [follow_going left fun result same => by simp [same,Pc.accepted] at accepted]
    exact { tally with }
  | @grant h access choice i here asks queued free =>
    obtain ⟨accepted,granted,left,goes⟩ := Pc.accepted_granted asks
    have inside := (List.getElem?_eq_some_iff.mp here).1
    have going : ∀ result, h.granted.pc ≠ .finishing result := goes
    simp only [Counters.after,here,List.getElem?_set_self inside]
    rw [follow_going left going]
    refine tally.quiet here rfl (fun same => ?_) (fun _ => accepted)
    have arrived : h.pc.granted = .arrived := same
    simp [arrived,Pc.accepted] at granted
  | @move h pools h' choice i here asks moved =>
    have inside := (List.getElem?_eq_some_iff.mp here).1
    simp only [Counters.after,here,List.getElem?_set_self inside]
    by_cases at_ : h.pc = .arrived
    · obtain ⟨left,refused⟩ := arrived_next moved at_
      rw [follow_arrived at_]
      split
      · next stopping =>
        refine tally.quiet here rfl left fun accepted => ?_
        simp [refused stopping] at accepted
      · exact tally.count here at_ rfl left
    · by_cases accepted : h.pc.accepted = true
      · rcases (next_move moved).accepted accepted with goes | ⟨result,ends⟩
        · rw [follow_going at_ fun result same => by simp [same,Pc.accepted] at goes]
          exact tally.quiet here rfl (fun same => by simp [same,Pc.accepted] at goes) (fun _ => accepted)
        · have recorded : s.counters.follow i s.worker.terminating h.pc h'.pc = s.counters ∨
              s.counters.follow i s.worker.terminating h.pc h'.pc = s.counters.fail i := follow_ending at_ ends
          rcases recorded with same | same
          · rw [same]
            exact tally.quiet here rfl (by simp [ends]) (fun _ => accepted)
          · rw [same]
            exact tally.fail here accepted rfl ends
      · obtain ⟨result,returned⟩ := ended_next moved (by simpa using accepted) at_
        rw [follow_going at_ (by simp [returned])]
        exact tally.quiet here rfl (by simp [returned]) (by simp [returned,Pc.accepted])
  | drop here suspends => exact tally.quiet here rfl (by simp) (by simp [Pc.accepted])
  | expire c | die | terminate => exact { tally with }

theorem Tally.step (tally : Tally s) (taken : (counting scope).step s action = some t) : Tally t := by
  cases action with
  | worker action =>
    obtain ⟨w,moved,rfl⟩ := Option.map_eq_some_iff.mp taken
    exact tally.worker moved
  | getStats =>
    obtain rfl := Option.some.inj taken
    refine { tally with loaded := fun j total found => ?_ }
    rcases Tasks.getElem?_append_cases found with old | ⟨_,new⟩
    · exact tally.loaded j total old
    · cases new
  | advance j =>
    obtain ⟨c,moved,rfl⟩ := Option.map_eq_some_iff.mp taken
    obtain ⟨call,call',here,loads,rfl⟩ := advance_loads moved
    refine { tally with loaded := fun k total found => ?_ }
    rcases Tasks.getElem?_set_cases here found with ⟨_,rfl⟩ | ⟨_,old⟩
    · cases loads
      exact Nat.le_refl _
    · exact tally.loaded k total old

/-- What a call finds when it loads the failures: they are no more than the total it holds
exactly when those counted too late for it are made up for by requests that have not failed. -/
theorem Tally.difference (tally : Tally s) (total : Nat) (before : total ≤ s.counters.totalRequests) :
    s.counters.failedRequests ≤ total ↔
      (s.counters.counted.drop total).countP (· ∈ s.counters.failures) ≤
        (s.counters.counted.take total).countP (· ∉ s.counters.failures) := by
  have within : total ≤ s.counters.counted.length := tally.total ▸ before
  have failed : s.counters.failedRequests = s.counters.counted.countP (· ∈ s.counters.failures) := by
    rw [tally.failed,List.countP_eq_length_filter]
    apply List.Perm.length_eq
    apply (List.perm_ext_iff_of_nodup tally.failedOnce (tally.once.filter _)).mpr
    intro i
    simp only [List.mem_filter,decide_eq_true_eq]
    exact ⟨fun member => ⟨tally.counted i member,member⟩,And.right⟩
  have split : s.counters.counted.countP (· ∈ s.counters.failures) =
      (s.counters.counted.take total).countP (· ∈ s.counters.failures) +
      (s.counters.counted.drop total).countP (· ∈ s.counters.failures) := by
    rw [← List.countP_append,List.take_append_drop]
  have early : (s.counters.counted.take total).countP (· ∈ s.counters.failures) +
      (s.counters.counted.take total).countP (· ∉ s.counters.failures) = total := by
    have whole := List.length_eq_countP_add_countP (· ∈ s.counters.failures) (l := s.counters.counted.take total)
    rw [List.length_take_of_le within] at whole
    simpa using whole.symm
  omega

end Tally

section Underflow

variable {scope : ValidScope} {s t : Counting}

@[simp] theorem Counters.follow_calls (c : Counters) : (c.follow i terminating pc pc').calls = c.calls := by
  unfold Counters.follow
  split
  · split <;> rfl
  · split <;> rfl
  · rfl

@[simp] theorem Counters.after_calls (c : Counters) (w w' : State) (action : Action) :
    (c.after w w' action).calls = c.calls := by
  unfold Counters.after
  split
  · split
    · exact Counters.follow_calls c
    · rfl
  · rfl

/-- Only the load of the failures decides whether a call is sound. -/
theorem loads_sound_iff {c : Counters} (loads : StatsCall.Loads c call call') (sound : call.Sound) :
    call'.Sound ↔ ∀ total, call = .loaded total → c.failedRequests ≤ total := by
  cases loads with
  | total => simp [StatsCall.Sound]
  | failed => simp [StatsCall.Sound]
  | count => simpa [StatsCall.Sound] using sound

theorem NoUnderflow.step (never : NoUnderflow s) (tally : Tally s) (awaited : FailuresAwaited s action)
    (taken : (counting scope).step s action = some t) : NoUnderflow t := by
  intro k call found
  cases action with
  | worker action =>
    obtain ⟨w,_,rfl⟩ := Option.map_eq_some_iff.mp taken
    exact never k call (by simpa using found)
  | getStats =>
    obtain rfl := Option.some.inj taken
    rcases Tasks.getElem?_append_cases found with old | ⟨_,rfl⟩
    · exact never k call old
    · trivial
  | advance j =>
    obtain ⟨c,moved,rfl⟩ := Option.map_eq_some_iff.mp taken
    obtain ⟨before,after,here,loads,rfl⟩ := advance_loads moved
    rcases Tasks.getElem?_set_cases here found with ⟨_,rfl⟩ | ⟨_,old⟩
    · apply (loads_sound_iff loads (never j before here)).mpr
      rintro total rfl
      exact (tally.difference total (tally.loaded j total here)).mpr (awaited total here)
    · exact never k call old

theorem NoUnderflow.broken (tally : Tally s) (overtaken : ¬FailuresAwaited s action)
    (taken : (counting scope).step s action = some t) : ¬NoUnderflow t := by
  intro never
  cases action with
  | worker action => exact overtaken trivial
  | getStats => exact overtaken trivial
  | advance j =>
    refine overtaken fun total here => ?_
    obtain ⟨c,moved,rfl⟩ := Option.map_eq_some_iff.mp taken
    obtain ⟨before,after,here',loads,rfl⟩ := advance_loads moved
    obtain rfl := Option.some.inj (here.symm.trans here')
    have inside := (List.getElem?_eq_some_iff.mp here).1
    have sound := never j after (List.getElem?_set_self inside)
    have bounded := (loads_sound_iff loads trivial).mp sound total rfl
    exact (tally.difference total (tally.loaded j total here)).mp bounded

end Underflow

/-- The counters never underflow in a run exactly when, at every load of the failures, the
failures of requests counted since the load of the total are made up for. -/
theorem counters_never_underflow_iff (scope : ValidScope) (actions : List CountingAction) :
    (counting scope).Along NoUnderflow actions (counting scope).initial ↔
      (counting scope).Meets FailuresAwaited actions (counting scope).initial := by
  refine Machine.along_iff_meets (I := Tally) (J := NoUnderflow) ?_ ?_ ?_ ?_ actions _ Tally.initial ?_
  · exact fun s a t tally taken => tally.step taken
  · exact fun s _ never => never
  · exact fun s a t tally never awaited taken => never.step tally awaited taken
  · exact fun s a t tally overtaken taken => NoUnderflow.broken tally overtaken taken
  · intro j call found
    simp [counting,Counters.zero] at found

def failsBetweenLoads : List CountingAction :=
  [.getStats,.advance 0] ++ [.worker (.arrive (Request.page none))] ++
    List.replicate 6 (.worker (.run 0 .go)) ++ [.worker (.run 0 .fail),.advance 0]

theorem counters_underflow : ∃ s,
    (counting (ValidScope.small .alwaysNew)).exec failsBetweenLoads
      (counting (ValidScope.small .alwaysNew)).initial = some s ∧
    s.counters.calls = [.subtracted 0 1] ∧ ¬NoUnderflow s := by
  have ran : ∃ s, (counting (ValidScope.small .alwaysNew)).exec failsBetweenLoads
      (counting (ValidScope.small .alwaysNew)).initial = some s ∧
      s.counters.calls = [.subtracted 0 1] := ⟨_,rfl,rfl⟩
  obtain ⟨s,ran,calls⟩ := ran
  refine ⟨s,ran,calls,fun never => ?_⟩
  have sound : 1 ≤ 0 := never 0 (.subtracted 0 1) (by rw [calls]; rfl)
  exact absurd sound (by decide)

end BrowserHive.Worker
