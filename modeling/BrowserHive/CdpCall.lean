import BrowserHive.Lib.Transition
import BrowserHive.Lib.Oneshot

/-! `bounded_with_cleanup`: a blocking CDP call on its own thread, a oneshot channel and
a caller that may time out or be dropped. Every event is one atomic step of one party;
time is only the freedom to let the timer fire at any poll that finds nothing. -/
namespace BrowserHive.CdpCall

open Transition

variable {T E : Type} {timeout : Nat} {call : String}

def callTimeout : Nat := 30

inductive StallReason where
  | timedOut (after : Nat)
  | panicked
  deriving DecidableEq, Repr

structure StalledCall where
  call : String
  reason : StallReason
  deriving DecidableEq, Repr

/-- An error the browser answered with, or a call nobody answered. -/
inductive CallError (E : Type) where
  | answered (error : E)
  | stalled (stall : StalledCall)
  deriving Repr

/-- The blocking thread: inside `f`, holding its result, holding an orphan that no
receiver took, or gone. -/
inductive Thread (T E : Type) where
  | running
  | returned (result : Except E T)
  | orphaned (orphan : T)
  | finished
  | panicked
  deriving Repr

inductive Caller (T E : Type) where
  | waiting
  | expired
  | closed
  | returned (result : Except (CallError E) T)
  | dropped
  deriving Repr

/-- `made` and `cleaned` are ghosts: what the closure produced, and what the cleanup
function was called with. -/
structure State (T E : Type) where
  thread : Thread T E
  channel : Oneshot.Channel (Except E T)
  caller : Caller T E
  made : Option T
  cleaned : List T
  deriving Repr

inductive Event (T E : Type) where
  | closureReturns (result : Except E T)
  | closurePanics
  | send
  | cleanup
  | poll
  | elapse
  | close
  | tryRecv
  | dropCaller
  deriving Repr

def answer : Except E T → Except (CallError E) T
  | .ok v => .ok v
  | .error e => .error (.answered e)

def produced : Except E T → Option T
  | .ok v => some v
  | .error _ => none

def State.initial : State T E := ⟨.running, Oneshot.fresh, .waiting, none, []⟩

def step (timeout : Nat) (call : String) (s : State T E) : Event T E → Option (State T E)
  | .closureReturns result =>
    match s.thread with
    | .running => some { s with thread := .returned result, made := produced result }
    | _ => none
  | .closurePanics =>
    match s.thread with
    | .running => some { s with thread := .panicked }
    | _ => none
  | .send =>
    match s.thread with
    | .returned result =>
      match Oneshot.send s.channel result with
      | (channel, some (.ok orphan)) => some { s with thread := .orphaned orphan, channel := channel }
      | (channel, _) => some { s with thread := .finished, channel := channel }
    | _ => none
  | .cleanup =>
    match s.thread with
    | .orphaned orphan => some { s with thread := .finished, cleaned := s.cleaned ++ [orphan] }
    | _ => none
  | .poll =>
    -- `timeout` polls the receiver first; a sender dropped by a panic answers too
    match s.caller with
    | .waiting =>
      match s.channel.value with
      | some result => some { s with caller := .returned (answer result), channel := Oneshot.drop s.channel }
      | none =>
        match s.thread with
        | .panicked =>
          some { s with caller := .returned (.error (.stalled ⟨call,.panicked⟩)), channel := Oneshot.drop s.channel }
        | _ => some s
    | _ => none
  | .elapse =>
    match s.caller, s.channel.value, s.thread with
    | .waiting, none, .panicked => none
    | .waiting, none, _ => some { s with caller := .expired }
    | _, _, _ => none
  | .close =>
    match s.caller with
    | .expired => some { s with caller := .closed, channel := Oneshot.close s.channel }
    | _ => none
  | .tryRecv =>
    match s.caller with
    | .closed =>
      match Oneshot.tryRecv s.channel with
      | (channel, some result) => some { s with caller := .returned (answer result), channel := channel }
      | (channel, none) => some { s with caller := .returned (.error (.stalled ⟨call,.timedOut timeout⟩)), channel := channel }
    | _ => none
  | .dropCaller =>
    match s.caller with
    | .waiting => some { s with caller := .dropped, channel := Oneshot.drop s.channel }
    | _ => none

def boundedWithin (timeout : Nat) (call : String) : Machine (State T E) (Event T E) :=
  ⟨State.initial, step timeout call⟩

def boundedWithCleanup (call : String) : Machine (State T E) (Event T E) :=
  boundedWithin callTimeout call

def Thread.value : Thread T E → Option T
  | .returned result => produced result
  | .orphaned orphan => some orphan
  | _ => none

def Caller.value : Caller T E → Option T
  | .returned (.ok v) => some v
  | _ => none

def unread (channel : Oneshot.Channel (Except E T)) : Option T := channel.value.bind produced

/-- Every place a produced value can be in: the thread, the channel, the caller's return
value, the cleanup function. -/
def held (s : State T E) : List T :=
  s.thread.value.toList ++ (unread s.channel).toList ++ s.caller.value.toList ++ s.cleaned

def Settled (s : State T E) : Prop :=
  s.thread = .finished ∧ ((∃ result, s.caller = .returned result) ∨ s.caller = .dropped)

/-- The value is returned to the caller or passed to cleanup, once and not both. -/
def HandedOver (s : State T E) (v : T) : Prop :=
  (s.caller = .returned (.ok v) ∧ s.cleaned = []) ∨
  ((∀ w, s.caller ≠ .returned (.ok w)) ∧ s.cleaned = [v])

def DropsUnread (s : State T E) (event : Event T E) : Prop :=
  event = .dropCaller ∧ (unread s.channel).isSome

def Whole (s : State T E) : Prop := held s = s.made.toList

def Thread.unsent : Thread T E → Bool
  | .running | .returned _ => true
  | _ => false

def Caller.receiving : Caller T E → Bool
  | .waiting | .expired | .closed => true
  | _ => false

structure Invariant (s : State T E) : Prop where
  unsent : s.thread.unsent = true → s.channel.value = none
  unmade : s.thread = .running → s.made = none ∧ held s = []
  received : s.caller.receiving = false → s.channel.value = none ∧ s.channel.closed = true
  shut : s.caller = .closed → s.channel.closed = true
  lost : held s = [] ∨ Whole s

theorem initial_invariant : Invariant (State.initial : State T E) := by
  constructor <;> simp [State.initial,held,unread,Thread.value,Caller.value,Caller.receiving]

@[simp] theorem answer_value (result : Except E T) :
    (Caller.returned (answer result)).value = produced result := by
  cases result <;> rfl

@[simp] theorem Caller.value_waiting : (Caller.waiting : Caller T E).value = none := rfl
@[simp] theorem Caller.value_expired : (Caller.expired : Caller T E).value = none := rfl
@[simp] theorem Caller.value_closed : (Caller.closed : Caller T E).value = none := rfl
@[simp] theorem Caller.value_dropped : (Caller.dropped : Caller T E).value = none := rfl

@[simp] theorem unread_drop (channel : Oneshot.Channel (Except E T)) :
    unread (Oneshot.drop channel) = none := rfl

theorem Invariant.single {s : State T E} (valid : Invariant s) : (held s).length ≤ 1 := by
  rcases valid.lost with lost | whole
  · simp [lost]
  · cases made : s.made <;> simp_all [Whole]

/-- Everything one event can do: where the value was, and where it goes. -/
inductive Move (timeout : Nat) (call : String) (s : State T E) : Event T E → State T E → Prop where
  | returns (at_ : s.thread = .running) :
      Move timeout call s (.closureReturns result) { s with thread := .returned result, made := produced result }
  | panics (at_ : s.thread = .running) : Move timeout call s .closurePanics { s with thread := .panicked }
  | sends (at_ : s.thread = .returned result) (opened : s.channel.closed = false) :
      Move timeout call s .send { s with thread := .finished, channel := ⟨some result,false⟩ }
  | orphans (at_ : s.thread = .returned (.ok orphan)) (closed : s.channel.closed = true) :
      Move timeout call s .send { s with thread := .orphaned orphan }
  | forgets (at_ : s.thread = .returned (.error error)) (closed : s.channel.closed = true) :
      Move timeout call s .send { s with thread := .finished }
  | cleans (at_ : s.thread = .orphaned orphan) :
      Move timeout call s .cleanup { s with thread := .finished, cleaned := s.cleaned ++ [orphan] }
  | receives (at_ : s.caller = .waiting) (sent : s.channel.value = some result) :
      Move timeout call s .poll { s with caller := .returned (answer result), channel := Oneshot.drop s.channel }
  | loses (at_ : s.caller = .waiting) (empty : s.channel.value = none) (panicked : s.thread = .panicked) :
      Move timeout call s .poll
        { s with caller := .returned (.error (.stalled ⟨call,.panicked⟩)), channel := Oneshot.drop s.channel }
  | waits (at_ : s.caller = .waiting) (empty : s.channel.value = none) (alive : s.thread ≠ .panicked) :
      Move timeout call s .poll s
  | expires (at_ : s.caller = .waiting) (empty : s.channel.value = none) (alive : s.thread ≠ .panicked) :
      Move timeout call s .elapse { s with caller := .expired }
  | closes (at_ : s.caller = .expired) :
      Move timeout call s .close { s with caller := .closed, channel := Oneshot.close s.channel }
  | takes (at_ : s.caller = .closed) (sent : s.channel.value = some result) :
      Move timeout call s .tryRecv
        { s with caller := .returned (answer result), channel := ⟨none,s.channel.closed⟩ }
  | stalls (at_ : s.caller = .closed) (empty : s.channel.value = none) :
      Move timeout call s .tryRecv
        { s with caller := .returned (.error (.stalled ⟨call,.timedOut timeout⟩)),
                 channel := ⟨none,s.channel.closed⟩ }
  | drops (at_ : s.caller = .waiting) :
      Move timeout call s .dropCaller { s with caller := .dropped, channel := Oneshot.drop s.channel }

theorem send_move (taken : step timeout call s .send = some t) : Move timeout call s .send t := by
  simp only [step] at taken
  split at taken
  · next result returned =>
    rcases Oneshot.send_cases s.channel result with ⟨closed,sent⟩ | ⟨opened,sent⟩
    · cases result with
      | ok orphan =>
        simp only [sent] at taken
        obtain rfl := Option.some.inj taken
        exact .orphans returned closed
      | error error =>
        simp only [sent] at taken
        obtain rfl := Option.some.inj taken
        exact .forgets returned closed
    · simp only [sent] at taken
      obtain rfl := Option.some.inj taken
      exact .sends returned opened
  · contradiction

theorem poll_move (taken : step timeout call s .poll = some t) : Move timeout call s .poll t := by
  simp only [step] at taken
  split at taken
  · next waiting =>
    split at taken
    · next result sent =>
      obtain rfl := Option.some.inj taken
      exact .receives waiting sent
    · next empty =>
      split at taken
      · next panicked =>
        obtain rfl := Option.some.inj taken
        exact .loses waiting empty panicked
      · next alive =>
        obtain rfl := Option.some.inj taken
        exact .waits waiting empty alive
  · contradiction

theorem tryRecv_move (taken : step timeout call s .tryRecv = some t) : Move timeout call s .tryRecv t := by
  simp only [step] at taken
  split at taken
  · next closed =>
    cases received : s.channel.value with
    | some result =>
      simp only [Oneshot.tryRecv,received] at taken
      obtain rfl := Option.some.inj taken
      exact .takes closed received
    | none =>
      simp only [Oneshot.tryRecv,received] at taken
      obtain rfl := Option.some.inj taken
      exact .stalls closed received
  · contradiction

theorem step_move (taken : step timeout call s event = some t) : Move timeout call s event t := by
  cases event with
  | send => exact send_move taken
  | poll => exact poll_move taken
  | tryRecv => exact tryRecv_move taken
  | closureReturns result =>
    simp only [step] at taken
    split at taken
    · next running =>
      obtain rfl := Option.some.inj taken
      exact .returns running
    · contradiction
  | closurePanics =>
    simp only [step] at taken
    split at taken
    · next running =>
      obtain rfl := Option.some.inj taken
      exact .panics running
    · contradiction
  | cleanup =>
    simp only [step] at taken
    split at taken
    · next orphan orphaned =>
      obtain rfl := Option.some.inj taken
      exact .cleans orphaned
    · contradiction
  | elapse =>
    simp only [step] at taken
    split at taken
    · contradiction
    · next waiting empty alive =>
      obtain rfl := Option.some.inj taken
      exact .expires waiting empty alive
    · contradiction
  | close =>
    simp only [step] at taken
    split at taken
    · next expired =>
      obtain rfl := Option.some.inj taken
      exact .closes expired
    · contradiction
  | dropCaller =>
    simp only [step] at taken
    split at taken
    · next waiting =>
      obtain rfl := Option.some.inj taken
      exact .drops waiting
    · contradiction

theorem Invariant.orphan_alone {s : State T E} (valid : Invariant s) (at_ : s.thread = .orphaned orphan) :
    unread s.channel = none ∧ s.caller.value = none ∧ s.cleaned = [] := by
  have single := valid.single
  simp only [held,at_,Thread.value,Option.toList_some,List.length_append,List.length_cons,
    List.length_nil] at single
  refine ⟨?_,?_,List.eq_nil_of_length_eq_zero (by omega)⟩
  · rw [← Option.toList_eq_nil_iff]
    exact List.eq_nil_of_length_eq_zero (by omega)
  · rw [← Option.toList_eq_nil_iff]
    exact List.eq_nil_of_length_eq_zero (by omega)

theorem Invariant.unread_alone {s : State T E} (valid : Invariant s) (sent : unread s.channel = some v) :
    s.thread.value = none ∧ s.cleaned = [] := by
  have single := valid.single
  simp only [held,sent,Option.toList_some,List.length_append,List.length_cons,List.length_nil] at single
  refine ⟨?_,List.eq_nil_of_length_eq_zero (by omega)⟩
  rw [← Option.toList_eq_nil_iff]
  exact List.eq_nil_of_length_eq_zero (by omega)

/-- Only the closure's return makes a value, and only dropping the caller on an unread
result loses one; every other step moves the value from one place to the next. -/
theorem step_held (s t : State T E) (event : Event T E) (valid : Invariant s)
    (taken : step timeout call s event = some t) :
    (s.thread = .running ∧ Whole t) ∨
    (t.made = s.made ∧ ¬DropsUnread s event ∧ held t = held s) ∨
    (t.made = s.made ∧ DropsUnread s event ∧ held t = []) := by
  cases step_move taken with
  | returns running =>
    obtain ⟨-,empty⟩ := valid.unmade running
    left
    simp_all [Whole,held,unread,Thread.value]
  | panics running => simp [held,unread,running,Thread.value,DropsUnread]
  | sends returned opened =>
    have unsent := valid.unsent (by simp [returned,Thread.unsent])
    simp [held,unread,unsent,returned,Thread.value,DropsUnread]
  | orphans returned closed => simp [held,returned,Thread.value,produced,DropsUnread]
  | forgets returned closed => simp [held,returned,Thread.value,produced,DropsUnread]
  | cleans orphaned =>
    obtain ⟨unreadNone,returnedNone,cleanedNone⟩ := valid.orphan_alone orphaned
    simp [held,unreadNone,returnedNone,cleanedNone,orphaned,Thread.value,DropsUnread]
  | receives waiting sent => simp [held,unread,sent,waiting,DropsUnread]
  | loses waiting empty panicked => simp [held,unread,empty,waiting,Caller.value,DropsUnread]
  | waits waiting empty alive => simp [DropsUnread]
  | expires waiting empty alive => simp [held,waiting,DropsUnread]
  | closes expired => simp [held,unread,expired,DropsUnread]
  | takes closed sent => simp [held,unread,sent,closed,DropsUnread]
  | stalls closed empty => simp [held,unread,empty,closed,Caller.value,DropsUnread]
  | drops waiting =>
    right
    cases sent : unread s.channel with
    | none =>
      left
      simp [held,sent,waiting,DropsUnread]
    | some v =>
      right
      obtain ⟨threadNone,cleanedNone⟩ := valid.unread_alone sent
      refine ⟨rfl,⟨rfl,by simp [sent]⟩,?_⟩
      simp [held,threadNone,cleanedNone]

/-- Dropping the caller on an unread value is what loses it, and it stays lost. -/
theorem step_whole (s t : State T E) (event : Event T E) (valid : Invariant s)
    (taken : step timeout call s event = some t) : Whole t ↔ Whole s ∧ ¬DropsUnread s event := by
  rcases step_held s t event valid taken with ⟨running,whole⟩ | ⟨made,kept,same⟩ | ⟨made,drops,gone⟩
  · obtain ⟨unmade,empty⟩ := valid.unmade running
    refine iff_of_true whole ⟨by simp [Whole,unmade,empty],?_⟩
    rintro ⟨_,unreadSome⟩
    have sent := valid.unsent (by simp [running,Thread.unsent])
    simp [unread,sent] at unreadSome
  · simp [Whole,made,same,kept]
  · refine iff_of_false ?_ (fun both => both.2 drops)
    intro whole
    obtain ⟨v,dropped⟩ := Option.isSome_iff_exists.mp drops.2
    rcases valid.lost with lost | before
    · simp [held,dropped] at lost
    · rw [Whole,gone,made,← before] at whole
      simp [held,dropped] at whole

/-- The thread sends once, after it has its result, and an unreceived value needs a
receiver. -/
theorem step_channel (s t : State T E) (event : Event T E) (valid : Invariant s)
    (taken : step timeout call s event = some t) :
    (t.thread.unsent = true → t.channel.value = none) ∧
    (t.thread = .running → s.thread = .running ∧ t.made = s.made) ∧
    (t.caller.receiving = false → t.channel.value = none ∧ t.channel.closed = true) ∧
    (t.caller = .closed → t.channel.closed = true) := by
  have unsent := valid.unsent
  have shut := valid.shut
  have received := valid.received
  cases step_move taken <;> simp_all [Thread.unsent,Caller.receiving]

theorem step_invariant (s t : State T E) (event : Event T E) (valid : Invariant s)
    (taken : step timeout call s event = some t) : Invariant t := by
  obtain ⟨unsent,running,received,shut⟩ := step_channel s t event valid taken
  have moved := step_held s t event valid taken
  refine ⟨unsent,?_,received,shut,?_⟩
  · intro still
    obtain ⟨before,made⟩ := running still
    obtain ⟨unmade,empty⟩ := valid.unmade before
    refine ⟨made.trans unmade,?_⟩
    rcases moved with ⟨_,whole⟩ | ⟨_,_,same⟩ | ⟨_,_,gone⟩
    · simpa [Whole,made,unmade] using whole
    · exact same.trans empty
    · exact gone
  · rcases moved with ⟨_,whole⟩ | ⟨made,_,same⟩ | ⟨_,_,gone⟩
    · exact Or.inr whole
    · rw [same]
      exact valid.lost.imp_right (fun whole => by rw [Whole,same,made]; exact whole)
    · exact Or.inl gone

/-- A value leaves the thread through the channel or through cleanup, and the receiving
side by being dropped. -/
theorem step_thread_value (taken : step timeout call s event = some t)
    (value : s.thread.value = some v) :
    t.thread.value = some v ∨ (unread t.channel = some v ∧ t.channel.closed = false) ∨
    (event = .cleanup ∧ s.thread = .orphaned v) := by
  cases step_move taken with
  | sends returned opened => exact .inr (.inl ⟨by simpa [unread,returned,Thread.value] using value,rfl⟩)
  | orphans returned closed => exact .inl (by simpa [returned,Thread.value,produced] using value)
  | cleans orphaned =>
    obtain rfl : _ = v := by simpa [orphaned,Thread.value] using value
    exact .inr (.inr ⟨rfl,orphaned⟩)
  | returns at_ | panics at_ | forgets at_ closed => simp [at_,Thread.value,produced] at value
  | receives | loses | waits | expires | closes | takes | stalls | drops => exact .inl value

theorem step_caller_value (valid : Invariant s) (taken : step timeout call s event = some t)
    (keeps : ¬DropsUnread s event) (value : unread s.channel = some v ∨ s.caller.value = some v) :
    unread t.channel = some v ∨ t.caller.value = some v := by
  cases step_move taken with
  | sends returned opened =>
    have unsent := valid.unsent (by simp [returned,Thread.unsent])
    simp only [unread,unsent] at value
    exact .inr (value.resolve_left (by simp))
  | receives at_ sent | takes at_ sent =>
    right
    simpa [unread,sent,at_] using value
  | loses at_ empty | stalls at_ empty => simp [unread,empty,at_] at value
  | expires at_ | closes at_ =>
    left
    simpa [unread,at_] using value
  | drops waiting =>
    simp only [waiting,Caller.value_waiting,reduceCtorEq,or_false] at value
    exact absurd ⟨rfl,by simp [value]⟩ keeps
  | returns | panics | orphans | forgets | cleans | waits => exact value

/-- A closed channel stays closed. -/
theorem step_open (taken : step timeout call s event = some t) (open_ : t.channel.closed = false) :
    s.channel.closed = false := by
  cases step_move taken <;> simp_all

theorem dropped_receiving (taken : step timeout call s .dropCaller = some t) :
    t.caller.receiving = false := by
  cases step_move taken
  rfl

theorem dropped_value (taken : step timeout call s .dropCaller = some t) : s.caller.value = none := by
  cases step_move taken with
  | drops waiting => rw [waiting,Caller.value_waiting]

theorem closure_returned (taken : step timeout call s (.closureReturns result) = some t) :
    t.thread = .returned result := by
  cases step_move taken
  rfl

theorem step_made (taken : step timeout call s event = some t) :
    t.made = s.made ∨ ∃ result, event = .closureReturns result ∧ t.made = produced result := by
  cases step_move taken with
  | returns running => exact .inr ⟨_,rfl,rfl⟩
  | _ => exact .inl rfl

/-- A value a step leaves anywhere was somewhere before, or the closure has just returned it. -/
theorem held_of_step (valid : Invariant s) (taken : step timeout call s event = some t) (mem : v ∈ held t) :
    v ∈ held s ∨ event = .closureReturns (.ok v) := by
  rcases step_held s t event valid taken with ⟨running,whole⟩ | ⟨_,_,same⟩ | ⟨_,_,gone⟩
  · rw [whole] at mem
    rcases step_made taken with same | ⟨result,returns,made⟩
    · simp [same,(valid.unmade running).1] at mem
    · right
      rw [made] at mem
      cases result with
      | error e => simp [produced] at mem
      | ok w =>
        obtain rfl : v = w := by simpa [produced] using mem
        exact returns
  · exact .inl (same ▸ mem)
  · simp [gone] at mem

theorem initial_whole : Whole (State.initial : State T E) := by
  simp [State.initial,Whole,held,unread,Thread.value,Caller.value]

/-- In a settled state the only places left are the caller and the cleanup function. -/
theorem handedOver_iff_whole (valid : Invariant s) (settled : Settled s) (made : s.made = some v) :
    HandedOver s v ↔ Whole s := by
  obtain ⟨finished,ended⟩ := settled
  have received : s.channel.value = none := by
    refine (valid.received ?_).1
    rcases ended with ⟨result,returned⟩ | dropped
    · rw [returned]; rfl
    · rw [dropped]; rfl
  have places : held s = s.caller.value.toList ++ s.cleaned := by
    simp [held,finished,unread,received,Thread.value]
  rw [Whole,places,made]
  rcases ended with ⟨result,returned⟩ | dropped
  · cases result with
    | ok w => simp [HandedOver,returned,Caller.value]
    | error e => simp [HandedOver,returned,Caller.value]
  · simp [HandedOver,dropped]

/-- Along every run that settles, the produced value is handed over exactly once exactly
when the caller's future is never dropped while the value waits unread in the channel. -/
theorem handedOver_iff_no_unread_drop (call : String) (events : List (Event T E)) (s : State T E)
    (v : T) (ran : (boundedWithCleanup call).exec events State.initial = some s)
    (settled : Settled s) (made : s.made = some v) :
    HandedOver s v ↔
      (boundedWithCleanup call).Meets (fun s event => ¬DropsUnread s event) events State.initial := by
  have valid : Invariant s :=
    (Machine.reachable_of_exec ran).invariant initial_invariant
      (fun s event t _ valid taken => step_invariant s t event valid taken)
  rw [handedOver_iff_whole valid settled made,
    Machine.last_iff_meets (fun s event t => step_invariant s t event)
      (fun s event t => step_whole s t event) events State.initial initial_invariant ran]
  simp [initial_whole]

theorem handedOver_iff_no_unread_drop_poll :
    HandedOver (⟨.finished,⟨none,true⟩,.returned (.ok 7),some 7,[]⟩ : State Nat Nat) 7 ↔
      (boundedWithCleanup "Target.createTarget").Meets (fun (s : State Nat Nat) event => ¬DropsUnread s event)
        [.closureReturns (.ok 7),.send,.poll] (State.initial : State Nat Nat) :=
  handedOver_iff_no_unread_drop "Target.createTarget" [.closureReturns (.ok 7),.send,.poll] _ 7 rfl
    ⟨rfl,Or.inl ⟨_,rfl⟩⟩ rfl

/-- The caller's future is dropped after the closure's result was sent and before it was
received: the value is neither returned nor cleaned up. -/
theorem unread_drop_loses_value :
    ∃ s : State Nat Nat, (boundedWithCleanup "Target.createTarget").exec
        [.closureReturns (.ok 7),.send,.dropCaller] State.initial = some s ∧
      Settled s ∧ s.made = some 7 ∧ ¬HandedOver s 7 := by
  refine ⟨⟨.finished,⟨none,true⟩,.dropped,some 7,[]⟩,rfl,⟨rfl,Or.inr rfl⟩,rfl,?_⟩
  simp [HandedOver]

end BrowserHive.CdpCall
