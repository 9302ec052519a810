import BrowserHive.Lib.FixedWindow
import BrowserHive.Lib.Tasks
import BrowserHive.Lib.Transition
import BrowserHive.DomainFilter

/-! When the diagnostics of a request are logged: a session decides when it is dropped, from
the outcome it was told, and all sessions of a worker share one rate limiter. -/
namespace BrowserHive.Worker.Diagnostics

open Transition FixedWindow
open DomainFilter (DiagnosticsMode)

def minute : Nat := 60 * 1000000000

def u32Size : Nat := 2^32

structure DiagnosticsLimiter where
  maxPerMinute : Nat
  /-- `window_start` and `used`. -/
  window : Window
  suppressed : Nat
  deriving DecidableEq, Repr

namespace DiagnosticsLimiter

def new (maxPerMinute now : Nat) : DiagnosticsLimiter := ⟨maxPerMinute,⟨now,0⟩,0⟩

/-- Under the mutex; zero is no limit. -/
def tryAcquire (l : DiagnosticsLimiter) (now later : Nat) : Option Nat × DiagnosticsLimiter :=
  if l.maxPerMinute = 0 then (some 0,l)
  else
    match l.window.take minute l.maxPerMinute now later with
    | (false,w) => (none,{ l with window := w, suppressed := (l.suppressed + 1) % u32Size })
    | (true,w) => (some l.suppressed,{ l with window := w, suppressed := 0 })

end DiagnosticsLimiter

structure EmissionConfig where
  mode : DiagnosticsMode
  errorCodes : List Int
  maxPerMinute : Nat
  deriving DecidableEq, Repr

def EmissionConfig.logsErrorCode (c : EmissionConfig) (code : Int) : Bool :=
  c.mode = .always || c.errorCodes.isEmpty || code ∈ c.errorCodes

structure DiagnosticsSession where
  succeeded : Bool
  errorCode : Option Int
  dropped : Bool
  deriving DecidableEq, Repr

namespace DiagnosticsSession

def new : DiagnosticsSession := ⟨false,none,false⟩

def shouldEmit (c : EmissionConfig) (s : DiagnosticsSession) : Bool :=
  match c.mode with
  | .off => false
  | .always => true
  | .onError =>
    !s.succeeded &&
      match s.errorCode with
      | some code => c.logsErrorCode code
      | none => c.errorCodes.isEmpty

end DiagnosticsSession

/-- What became of a session that would log. -/
inductive Emission where
  | reported (time suppressed : Nat)
  | suppressed
  deriving DecidableEq, Repr

def Emission.time : Emission → Option Nat
  | .reported time _ => some time
  | .suppressed => none

/-- `log` is a ghost, the latest first. -/
structure Emitting where
  now : Nat
  limiter : DiagnosticsLimiter
  sessions : List DiagnosticsSession
  log : List Emission
  deriving DecidableEq, Repr

inductive EmittingAction where
  | tick (elapsed : Nat)
  | startCapture
  | setErrorCode (i : Nat) (code : Int)
  | markSuccess (i : Nat)
  /-- The limiter may read the clock twice, this far apart. -/
  | drop (i lag : Nat)
  deriving DecidableEq, Repr

namespace Emitting

def tell (s : Emitting) (i : Nat) (f : DiagnosticsSession → DiagnosticsSession) : Option Emitting :=
  match s.sessions[i]? with
  | some session => if session.dropped then none else some { s with sessions := s.sessions.set i (f session) }
  | none => none

/-- `Drop`, once for each session. -/
def drop (c : EmissionConfig) (s : Emitting) (i lag : Nat) : Option Emitting :=
  match s.sessions[i]? with
  | none => none
  | some session =>
    if session.dropped then none
    else
      let sessions := s.sessions.set i { session with dropped := true }
      if session.shouldEmit c then
        match s.limiter.tryAcquire s.now (s.now + lag) with
        | (some suppressed,limiter) =>
          some ⟨s.now + lag,limiter,sessions,.reported s.now suppressed :: s.log⟩
        | (none,limiter) => some ⟨s.now + lag,limiter,sessions,.suppressed :: s.log⟩
      else some { s with sessions := sessions }

def step (c : EmissionConfig) (s : Emitting) : EmittingAction → Option Emitting
  | .tick elapsed => some { s with now := s.now + elapsed }
  | .startCapture => some { s with sessions := s.sessions ++ [.new] }
  | .setErrorCode i code => s.tell i fun session => { session with errorCode := some code }
  | .markSuccess i => s.tell i fun session => { session with succeeded := true }
  | .drop i lag => s.drop c i lag

end Emitting

def emitting (c : EmissionConfig) : Machine Emitting EmittingAction :=
  ⟨⟨0,.new c.maxPerMinute 0,[],[]⟩,Emitting.step c⟩

def pending (log : List Emission) : Nat := (log.takeWhile (· = .suppressed)).length

/-- Every report tells how many emissions were suppressed since the one before it. -/
def Honest : List Emission → Prop
  | .reported _ n :: earlier => n = pending earlier % u32Size ∧ Honest earlier
  | .suppressed :: earlier => Honest earlier
  | [] => True

def DiagnosticsSession.due (c : EmissionConfig) (s : DiagnosticsSession) : Bool := s.dropped && s.shouldEmit c

def Emits (s t : Emitting) : Prop :=
  (∃ n, s.limiter.tryAcquire s.now t.now = (some n,t.limiter) ∧ t.log = .reported s.now n :: s.log) ∨
    s.limiter.tryAcquire s.now t.now = (none,t.limiter) ∧ t.log = .suppressed :: s.log

structure Sane (c : EmissionConfig) (s : Emitting) : Prop where
  same : s.limiter.maxPerMinute = c.maxPerMinute
  paced : c.maxPerMinute ≠ 0 → ∃ current older, Paced minute c.maxPerMinute s.now s.limiter.window current older ∧
    (current :: older).flatten = s.log.filterMap Emission.time
  unlimited : c.maxPerMinute = 0 → ∀ e ∈ s.log, ∃ time, e = .reported time 0
  pending : s.limiter.suppressed = pending s.log % u32Size
  honest : Honest s.log
  accounted : s.log.length = s.sessions.countP (DiagnosticsSession.due c)

section Steps

variable {c : EmissionConfig} {s t : Emitting}

theorem countP_dropped {sessions : List DiagnosticsSession} {session : DiagnosticsSession}
    (here : sessions[i]? = some session) (live : session.dropped = false) (session' : DiagnosticsSession) :
    (sessions.set i session').countP (DiagnosticsSession.due c) =
      sessions.countP (DiagnosticsSession.due c) + if session'.due c then 1 else 0 := by
  obtain ⟨bound,rfl⟩ := List.getElem?_eq_some_iff.mp here
  simp [List.countP_set bound,DiagnosticsSession.due,live]

theorem tell_cases (told : s.tell i f = some t) : ∃ session, s.sessions[i]? = some session ∧
    session.dropped = false ∧ t = { s with sessions := s.sessions.set i (f session) } := by
  unfold Emitting.tell at told
  split at told
  · next session here =>
    split at told
    · contradiction
    · next live => exact ⟨session,here,by simpa using live,(Option.some.inj told).symm⟩
  · contradiction

theorem drop_cases (dropped : s.drop c i lag = some t) : ∃ session, s.sessions[i]? = some session ∧
    session.dropped = false ∧ t.sessions = s.sessions.set i { session with dropped := true } ∧
    (session.shouldEmit c = false ∧ t.now = s.now ∧ t.limiter = s.limiter ∧ t.log = s.log ∨
      session.shouldEmit c = true ∧ t.now = s.now + lag ∧ Emits s t) := by
  unfold Emitting.drop at dropped
  split at dropped
  · contradiction
  · next session here =>
    split at dropped
    · contradiction
    · next live =>
      have live : session.dropped = false := by simpa using live
      dsimp only at dropped
      split at dropped
      · next due =>
        split at dropped
        · next n limiter acquired =>
          obtain rfl := Option.some.inj dropped
          exact ⟨session,here,live,rfl,.inr ⟨due,rfl,.inl ⟨n,acquired,rfl⟩⟩⟩
        · next limiter acquired =>
          obtain rfl := Option.some.inj dropped
          exact ⟨session,here,live,rfl,.inr ⟨due,rfl,.inr ⟨acquired,rfl⟩⟩⟩
      · next quiet =>
        obtain rfl := Option.some.inj dropped
        exact ⟨session,here,live,rfl,.inl ⟨by simpa using quiet,rfl,rfl,rfl⟩⟩

theorem tryAcquire_limited {l : DiagnosticsLimiter} (limited : l.maxPerMinute ≠ 0) :
    l.tryAcquire now later =
      if (l.window.take minute l.maxPerMinute now later).1 then
        (some l.suppressed,{ l with window := (l.window.take minute l.maxPerMinute now later).2, suppressed := 0 })
      else (none,{ l with
        window := (l.window.take minute l.maxPerMinute now later).2
        suppressed := (l.suppressed + 1) % u32Size }) := by
  unfold DiagnosticsLimiter.tryAcquire
  rw [if_neg limited]
  split
  · next w took => simp [took]
  · next w took => simp [took]

@[simp] theorem pending_suppressed (log : List Emission) : pending (.suppressed :: log) = pending log + 1 := by
  simp [pending]

@[simp] theorem pending_reported (log : List Emission) : pending (.reported time n :: log) = 0 := by
  simp [pending]

/-- A worker without a limit reports every time. -/
theorem pending_of_reported (all : ∀ e ∈ log, ∃ time, e = Emission.reported time 0) : pending log = 0 := by
  cases log with
  | nil => rfl
  | cons e rest =>
    obtain ⟨time,rfl⟩ := all e List.mem_cons_self
    simp

theorem Sane.initial (c : EmissionConfig) : Sane c (emitting c).initial := by
  refine ⟨rfl,fun _ => ⟨[],[],.new minute c.maxPerMinute 0,rfl⟩,fun _ e member => ?_,rfl,trivial,rfl⟩
  cases member

theorem Sane.tell (sane : Sane c s) (told : s.tell i f = some t)
    (keeps : ∀ session : DiagnosticsSession, (f session).dropped = session.dropped) : Sane c t := by
  obtain ⟨session,here,live,rfl⟩ := tell_cases told
  refine ⟨sane.same,sane.paced,sane.unlimited,sane.pending,sane.honest,?_⟩
  rw [countP_dropped here live]
  simpa [DiagnosticsSession.due,keeps,live] using sane.accounted

theorem Emits.length (emits : Emits s t) : t.log.length = s.log.length + 1 := by
  rcases emits with ⟨n,_,log⟩ | ⟨_,log⟩ <;> simp [log]

/-- Without a limit it reports, and none was suppressed. -/
theorem Sane.emit_unlimited (sane : Sane c s) (free : c.maxPerMinute = 0) (emits : Emits s t)
    (accounted : t.log.length = t.sessions.countP (DiagnosticsSession.due c)) : Sane c t := by
  have always : s.limiter.tryAcquire s.now t.now = (some 0,s.limiter) := by
    simp [DiagnosticsLimiter.tryAcquire,sane.same,free]
  have none_ := pending_of_reported (sane.unlimited free)
  rcases emits with ⟨n,acquired,log⟩ | ⟨acquired,_⟩
  · obtain ⟨rfl,same⟩ := by simpa [always] using acquired
    refine ⟨same ▸ sane.same,fun limited => absurd free limited,fun _ e member => ?_,?_,?_,accounted⟩
    · rcases List.mem_cons.mp (log ▸ member) with rfl | old
      · exact ⟨s.now,rfl⟩
      · exact sane.unlimited free e old
    · rw [← same,sane.pending,log,none_,pending_reported]
    · rw [log]
      exact ⟨by rw [none_]; rfl,sane.honest⟩
  · simp [always] at acquired

/-- With a limit the window decides, and the count of the suppressed follows it. -/
theorem Sane.emit_limited (sane : Sane c s) (limited : c.maxPerMinute ≠ 0) (after : s.now ≤ t.now) (emits : Emits s t)
    (accounted : t.log.length = t.sessions.countP (DiagnosticsSession.due c)) : Sane c t := by
  obtain ⟨current,older,paced,times⟩ := sane.paced limited
  obtain ⟨current',older',paced',times'⟩ := paced.take after
  have bounded : s.limiter.maxPerMinute ≠ 0 := sane.same ▸ limited
  rw [Emits,tryAcquire_limited bounded,sane.same] at emits
  rw [times] at times'
  rcases emits with ⟨n,acquired,log⟩ | ⟨acquired,log⟩
  · split at acquired
    · next took =>
      obtain ⟨rfl,same⟩ := by simpa using acquired
      rw [if_pos took] at times'
      refine ⟨?_,fun _ => ⟨current',older',?_,?_⟩,fun none_ => absurd none_ limited,?_,?_,accounted⟩
      · rw [← same]
      · rw [← same]
        exact paced'
      · rw [times',log]
        rfl
      · rw [← same,log,pending_reported]
        rfl
      · rw [log]
        exact ⟨sane.pending,sane.honest⟩
    · simp at acquired
  · split at acquired
    · simp at acquired
    · next refused =>
      have same := (Prod.mk.inj acquired).2
      rw [if_neg refused] at times'
      refine ⟨?_,fun _ => ⟨current',older',?_,?_⟩,fun none_ => absurd none_ limited,?_,?_,accounted⟩
      · rw [← same]
      · rw [← same]
        exact paced'
      · rw [times',log]
        rfl
      · rw [← same,log,pending_suppressed]
        simp [sane.pending]
      · rw [log]
        exact sane.honest

theorem Sane.step (sane : Sane c s) (taken : (emitting c).step s a = some t) : Sane c t := by
  cases a with
  | tick elapsed =>
    obtain rfl := Option.some.inj taken
    refine ⟨sane.same,fun limited => ?_,sane.unlimited,sane.pending,sane.honest,sane.accounted⟩
    obtain ⟨current,older,paced,times⟩ := sane.paced limited
    exact ⟨current,older,paced.wait (Nat.le_add_right _ _),times⟩
  | startCapture =>
    obtain rfl := Option.some.inj taken
    refine ⟨sane.same,sane.paced,sane.unlimited,sane.pending,sane.honest,?_⟩
    simpa [DiagnosticsSession.due,DiagnosticsSession.new] using sane.accounted
  | setErrorCode i code | markSuccess i => exact sane.tell taken (by intro session; rfl)
  | drop i lag =>
    obtain ⟨session,here,live,sessions,quiet | ⟨due,later,emits⟩⟩ := drop_cases taken
    · obtain ⟨quiet,now,limiter,log⟩ := quiet
      refine ⟨?_,?_,?_,?_,?_,?_⟩
      · rw [limiter]
        exact sane.same
      · rw [limiter,now,log]
        exact sane.paced
      · rw [log]
        exact sane.unlimited
      · rw [limiter,log]
        exact sane.pending
      · rw [log]
        exact sane.honest
      · rw [log,sessions,countP_dropped here live,sane.accounted]
        have undue : ({ session with dropped := true } : DiagnosticsSession).shouldEmit c = false := quiet
        simp [DiagnosticsSession.due,undue]
    · have counts : ({ session with dropped := true } : DiagnosticsSession).shouldEmit c = true := due
      have accounted : t.log.length = t.sessions.countP (DiagnosticsSession.due c) := by
        rw [emits.length,sessions,countP_dropped here live,sane.accounted]
        simp [DiagnosticsSession.due,counts]
      by_cases free : c.maxPerMinute = 0
      · exact sane.emit_unlimited free emits accounted
      · exact sane.emit_limited free (by omega) emits accounted

end Steps

/-- In every run of the sessions of a worker, told and dropped in any order: no span of a minute
sees more than twice the limit of reports, unless there is none; each report tells how many
were suppressed since the last one, modulo the width of the counter; and every session that is
over and had something to log was reported or suppressed once. -/
theorem emissions_limited {c : EmissionConfig} {s : Emitting} (run : (emitting c).Reachable s) :
    (c.maxPerMinute ≠ 0 → ∀ start,
      (s.log.filterMap Emission.time).countP (within start minute) ≤ 2 * c.maxPerMinute) ∧
    (c.maxPerMinute = 0 → ∀ e ∈ s.log, ∃ time, e = .reported time 0) ∧
    Honest s.log ∧ s.log.length = s.sessions.countP (DiagnosticsSession.due c) := by
  have sane : Sane c s := Machine.Reachable.invariant (Sane.initial c) (fun _ _ _ _ sane taken => sane.step taken) run
  refine ⟨fun limited start => ?_,sane.unlimited,sane.honest,sane.accounted⟩
  obtain ⟨current,older,paced,times⟩ := sane.paced limited
  rw [← times]
  exact countP_le_two_windows paced.spaced paced.few start

def failures : List EmittingAction :=
  [.startCapture,.startCapture,.startCapture,.drop 0 0,.setErrorCode 1 5,.drop 1 0,.tick minute,.drop 2 1]

theorem emissions_limited_failures : ∃ s, (emitting ⟨.onError,[],1⟩).exec failures (emitting ⟨.onError,[],1⟩).initial = some s ∧
    s.log = [.reported minute 1,.suppressed,.reported 0 0] ∧
    ∀ start, (s.log.filterMap Emission.time).countP (within start minute) ≤ 2 := by
  obtain ⟨s,ran,log⟩ : ∃ s, (emitting ⟨.onError,[],1⟩).exec failures (emitting ⟨.onError,[],1⟩).initial = some s ∧
      s.log = [.reported minute 1,.suppressed,.reported 0 0] := ⟨_,rfl,rfl⟩
  exact ⟨s,ran,log,(emissions_limited (Machine.reachable_of_exec ran)).1 (by decide)⟩

end BrowserHive.Worker.Diagnostics
