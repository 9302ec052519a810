import BrowserHive.Worker.Challenge

/-! The built-in wait strategies. Both poll the page in rounds; the budget of a strategy is
counted from a clock that was started as long ago as the time already spent. -/
namespace BrowserHive.Worker

open Polling

def defaultWaitTimeoutMs : Nat := 40000

def effectiveTimeout (timeoutMs : Nat) : Nat :=
  if timeoutMs = 0 then defaultWaitTimeoutMs
  else if maxWaitTimeoutMs < timeoutMs then maxWaitTimeoutMs
  else timeoutMs

def pollInterval : Nat := 500

variable {σ : Type}

/-- Now, if the clock cannot go back that far. -/
def Tab.startedAgo (tab : Tab σ) (spent : Nat) (s : σ) : Nat × σ :=
  (if spent ≤ (tab.now s).1 then (tab.now s).1 - spent else (tab.now s).1,(tab.now s).2)

def Probe.answer (found : Option WaitResult) : Probe → Option WaitResult
  | .seen => found
  | .unseen => none
  | .failed => some .failed

/-- A selector that is not set is not looked for. -/
def Tab.lookFor (tab : Tab σ) (purpose : Purpose) (selector : Option String) (found : WaitResult) :
    Polling.Step σ WaitResult := fun s =>
  match selector with
  | none => (none,s)
  | some text =>
    ((tab.selectorExists purpose text s).1.answer (some found),(tab.selectorExists purpose text s).2)

def Probe.verdict : Probe → WaitResult
  | .seen => .success
  | .unseen => .waitSelectorNotFound
  | .failed => .failed

def Tab.finalSelectorVerdict (tab : Tab σ) (waitSelector : Option String) (s : σ) : WaitResult × σ :=
  match waitSelector with
  | none => (.success,s)
  | some text => ((tab.selectorExists .wait text s).1.verdict,(tab.selectorExists .wait text s).2)

def Tab.expire (tab : Tab σ) (start budget : Nat) (verdict : σ → WaitResult × σ) :
    Polling.Step σ WaitResult := fun s =>
  if budget ≤ (tab.elapsed start s).1 then
    (some (verdict (tab.elapsed start s).2).1,(verdict (tab.elapsed start s).2).2)
  else (none,(tab.elapsed start s).2)

def Tab.exitEarly (tab : Tab σ) : Polling.Step σ WaitResult := fun s =>
  (if (tab.navigationStatus s).1.any shouldExitEarly then some .success else none,(tab.navigationStatus s).2)

def Tab.pause {α : Type} (tab : Tab σ) (start total : Nat) : Polling.Step σ α := fun s =>
  (none,if total - (tab.elapsed start s).1 < pollInterval * tab.ms then tab.spin (tab.elapsed start s).2
    else tab.sleep (pollInterval * tab.ms) (tab.elapsed start s).2)

/-- The answer `none` leaves the loop of the first phase. -/
def Tab.checkIdle (tab : Tab σ) : Polling.Step σ (Option WaitResult) := fun s =>
  ((tab.idle s).1.map fun reached => if reached then none else some .failed,(tab.idle s).2)

def Tab.idleVerdict (tab : Tab σ) (waitSelector : Option String) (s : σ) : WaitResult × σ :=
  if waitSelector.isNone then (.failed,s) else tab.finalSelectorVerdict waitSelector s

def Tab.idleRound (tab : Tab σ) (start total : Nat) (waitSelector skipSelector : Option String) :
    Polling.Step σ (Option WaitResult) :=
  inOrder [tab.checkCancellation (some .failed),(tab.lookFor .skip skipSelector .skipSelectorFound).answer some,
    tab.checkIdle,tab.exitEarly.answer some,(tab.expire start total (tab.idleVerdict waitSelector)).answer some,
    tab.pause start total]

/-- Phase 1.5, which is skipped when less than 100 ms is left. -/
def Tab.awaitReady {α : Type} (tab : Tab σ) (start total : Nat) (waitSelector : Option String) :
    Polling.Step σ α := fun s =>
  (none,if min (30000 * tab.ms) (total - (tab.elapsed start s).1) < 100 * tab.ms then (tab.elapsed start s).2
    else tab.documentReady (min (30000 * tab.ms) (total - (tab.elapsed start s).1)) waitSelector
      (tab.elapsed start s).2)

def Tab.afterIdle (tab : Tab σ) (start total : Nat) (waitSelector skipSelector : Option String) :
    Polling.Step σ WaitResult :=
  inOrder [tab.awaitReady start total waitSelector,tab.lookFor .skip skipSelector .skipSelectorFound,
    tab.expire start total (tab.finalSelectorVerdict waitSelector),tab.exitEarly]

def Tab.searchRound (tab : Tab σ) (start total selectorStart selectorTimeout : Nat) (selector : String)
    (skipSelector : Option String) : Polling.Step σ WaitResult :=
  inOrder [tab.checkCancellation .failed,tab.lookFor .skip skipSelector .skipSelectorFound,
    tab.lookFor .wait (some selector) .success,
    tab.expire selectorStart selectorTimeout (tab.finalSelectorVerdict (some selector)),
    tab.expire start total (tab.finalSelectorVerdict (some selector)),tab.pause start total]

def Tab.selectorTimeout (tab : Tab σ) (timeoutMs remaining : Nat) : Nat :=
  if timeoutMs = 0 then remaining else min (timeoutMs * tab.ms) remaining

def Tab.search (tab : Tab σ) (start total timeoutMs : Nat) (selector : String) (skipSelector : Option String)
    (s : σ) : Option (WaitResult × σ) :=
  let remaining := total - (tab.elapsed start s).1
  let s := (tab.elapsed start s).2
  poll (tab.searchRound start total (tab.now s).1 (tab.selectorTimeout timeoutMs remaining) selector skipSelector)
    (total + 1) (tab.now s).2

/-- With a wait selector the whole budget is the default one, whatever was asked for. -/
def totalTimeout (timeoutMs : Nat) (waitSelector : Option String) : Nat :=
  if waitSelector.isSome then defaultWaitTimeoutMs else effectiveTimeout timeoutMs

/-- `NetworkIdleStrategy::run`. Every loop is left within its budget, and a round takes a
tick or more. -/
def Tab.networkIdle (tab : Tab σ) (spent timeoutMs : Nat) (waitSelector skipSelector : Option String) (s : σ) :
    Option (WaitResult × σ) :=
  let start := (tab.startedAgo spent s).1
  let total := totalTimeout timeoutMs waitSelector * tab.ms
  let s := tab.listen total (tab.startedAgo spent s).2
  (poll (tab.idleRound start total waitSelector skipSelector) (total + 1) s).bind fun
    | (some result,s) => some (result,s)
    | (none,s) =>
      match tab.afterIdle start total waitSelector skipSelector s,waitSelector with
      | (some result,s),_ => some (result,s)
      | (none,s),none => some (.success,s)
      | (none,s),some selector => tab.search start total timeoutMs selector skipSelector s

/-- The local variable remembers that the wait selector was seen; without a skip selector to
guard against, seeing it ends the wait. -/
def Tab.lookForWanted (tab : Tab σ) (waitSelector skipSelector : Option String) :
    Polling.Step (σ × Bool) WaitResult :=
  fun (s,seen) =>
    match waitSelector with
    | none => (none,s,seen)
    | some text =>
      if seen then (none,s,seen)
      else ((tab.selectorExists .wait text s).1.answer (if skipSelector.isNone then some .success else none),
        (tab.selectorExists .wait text s).2,(tab.selectorExists .wait text s).1 = .seen)

def Tab.timeoutVerdict (tab : Tab σ) (waitSelector : Option String) (seen : Bool) (s : σ) : WaitResult × σ :=
  if seen then (.success,s) else tab.finalSelectorVerdict waitSelector s

def Tab.expireTimeout (tab : Tab σ) (start timeout : Nat) (waitSelector : Option String) :
    Polling.Step (σ × Bool) WaitResult := fun (s,seen) =>
  ((tab.expire start timeout (tab.timeoutVerdict waitSelector seen) s).1,
    (tab.expire start timeout (tab.timeoutVerdict waitSelector seen) s).2,seen)

def Tab.nap {α : Type} (tab : Tab σ) : Polling.Step σ α := fun s => (none,tab.sleep (pollInterval * tab.ms) s)

def Tab.timeoutRound (tab : Tab σ) (start timeout : Nat) (waitSelector skipSelector : Option String) :
    Polling.Step (σ × Bool) WaitResult :=
  inOrder [(tab.checkCancellation .failed).beside Bool,(tab.lookFor .skip skipSelector .skipSelectorFound).beside Bool,
    tab.lookForWanted waitSelector skipSelector,tab.expireTimeout start timeout waitSelector,tab.nap.beside Bool]

/-- `TimeoutStrategy::run`; its clock starts when the navigation has ended. -/
def Tab.timeout (tab : Tab σ) (spent timeoutMs : Nat) (waitSelector skipSelector : Option String) (s : σ) :
    Option (WaitResult × σ) :=
  match tab.waitUntilNavigated s with
  | (false,s) => some (.failed,s)
  | (true,s) =>
    let start := (tab.startedAgo spent s).1
    let timeout := effectiveTimeout timeoutMs * tab.ms
    (poll (tab.timeoutRound start timeout waitSelector skipSelector) (timeout + 1)
      ((tab.startedAgo spent s).2,false)).map fun (result,s,_) => (result,s)

variable {tab : Tab σ} {time : σ → Nat} {limit : Nat}

/-- Whatever a tab is asked, the world after it stands so to the world before. -/
structure Tab.Asks (tab : Tab σ) (stands : σ → σ → Prop) : Prop where
  unasked : ∀ s, stands s s
  selectorExists : ∀ purpose selector s, stands s (tab.selectorExists purpose selector s).2
  navigationStatus : ∀ s, stands s (tab.navigationStatus s).2
  idle : ∀ s, stands s (tab.idle s).2

namespace Tab.Asks

variable {stands : σ → σ → Prop}

theorem lookFor (asks : tab.Asks stands) (purpose : Purpose) (selector : Option String) (found : WaitResult) (s : σ) :
    stands s (tab.lookFor purpose selector found s).2 := by
  cases selector with
  | none => exact asks.unasked s
  | some text => exact asks.selectorExists purpose text s

theorem finalSelectorVerdict (asks : tab.Asks stands) (waitSelector : Option String) (s : σ) :
    stands s (tab.finalSelectorVerdict waitSelector s).2 := by
  cases waitSelector with
  | none => exact asks.unasked s
  | some text => exact asks.selectorExists .wait text s

theorem checkIdle (asks : tab.Asks stands) (s : σ) : stands s (tab.checkIdle s).2 :=
  asks.idle s

theorem exitEarly (asks : tab.Asks stands) (s : σ) : stands s (tab.exitEarly s).2 :=
  asks.navigationStatus s

theorem idleVerdict (asks : tab.Asks stands) (waitSelector : Option String) (s : σ) :
    stands s (tab.idleVerdict waitSelector s).2 := by
  cases waitSelector with
  | none => exact asks.unasked s
  | some text => exact asks.selectorExists .wait text s

theorem timeoutVerdict (asks : tab.Asks stands) (waitSelector : Option String) (seen : Bool) (s : σ) :
    stands s (tab.timeoutVerdict waitSelector seen s).2 := by
  cases seen with
  | true => exact asks.unasked s
  | false => exact asks.finalSelectorVerdict waitSelector s

theorem lookForWanted (asks : tab.Asks stands) (waitSelector skipSelector : Option String) (s : σ × Bool) :
    stands s.1 (tab.lookForWanted waitSelector skipSelector s).2.1 := by
  obtain ⟨s,seen⟩ := s
  cases waitSelector with
  | none => exact asks.unasked s
  | some text =>
    cases seen with
    | true => exact asks.unasked s
    | false => exact asks.selectorExists .wait text s

end Tab.Asks

theorem Tab.Prompt.asks (prompt : tab.Prompt time limit) : tab.Asks fun s t => time t = time s where
  unasked _ := rfl
  selectorExists := prompt.selectorExists
  navigationStatus := prompt.navigationStatus
  idle := prompt.idle

namespace Tab.Prompt

theorem startedAgo (prompt : tab.Prompt time limit) (past : spent ≤ time s) :
    (tab.startedAgo spent s).1 = time s - spent ∧ time (tab.startedAgo spent s).2 = time s := by
  constructor
  · rw [Tab.startedAgo,prompt.now s]
    simp only [past,if_true]
  · exact prompt.now_time s

theorem expire_time (prompt : tab.Prompt time limit) {verdict : σ → WaitResult × σ}
    (still : ∀ s, time (verdict s).2 = time s) (start budget : Nat) (s : σ) :
    time (tab.expire start budget verdict s).2 = time s := by
  obtain ⟨_,kept⟩ := prompt.elapsed start s
  unfold Tab.expire
  split
  · rw [still,kept]
  · exact kept

/-- Past an expiry check the budget is not used up. -/
theorem expire (prompt : tab.Prompt time limit) {verdict : σ → WaitResult × σ}
    (still : ∀ s, time (verdict s).2 = time s) (started : start ≤ t) (early : t ≤ start + budget) :
    Meets (fun s => time s = t) (tab.expire start budget verdict)
      (fun _ s => start ≤ time s ∧ time s ≤ start + budget) (fun s => time s = t ∧ t < start + budget) := by
  rintro s rfl
  have kept := prompt.expire_time still start budget s
  obtain ⟨read,_⟩ := prompt.elapsed start s
  simp only [kept]
  constructor
  · intro _ _
    exact ⟨started,early⟩
  · intro unanswered
    simp only [Tab.expire,read] at unanswered
    split at unanswered
    · contradiction
    · exact ⟨trivial,by omega⟩

/-- The verdict of an expiry check comes no earlier than the end of the budget. -/
theorem expire_late (prompt : tab.Prompt time limit) {verdict : σ → WaitResult × σ}
    (still : ∀ s, time (verdict s).2 = time s) (moment : Nat → Prop) :
    Meets (fun s => moment (time s)) (tab.expire start budget verdict)
      (fun _ s => moment (time s) ∧ budget ≤ time s - start) (fun s => moment (time s)) := by
  intro s holds
  have kept := prompt.expire_time still start budget s
  obtain ⟨read,_⟩ := prompt.elapsed start s
  simp only [kept]
  constructor
  · intro result answered
    simp only [Tab.expire,read] at answered
    split at answered
    · next past => exact ⟨holds,past⟩
    · contradiction
  · exact fun _ => holds

/-- A turn of the loop takes time, and ends by the deadline. -/
theorem pause (α : Type) (prompt : tab.Prompt time limit) (started : start ≤ time s)
    (left : time s < start + total) :
    time s < time ((tab.pause start total : Polling.Step σ α) s).2 ∧
      time ((tab.pause start total : Polling.Step σ α) s).2 ≤ start + total := by
  obtain ⟨read,kept⟩ := prompt.elapsed start s
  have interval : 0 < pollInterval * tab.ms := Nat.mul_pos (by decide) prompt.ticks
  simp only [Tab.pause,read]
  split
  · rw [prompt.spin,kept]
    omega
  · next room =>
    rw [prompt.sleep,kept]
    omega

theorem idleRound (prompt : tab.Prompt time limit) (waitSelector skipSelector : Option String)
    (started : start ≤ t) (early : t ≤ start + total) :
    Meets (fun s => time s = t) (tab.idleRound start total waitSelector skipSelector)
      (fun _ s => start ≤ time s ∧ time s ≤ start + total) (fun s => t < time s ∧ time s ≤ start + total) := by
  apply Meets.cons fun s => time s = t
  · exact within prompt.cancelled started early
  apply Meets.cons fun s => time s = t
  · exact (within (prompt.asks.lookFor .skip skipSelector _) started early).answer
  apply Meets.cons fun s => time s = t
  · exact within prompt.asks.checkIdle started early
  apply Meets.cons fun s => time s = t
  · exact (within prompt.asks.exitEarly started early).answer
  apply Meets.cons fun s => time s = t ∧ t < start + total
  · exact (prompt.expire (prompt.asks.idleVerdict waitSelector) started early).answer
  apply Meets.last
  rintro s ⟨rfl,left⟩
  exact ⟨nofun,fun _ => prompt.pause (Option WaitResult) started left⟩

theorem searchRound (prompt : tab.Prompt time limit) (selector : String) (skipSelector : Option String)
    (selectorStart selectorTimeout : Nat) (started : start ≤ t) (early : t ≤ start + total) :
    Meets (fun s => time s = t) (tab.searchRound start total selectorStart selectorTimeout selector skipSelector)
      (fun _ s => start ≤ time s ∧ time s ≤ start + total) (fun s => t < time s ∧ time s ≤ start + total) := by
  have still := prompt.asks.finalSelectorVerdict (some selector)
  apply Meets.cons fun s => time s = t
  · exact within prompt.cancelled started early
  apply Meets.cons fun s => time s = t
  · exact within (prompt.asks.lookFor .skip skipSelector _) started early
  apply Meets.cons fun s => time s = t
  · exact within (prompt.asks.lookFor .wait (some selector) _) started early
  apply Meets.cons fun s => time s = t
  · exact within (prompt.expire_time still selectorStart selectorTimeout) started early
  apply Meets.cons fun s => time s = t ∧ t < start + total
  · exact prompt.expire still started early
  apply Meets.last
  rintro s ⟨rfl,left⟩
  exact ⟨nofun,fun _ => prompt.pause WaitResult started left⟩

/-- The wait for the load event is cut to the budget left. -/
theorem awaitReady (α : Type) (prompt : tab.Prompt time limit) (waitSelector : Option String)
    (started : start ≤ time s) (early : time s ≤ start + total) :
    start ≤ time ((tab.awaitReady start total waitSelector : Polling.Step σ α) s).2 ∧
      time ((tab.awaitReady start total waitSelector : Polling.Step σ α) s).2 ≤ start + total := by
  obtain ⟨read,kept⟩ := prompt.elapsed start s
  simp only [Tab.awaitReady,read]
  split
  · omega
  · have ready := prompt.documentReady (min (30000 * tab.ms) (total - (time s - start))) waitSelector
      (tab.elapsed start s).2
    omega

theorem afterIdle (prompt : tab.Prompt time limit) (waitSelector skipSelector : Option String) :
    Meets (fun s => start ≤ time s ∧ time s ≤ start + total)
      (tab.afterIdle start total waitSelector skipSelector)
      (fun _ s => start ≤ time s ∧ time s ≤ start + total) (fun s => start ≤ time s ∧ time s ≤ start + total) := by
  have still {step : Polling.Step σ WaitResult} (kept : ∀ s, time (step s).2 = time s) :=
    meets_still kept fun t => start ≤ t ∧ t ≤ start + total
  apply Meets.cons fun s => start ≤ time s ∧ time s ≤ start + total
  · rintro s ⟨started,early⟩
    exact ⟨nofun,fun _ => prompt.awaitReady WaitResult waitSelector started early⟩
  apply Meets.cons _ (still (prompt.asks.lookFor .skip skipSelector _))
  apply Meets.cons _ (still (prompt.expire_time (prompt.asks.finalSelectorVerdict waitSelector) start total))
  exact (still prompt.asks.exitEarly).last

theorem search (prompt : tab.Prompt time limit) (timeoutMs : Nat) (selector : String)
    (skipSelector : Option String) (started : start ≤ time s) (early : time s ≤ start + total) :
    ∃ result s', tab.search start total timeoutMs selector skipSelector s = some (result,s') ∧
      start ≤ time s' ∧ time s' ≤ start + total := by
  have begun : time (tab.now (tab.elapsed start s).2).2 = time s := by
    rw [prompt.now_time,(prompt.elapsed start s).2]
  apply poll_by time
  · exact fun t started early => prompt.searchRound selector skipSelector _ _ started early
  · omega
  · omega
  · omega

/-- The strategy ends within its total timeout, of which some is already spent. -/
theorem networkIdle (prompt : tab.Prompt time limit) (timeoutMs : Nat) (waitSelector skipSelector : Option String)
    (past : spent ≤ time s) (room : spent ≤ totalTimeout timeoutMs waitSelector * tab.ms) :
    ∃ result s', tab.networkIdle spent timeoutMs waitSelector skipSelector s = some (result,s') ∧
      time s' + spent ≤ time s + totalTimeout timeoutMs waitSelector * tab.ms := by
  obtain ⟨read,kept⟩ := prompt.startedAgo past
  simp only [Tab.networkIdle,read]
  generalize totalTimeout timeoutMs waitSelector * tab.ms = total at *
  have begun : time (tab.listen total (tab.startedAgo spent s).2) = time s := by
    rw [prompt.listen,kept]
  obtain ⟨verdict,s₁,polled,started,early⟩ : ∃ verdict s₁,
      poll (tab.idleRound (time s - spent) total waitSelector skipSelector) (total + 1)
        (tab.listen total (tab.startedAgo spent s).2) = some (verdict,s₁) ∧
      time s - spent ≤ time s₁ ∧ time s₁ ≤ time s - spent + total := by
    apply poll_by time
    · exact fun t started early => prompt.idleRound waitSelector skipSelector started early
    · omega
    · omega
    · omega
  simp only [polled,Option.bind_some]
  cases verdict with
  | some result => exact ⟨result,s₁,rfl,by omega⟩
  | none =>
    rcases (prompt.afterIdle waitSelector skipSelector).outcome ⟨started,early⟩ with
      ⟨result,s₂,same,_,early⟩ | ⟨s₂,same,started,early⟩
    · simp only [same]
      exact ⟨result,s₂,rfl,by omega⟩
    · simp only [same]
      cases waitSelector with
      | none => exact ⟨.success,s₂,rfl,by omega⟩
      | some selector =>
        obtain ⟨result,s₃,searched,_,early⟩ := prompt.search timeoutMs selector skipSelector started early
        exact ⟨result,s₃,searched,by omega⟩

theorem timeoutRound (prompt : tab.Prompt time limit) (waitSelector skipSelector : Option String)
    (started : start ≤ t) :
    Meets (fun s => time s.1 = t) (tab.timeoutRound start budget waitSelector skipSelector)
      (fun _ s => time s.1 = t) (fun s => time s.1 = t + pollInterval * tab.ms ∧ t < start + budget) := by
  apply Meets.cons fun s => time s.1 = t
  · exact Meets.beside fun seen => meets_still prompt.cancelled (· = t)
  apply Meets.cons fun s => time s.1 = t
  · exact Meets.beside fun seen => meets_still (prompt.asks.lookFor .skip skipSelector _) (· = t)
  apply Meets.cons fun s => time s.1 = t
  · exact meets_still (prompt.asks.lookForWanted waitSelector skipSelector) (· = t)
  apply Meets.cons fun s => time s.1 = t ∧ t < start + budget
  · rintro ⟨s,seen⟩ rfl
    have still := prompt.asks.timeoutVerdict waitSelector seen
    have kept := prompt.expire_time still start budget s
    obtain ⟨read,_⟩ := prompt.elapsed start s
    simp only [Tab.expireTimeout,kept]
    constructor
    · exact fun _ _ => trivial
    · intro unanswered
      simp only [Tab.expire,read] at unanswered
      split at unanswered
      · contradiction
      · exact ⟨trivial,by omega⟩
  apply Meets.last
  apply Meets.beside
  rintro seen s ⟨rfl,left⟩
  exact ⟨nofun,fun _ => ⟨prompt.sleep _ s,left⟩⟩

end Tab.Prompt

/-- A whole number of intervals after the loop began, and no more of them than the budget
takes. -/
def OnBeat (begun deadline interval t : Nat) : Prop :=
  ∃ k, t = begun + k * interval ∧ (k = 0 ∨ t < deadline + interval)

theorem OnBeat.next (beat : OnBeat begun deadline interval t) (left : t < deadline) :
    OnBeat begun deadline interval (t + interval) := by
  obtain ⟨k,reached,_⟩ := beat
  refine ⟨k + 1,?_,Or.inr (by omega)⟩
  rw [reached,Nat.succ_mul]
  exact Nat.add_assoc begun (k * interval) interval

/-- In milliseconds, the budget is used in whole poll intervals. -/
theorem OnBeat.whole (timeoutMs : Nat) (beat : OnBeat begun deadline (pollInterval * ms) t)
    (budget : deadline ≤ begun + timeoutMs * ms) : t ≤ begun + (timeoutMs + 499) / 500 * 500 * ms := by
  obtain ⟨k,rfl,first | left⟩ := beat
  · rw [first,Nat.zero_mul]
    exact Nat.le_add_right begun _
  · rw [← Nat.mul_assoc] at left ⊢
    have less : k * pollInterval * ms < (timeoutMs + pollInterval) * ms := by
      rw [Nat.add_mul]
      omega
    have rounds := Nat.lt_of_mul_lt_mul_right less
    have whole : k * pollInterval ≤ (timeoutMs + 499) / 500 * 500 := by
      unfold pollInterval at *
      omega
    have ticks := Nat.mul_le_mul_right ms whole
    omega

namespace Tab.Prompt

theorem timeoutRounds (prompt : tab.Prompt time limit) (waitSelector skipSelector : Option String)
    (started : start ≤ begun) (n : Nat) :
    Meets (fun s => OnBeat begun (start + budget) (pollInterval * tab.ms) (time s.1) ∧ start + budget - time s.1 = n)
      (tab.timeoutRound start budget waitSelector skipSelector)
      (fun _ s => OnBeat begun (start + budget) (pollInterval * tab.ms) (time s.1))
      (fun s => OnBeat begun (start + budget) (pollInterval * tab.ms) (time s.1) ∧ start + budget - time s.1 < n) := by
  rintro s ⟨beat,rfl⟩
  have reached : start ≤ time s.1 := by
    obtain ⟨k,reached,_⟩ := beat
    omega
  have interval : 0 < pollInterval * tab.ms := Nat.mul_pos (by decide) prompt.ticks
  rcases (prompt.timeoutRound waitSelector skipSelector reached).outcome rfl with
    ⟨result,s',same,ended⟩ | ⟨s',same,later,left⟩
  · rw [same]
    rw [← ended] at beat
    exact ⟨fun _ _ => beat,nofun⟩
  · rw [same]
    apply And.intro nofun
    intro _
    dsimp only
    rw [later]
    exact ⟨beat.next left,by omega⟩

/-- The loop goes on for as many intervals as the rest of the budget takes. -/
theorem timeoutLoop (prompt : tab.Prompt time limit) (waitSelector skipSelector : Option String) (budget : Nat)
    (started : start ≤ time s) :
    ∃ result t, poll (tab.timeoutRound start budget waitSelector skipSelector) (budget + 1) (s,false) = some (result,t) ∧
      OnBeat (time s) (start + budget) (pollInterval * tab.ms) (time t.1) := by
  apply poll_answers _ _ fun n => prompt.timeoutRounds waitSelector skipSelector started n
  · exact ⟨0,by simp only [Nat.zero_mul,Nat.add_zero],.inl rfl⟩
  · dsimp only
    omega

/-- The timeout is overrun by less than a poll interval. -/
theorem timeout (prompt : tab.Prompt time limit) (timeoutMs : Nat) (waitSelector skipSelector : Option String)
    (past : spent ≤ time s) :
    ∃ result s', tab.timeout spent timeoutMs waitSelector skipSelector s = some (result,s') ∧
      time s' ≤ time s + limit * tab.ms + (effectiveTimeout timeoutMs + 499) / 500 * 500 * tab.ms := by
  have navigated := prompt.waitUntilNavigated s
  unfold Tab.timeout
  match same : tab.waitUntilNavigated s with
  | (false,s₁) =>
    rw [same] at navigated
    exact ⟨.failed,s₁,rfl,by dsimp only at navigated; omega⟩
  | (true,s₁) =>
    rw [same] at navigated
    have past : spent ≤ time s₁ := by
      dsimp only at navigated
      omega
    obtain ⟨read,kept⟩ := prompt.startedAgo past
    obtain ⟨result,⟨s₂,seen⟩,polled,beat⟩ := prompt.timeoutLoop waitSelector skipSelector
      (effectiveTimeout timeoutMs * tab.ms) (show time s₁ - spent ≤ time (tab.startedAgo spent s₁).2 by omega)
    have ended := beat.whole (effectiveTimeout timeoutMs) (by omega)
    simp only [read]
    refine ⟨result,s₂,?_,?_⟩
    · rw [polled]
      rfl
    · dsimp only at navigated ended
      omega

end Tab.Prompt

end BrowserHive.Worker
