import BrowserHive.Worker.HardTimeout

/-! Waiting by a clock that does no more than advance: every wait ends. -/
namespace BrowserHive.Worker

open Polling

variable {σ : Type} {tab : Tab σ} {time : σ → Nat}

/-- Nothing turns the clock back, a sleep lasts for as long as was asked, and a turn of a
loop without one takes a tick or more. -/
structure Tab.Clock (tab : Tab σ) (time : σ → Nat) : Prop where
  ticks : 0 < tab.ms
  now : ∀ s, time s ≤ (tab.now s).1 ∧ (tab.now s).1 ≤ time (tab.now s).2
  sleep : ∀ d s, time s + d ≤ time (tab.sleep d s)
  spin : ∀ s, time s < time (tab.spin s)
  cancelled : ∀ s, time s ≤ time (tab.cancelled s).2
  latest : ∀ s, time s ≤ time (tab.latest s).2
  selectorExists : ∀ purpose selector s, time s ≤ time (tab.selectorExists purpose selector s).2
  navigationStatus : ∀ s, time s ≤ time (tab.navigationStatus s).2
  listen : ∀ timeout s, time s ≤ time (tab.listen timeout s)
  idle : ∀ s, time s ≤ time (tab.idle s).2
  documentReady : ∀ wait selector s, time s ≤ time (tab.documentReady wait selector s)
  waitUntilNavigated : ∀ s, time s ≤ time (tab.waitUntilNavigated s).2

theorem Tab.Prompt.clock (prompt : tab.Prompt time limit) : tab.Clock time where
  ticks := prompt.ticks
  now s := by
    rw [prompt.now s]
    exact ⟨Nat.le_refl _,Nat.le_of_eq (prompt.now_time s).symm⟩
  sleep d s := Nat.le_of_eq (prompt.sleep d s).symm
  spin s := Nat.le_of_eq (prompt.spin s).symm
  cancelled s := Nat.le_of_eq (prompt.cancelled s).symm
  latest s := Nat.le_of_eq (prompt.latest s).symm
  selectorExists purpose selector s := Nat.le_of_eq (prompt.selectorExists purpose selector s).symm
  navigationStatus s := Nat.le_of_eq (prompt.navigationStatus s).symm
  listen timeout s := Nat.le_of_eq (prompt.listen timeout s).symm
  idle s := Nat.le_of_eq (prompt.idle s).symm
  documentReady wait selector s := (prompt.documentReady wait selector s).1
  waitUntilNavigated s := (prompt.waitUntilNavigated s).1

theorem Tab.Clock.asks (clock : tab.Clock time) : tab.Asks fun s t => time s ≤ time t where
  unasked _ := Nat.le_refl _
  selectorExists := clock.selectorExists
  navigationStatus := clock.navigationStatus
  idle := clock.idle

theorem meets_later {τ : Type} {α : Type} {step : Polling.Step τ α} {clock : τ → Nat}
    (onward : ∀ s, clock s ≤ clock (step s).2) (t : Nat) :
    Meets (fun s => t ≤ clock s) step (fun _ s => t ≤ clock s) (fun s => t ≤ clock s) := by
  intro s reached
  have later := Nat.le_trans reached (onward s)
  exact ⟨fun _ _ => later,fun _ => later⟩

namespace Tab.Clock

theorem elapsed (clock : tab.Clock time) (start : Nat) (s : σ) :
    time s - start ≤ (tab.elapsed start s).1 ∧ (tab.elapsed start s).1 ≤ time (tab.elapsed start s).2 - start := by
  obtain ⟨after,before⟩ := clock.now s
  exact ⟨Nat.sub_le_sub_right after start,Nat.sub_le_sub_right before start⟩

theorem elapsed_time (clock : tab.Clock time) (start : Nat) (s : σ) : time s ≤ time (tab.elapsed start s).2 := by
  obtain ⟨after,before⟩ := clock.now s
  exact Nat.le_trans after before

theorem startedAgo (clock : tab.Clock time) (spent : Nat) (s : σ) :
    (tab.startedAgo spent s).1 ≤ time (tab.startedAgo spent s).2 ∧ time s ≤ time (tab.startedAgo spent s).2 := by
  obtain ⟨after,before⟩ := clock.now s
  unfold Tab.startedAgo
  constructor
  · dsimp only
    split <;> omega
  · exact Nat.le_trans after before

/-- Past an expiry check, its clock was read before the deadline. -/
theorem expire (clock : tab.Clock time) {verdict : σ → WaitResult × σ}
    (onward : ∀ s, time s ≤ time (verdict s).2) (start budget t : Nat) :
    Meets (fun s => t ≤ time s) (tab.expire start budget verdict)
      (fun _ s => t ≤ time s) (fun s => t ≤ time s ∧ t < start + budget) := by
  intro s reached
  obtain ⟨read,_⟩ := clock.elapsed start s
  have later := clock.elapsed_time start s
  unfold Tab.expire
  split
  · exact ⟨fun _ _ => Nat.le_trans (Nat.le_trans reached later) (onward _),nofun⟩
  · next left =>
    refine ⟨nofun,fun _ => ⟨Nat.le_trans reached later,?_⟩⟩
    omega

/-- The verdict of an expiry check comes past the deadline. -/
theorem expire_late (clock : tab.Clock time) {verdict : σ → WaitResult × σ}
    (onward : ∀ s, time s ≤ time (verdict s).2) (start : Nat) (some : 0 < budget) :
    Meets (fun _ => True) (tab.expire start budget verdict) (fun _ s => start + budget ≤ time s) (fun _ => True) := by
  intro s _
  refine ⟨?_,fun _ => trivial⟩
  obtain ⟨_,read⟩ := clock.elapsed start s
  unfold Tab.expire
  split
  · next past =>
    intro _ _
    have later := onward (tab.elapsed start s).2
    dsimp only
    omega
  · nofun

theorem pause (α : Type) (clock : tab.Clock time) (start total : Nat) (s : σ) :
    time s < time ((tab.pause start total : Polling.Step σ α) s).2 := by
  have later := clock.elapsed_time start s
  have interval : 0 < pollInterval * tab.ms := Nat.mul_pos (by decide) clock.ticks
  unfold Tab.pause
  dsimp only
  split
  · exact Nat.lt_of_le_of_lt later (clock.spin _)
  · have slept := clock.sleep (pollInterval * tab.ms) (tab.elapsed start s).2
    omega

theorem idleRound (clock : tab.Clock time) (start total : Nat) (waitSelector skipSelector : Option String) (t : Nat) :
    Meets (fun s => t ≤ time s) (tab.idleRound start total waitSelector skipSelector)
      (fun _ s => t ≤ time s) (fun s => t < time s ∧ t < start + total) := by
  apply Meets.cons fun s => t ≤ time s
  · exact meets_later clock.cancelled t
  apply Meets.cons fun s => t ≤ time s
  · exact (meets_later (clock.asks.lookFor .skip skipSelector _) t).answer
  apply Meets.cons fun s => t ≤ time s
  · exact meets_later clock.asks.checkIdle t
  apply Meets.cons fun s => t ≤ time s
  · exact (meets_later clock.asks.exitEarly t).answer
  apply Meets.cons fun s => t ≤ time s ∧ t < start + total
  · exact (clock.expire (clock.asks.idleVerdict waitSelector) start total t).answer
  apply Meets.last
  rintro s ⟨reached,left⟩
  exact ⟨nofun,fun _ => ⟨Nat.lt_of_le_of_lt reached (clock.pause (Option WaitResult) start total s),left⟩⟩

theorem awaitReady (α : Type) (clock : tab.Clock time) (start total : Nat) (waitSelector : Option String) (s : σ) :
    time s ≤ time ((tab.awaitReady start total waitSelector : Polling.Step σ α) s).2 := by
  have later := clock.elapsed_time start s
  unfold Tab.awaitReady
  dsimp only
  split
  · exact later
  · exact Nat.le_trans later (clock.documentReady _ waitSelector _)

theorem afterIdle (clock : tab.Clock time) (start total : Nat) (waitSelector skipSelector : Option String) (t : Nat) :
    Meets (fun s => t ≤ time s) (tab.afterIdle start total waitSelector skipSelector)
      (fun _ s => t ≤ time s) (fun s => t ≤ time s) := by
  apply (meets_later (clock.awaitReady _ start total waitSelector) t).cons
  apply (meets_later (clock.asks.lookFor .skip skipSelector _) t).cons
  apply Meets.cons fun s => t ≤ time s
  · apply (clock.expire (clock.asks.finalSelectorVerdict waitSelector) start total t).weaken
    · exact fun _ => id
    · exact fun _ _ => id
    · exact fun _ kept => kept.1
  exact (meets_later clock.asks.exitEarly t).last

theorem searchRound (clock : tab.Clock time) (start total selectorStart selectorTimeout : Nat) (selector : String)
    (skipSelector : Option String) (t : Nat) :
    Meets (fun s => t ≤ time s) (tab.searchRound start total selectorStart selectorTimeout selector skipSelector)
      (fun _ s => t ≤ time s) (fun s => t < time s ∧ t < start + total) := by
  have final := clock.asks.finalSelectorVerdict (some selector)
  apply (meets_later clock.cancelled t).cons
  apply (meets_later (clock.asks.lookFor .skip skipSelector _) t).cons
  apply (meets_later (clock.asks.lookFor .wait (some selector) _) t).cons
  apply Meets.cons fun s => t ≤ time s
  · apply (clock.expire final selectorStart selectorTimeout t).weaken
    · exact fun _ => id
    · exact fun _ _ => id
    · exact fun _ kept => kept.1
  apply (clock.expire final start total t).cons
  apply Meets.last
  rintro s ⟨reached,left⟩
  exact ⟨nofun,fun _ => ⟨Nat.lt_of_le_of_lt reached (clock.pause WaitResult start total s),left⟩⟩

theorem search (clock : tab.Clock time) (total timeoutMs : Nat) (selector : String) (skipSelector : Option String)
    (started : start ≤ time s) :
    ∃ result s', tab.search start total timeoutMs selector skipSelector s = some (result,s') := by
  have later := clock.elapsed_time start s
  have begun := clock.elapsed_time start (tab.elapsed start s).2
  have ended := poll_before time (clock.searchRound start total (tab.now (tab.elapsed start s).2).1
    (tab.selectorTimeout timeoutMs (total - (tab.elapsed start s).1)) selector skipSelector)
    (show start + total - time (tab.elapsed start (tab.elapsed start s).2).2 < total + 1 by omega)
  obtain ⟨result,s',same,_⟩ := ended
  exact ⟨result,s',same⟩

theorem networkIdle (clock : tab.Clock time) (spent timeoutMs : Nat) (waitSelector skipSelector : Option String) (s : σ) :
    ∃ result s', tab.networkIdle spent timeoutMs waitSelector skipSelector s = some (result,s') := by
  obtain ⟨started,_⟩ := clock.startedAgo spent s
  simp only [Tab.networkIdle]
  generalize totalTimeout timeoutMs waitSelector * tab.ms = total
  generalize (tab.startedAgo spent s).1 = start at *
  have listening := clock.listen total (tab.startedAgo spent s).2
  obtain ⟨verdict,s₁,polled,later⟩ := poll_before time (clock.idleRound start total waitSelector skipSelector)
    (show start + total - time (tab.listen total (tab.startedAgo spent s).2) < total + 1 by omega)
  simp only [polled,Option.bind_some]
  have started : start ≤ time s₁ := by omega
  cases verdict with
  | some result => exact ⟨result,s₁,rfl⟩
  | none =>
    rcases (clock.afterIdle start total waitSelector skipSelector start).outcome started with
      ⟨result,s₂,same,_⟩ | ⟨s₂,same,started⟩
    · simp only [same]
      exact ⟨result,s₂,rfl⟩
    · simp only [same]
      cases waitSelector with
      | none => exact ⟨.success,s₂,rfl⟩
      | some selector => exact clock.search total timeoutMs selector skipSelector started

theorem timeoutRound (clock : tab.Clock time) (start timeout : Nat) (waitSelector skipSelector : Option String)
    (t : Nat) :
    Meets (fun s => t ≤ time s.1) (tab.timeoutRound start timeout waitSelector skipSelector)
      (fun _ s => t ≤ time s.1) (fun s => t < time s.1 ∧ t < start + timeout) := by
  have interval : 0 < pollInterval * tab.ms := Nat.mul_pos (by decide) clock.ticks
  apply Meets.cons fun s => t ≤ time s.1
  · exact Meets.beside fun seen => meets_later clock.cancelled t
  apply Meets.cons fun s => t ≤ time s.1
  · exact Meets.beside fun seen => meets_later (clock.asks.lookFor .skip skipSelector _) t
  apply Meets.cons fun s => t ≤ time s.1
  · exact meets_later (clock.asks.lookForWanted waitSelector skipSelector) t
  apply Meets.cons fun s => t ≤ time s.1 ∧ t < start + timeout
  · rintro ⟨s,seen⟩ reached
    exact clock.expire (clock.asks.timeoutVerdict waitSelector seen) start timeout t s reached
  apply Meets.last
  apply Meets.beside
  rintro seen s ⟨reached,left⟩
  refine ⟨nofun,fun _ => ⟨?_,left⟩⟩
  have slept := clock.sleep (pollInterval * tab.ms) s
  dsimp only at reached
  change t < time (tab.sleep (pollInterval * tab.ms) s)
  omega

theorem timeout (clock : tab.Clock time) (spent timeoutMs : Nat) (waitSelector skipSelector : Option String) (s : σ) :
    ∃ result s', tab.timeout spent timeoutMs waitSelector skipSelector s = some (result,s') := by
  unfold Tab.timeout
  match tab.waitUntilNavigated s with
  | (false,s₁) => exact ⟨.failed,s₁,rfl⟩
  | (true,s₁) =>
    obtain ⟨started,_⟩ := clock.startedAgo spent s₁
    dsimp only
    generalize (tab.startedAgo spent s₁).1 = start at *
    obtain ⟨result,t,polled,_⟩ := poll_before (fun s : σ × Bool => time s.1)
      (clock.timeoutRound start (effectiveTimeout timeoutMs * tab.ms) waitSelector skipSelector)
      (show start + effectiveTimeout timeoutMs * tab.ms - time ((tab.startedAgo spent s₁).2,false).1 <
        effectiveTimeout timeoutMs * tab.ms + 1 by dsimp only; omega)
    exact ⟨result,t.1,by rw [polled]; rfl⟩

/-- A sleep of nothing is only asked for past the deadline. -/
theorem doze (α : Type) (clock : tab.Clock time) (reached : t ≤ time s) (some : 0 < budget)
    (left : t < start + budget) : t < time ((tab.doze start budget : Polling.Step σ α) s).2 := by
  obtain ⟨_,read⟩ := clock.elapsed start s
  have later := clock.elapsed_time start s
  have interval : 0 < challengePollInterval * tab.ms := Nat.mul_pos (by decide) clock.ticks
  have slept := clock.sleep (min (challengePollInterval * tab.ms) (budget - (tab.elapsed start s).1)) (tab.elapsed start s).2
  change t < time (tab.sleep _ _)
  omega

theorem challengeRound (clock : tab.Clock time) (detectors : List ChallengeDetector) (start window t : Nat) :
    Meets (fun s => t ≤ time s.1) (tab.challengeRound detectors start window)
      (fun _ s => t ≤ time s.1) (fun s => t < time s.1 ∧ t < start + window) := by
  apply Meets.cons fun s => t ≤ time s.1
  · exact Meets.beside fun first => meets_later clock.cancelled t
  apply Meets.cons fun s => t ≤ time s.1
  · exact meets_later (fun s => clock.latest s.1) t
  apply Meets.cons fun s => t ≤ time s.1 ∧ 0 < window ∧ t < start + window
  · rintro ⟨s,first⟩ (reached : t ≤ time s)
    obtain ⟨read,_⟩ := clock.elapsed start s
    have later := Nat.le_trans reached (clock.elapsed_time start s)
    simp only [Tab.closeWindow]
    split
    · exact ⟨fun _ _ => later,by rintro ⟨⟩⟩
    · exact ⟨by rintro _ ⟨⟩,fun _ => ⟨later,by omega,by omega⟩⟩
  apply Meets.last
  apply Meets.beside
  rintro first s ⟨reached,some,left⟩
  exact ⟨by rintro _ ⟨⟩,fun _ => ⟨clock.doze (Option ChallengeOutcome) reached some left,left⟩⟩

theorem waitOutChallenge (clock : tab.Clock time) (detectors : List ChallengeDetector) (window : Nat) (s : σ) :
    ∃ outcome s', tab.waitOutChallenge detectors window s = some (outcome,s') := by
  obtain ⟨_,begun⟩ := clock.now s
  obtain ⟨outcome,t,polled,_⟩ := poll_before (fun s : σ × Option Nat => time s.1)
      (clock.challengeRound detectors (tab.now s).1 window)
    (show (tab.now s).1 + window - time ((tab.now s).2,none).1 < window + 1 by dsimp only; omega)
  have answered := congrArg (Option.map fun ended => (ended.1,ended.2.1)) polled
  exact ⟨outcome,t.1,answered⟩

theorem bodyRound (clock : tab.Clock time) (start budget t : Nat) :
    Meets (fun s => t ≤ time s) (tab.bodyRound start budget)
      (fun _ s => t ≤ time s) (fun s => t < time s ∧ t < start + budget) := by
  apply (meets_later clock.cancelled t).cons
  apply Meets.cons fun s => t ≤ time s ∧ 0 < budget ∧ t < start + budget
  · intro s reached
    have seen := clock.latest s
    obtain ⟨read,_⟩ := clock.elapsed start (tab.latest s).2
    have later := clock.elapsed_time start (tab.latest s).2
    simp only [Tab.lookForBody]
    split
    · exact ⟨fun _ _ => Nat.le_trans reached seen,by rintro ⟨⟩⟩
    · dsimp only
      split
      · exact ⟨fun _ _ => by omega,by rintro ⟨⟩⟩
      · exact ⟨by rintro _ ⟨⟩,fun _ => by omega⟩
  apply Meets.last
  rintro s ⟨reached,some,left⟩
  exact ⟨by rintro _ ⟨⟩,fun _ => ⟨clock.doze (Option Bool) reached some left,left⟩⟩

theorem waitForJsonBody (clock : tab.Clock time) (budget : Nat) (s : σ) :
    ∃ arrived s', tab.waitForJsonBody budget s = some (arrived,s') := by
  obtain ⟨_,begun⟩ := clock.now s
  obtain ⟨arrived,s',polled,_⟩ := poll_before time (clock.bodyRound (tab.now s).1 budget)
    (show (tab.now s).1 + budget - time (tab.now s).2 < budget + 1 by omega)
  exact ⟨arrived,s',polled⟩

end Tab.Clock

end BrowserHive.Worker
