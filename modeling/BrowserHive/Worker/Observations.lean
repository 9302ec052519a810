import BrowserHive.Worker.Clock

/-! What a wait observes of a tab: a recorded tab does what the tab does and keeps a log of
the answers it gave, the latest first. -/
namespace BrowserHive.Worker

open Polling

inductive Observation where
  | read (now : Nat)
  | cancelled (yes : Bool)
  | document (latest : Option DocumentSnapshot)
  | probe (purpose : Purpose) (selector : String) (answer : Probe)
  | status (code : Option Nat)
  | idle (reached : Option Bool)
  | navigated (yes : Bool)
  deriving DecidableEq, Repr

variable {σ : Type}

def Tab.recorded (tab : Tab σ) : Tab (σ × List Observation) where
  ms := tab.ms
  now := fun (s,log) => ((tab.now s).1,(tab.now s).2,.read (tab.now s).1 :: log)
  sleep d := fun (s,log) => (tab.sleep d s,log)
  spin := fun (s,log) => (tab.spin s,log)
  cancelled := fun (s,log) => ((tab.cancelled s).1,(tab.cancelled s).2,.cancelled (tab.cancelled s).1 :: log)
  latest := fun (s,log) => ((tab.latest s).1,(tab.latest s).2,.document (tab.latest s).1 :: log)
  selectorExists purpose text := fun (s,log) =>
    ((tab.selectorExists purpose text s).1,(tab.selectorExists purpose text s).2,
      .probe purpose text (tab.selectorExists purpose text s).1 :: log)
  navigationStatus := fun (s,log) =>
    ((tab.navigationStatus s).1,(tab.navigationStatus s).2,.status (tab.navigationStatus s).1 :: log)
  listen timeout := fun (s,log) => (tab.listen timeout s,log)
  idle := fun (s,log) => ((tab.idle s).1,(tab.idle s).2,.idle (tab.idle s).1 :: log)
  documentReady wait selector := fun (s,log) => (tab.documentReady wait selector s,log)
  waitUntilNavigated := fun (s,log) =>
    ((tab.waitUntilNavigated s).1,(tab.waitUntilNavigated s).2,.navigated (tab.waitUntilNavigated s).1 :: log)

variable {tab : Tab σ} {time : σ → Nat} {limit : Nat}

theorem Tab.Clock.recorded (clock : tab.Clock time) : tab.recorded.Clock fun t => time t.1 where
  ticks := clock.ticks
  now t := clock.now t.1
  sleep d t := clock.sleep d t.1
  spin t := clock.spin t.1
  cancelled t := clock.cancelled t.1
  latest t := clock.latest t.1
  selectorExists purpose selector t := clock.selectorExists purpose selector t.1
  navigationStatus t := clock.navigationStatus t.1
  listen timeout t := clock.listen timeout t.1
  idle t := clock.idle t.1
  documentReady wait selector t := clock.documentReady wait selector t.1
  waitUntilNavigated t := clock.waitUntilNavigated t.1

theorem Tab.Prompt.recorded (prompt : tab.Prompt time limit) : tab.recorded.Prompt (fun t => time t.1) limit where
  ticks := prompt.ticks
  now t := by
    have read := congrArg Prod.fst (prompt.now t.1)
    exact Prod.ext read rfl
  now_time t := prompt.now_time t.1
  sleep d t := prompt.sleep d t.1
  spin t := prompt.spin t.1
  cancelled t := prompt.cancelled t.1
  latest t := prompt.latest t.1
  selectorExists purpose selector t := prompt.selectorExists purpose selector t.1
  navigationStatus t := prompt.navigationStatus t.1
  listen timeout t := prompt.listen timeout t.1
  idle t := prompt.idle t.1
  documentReady wait selector t := prompt.documentReady wait selector t.1
  waitUntilNavigated t := prompt.waitUntilNavigated t.1

/-! ### A recorded tab does what the tab does -/

section Follows

variable (tab)

theorem follows_checkCancellation {α : Type} (failure : α) :
    Follows Prod.fst (tab.recorded.checkCancellation failure) (tab.checkCancellation failure) :=
  fun _ => rfl

theorem follows_lookFor (purpose : Purpose) (selector : Option String) (found : WaitResult) :
    Follows Prod.fst (tab.recorded.lookFor purpose selector found) (tab.lookFor purpose selector found) := by
  intro t
  cases selector <;> rfl

theorem finalSelectorVerdict_forget (waitSelector : Option String) (t : σ × List Observation) :
    tab.finalSelectorVerdict waitSelector t.1 =
      Prod.map id Prod.fst (tab.recorded.finalSelectorVerdict waitSelector t) := by
  cases waitSelector <;> rfl

theorem follows_expire {finer : σ × List Observation → WaitResult × (σ × List Observation)}
    {verdict : σ → WaitResult × σ} (same : ∀ t, verdict t.1 = Prod.map id Prod.fst (finer t)) (start budget : Nat) :
    Follows Prod.fst (tab.recorded.expire start budget finer) (tab.expire start budget verdict) := by
  intro t
  have read : (tab.elapsed start t.1).1 = (tab.recorded.elapsed start t).1 := rfl
  have left : (tab.elapsed start t.1).2 = (tab.recorded.elapsed start t).2.1 := rfl
  simp only [Tab.expire,read,left,same]
  split <;> rfl

theorem follows_exitEarly : Follows Prod.fst tab.recorded.exitEarly tab.exitEarly :=
  fun _ => rfl

theorem follows_checkIdle : Follows Prod.fst tab.recorded.checkIdle tab.checkIdle :=
  fun _ => rfl

theorem follows_pause (α : Type) (start total : Nat) :
    Follows (α := α) Prod.fst (tab.recorded.pause start total) (tab.pause start total) := by
  intro t
  simp only [Tab.pause,apply_ite Prod.fst]
  rfl

theorem follows_awaitReady (α : Type) (start total : Nat) (waitSelector : Option String) :
    Follows (α := α) Prod.fst (tab.recorded.awaitReady start total waitSelector)
      (tab.awaitReady start total waitSelector) := by
  intro t
  simp only [Tab.awaitReady,apply_ite Prod.fst]
  rfl

theorem idleVerdict_forget (waitSelector : Option String) (t : σ × List Observation) :
    tab.idleVerdict waitSelector t.1 = Prod.map id Prod.fst (tab.recorded.idleVerdict waitSelector t) := by
  cases waitSelector <;> rfl

theorem follows_idleRound (start total : Nat) (waitSelector skipSelector : Option String) :
    Follows Prod.fst (tab.recorded.idleRound start total waitSelector skipSelector)
      (tab.idleRound start total waitSelector skipSelector) := by
  apply (follows_checkCancellation tab _).cons
  apply (follows_lookFor tab .skip skipSelector _).answer.cons
  apply (follows_checkIdle tab).cons
  apply (follows_exitEarly tab).answer.cons
  apply (follows_expire tab (idleVerdict_forget tab waitSelector) start total).answer.cons
  exact (follows_pause tab _ start total).last

theorem follows_afterIdle (start total : Nat) (waitSelector skipSelector : Option String) :
    Follows Prod.fst (tab.recorded.afterIdle start total waitSelector skipSelector)
      (tab.afterIdle start total waitSelector skipSelector) := by
  apply (follows_awaitReady tab _ start total waitSelector).cons
  apply (follows_lookFor tab .skip skipSelector _).cons
  apply (follows_expire tab (finalSelectorVerdict_forget tab waitSelector) start total).cons
  exact (follows_exitEarly tab).last

theorem follows_searchRound (start total selectorStart selectorTimeout : Nat) (selector : String)
    (skipSelector : Option String) :
    Follows Prod.fst (tab.recorded.searchRound start total selectorStart selectorTimeout selector skipSelector)
      (tab.searchRound start total selectorStart selectorTimeout selector skipSelector) := by
  have final := finalSelectorVerdict_forget tab (some selector)
  apply (follows_checkCancellation tab _).cons
  apply (follows_lookFor tab .skip skipSelector _).cons
  apply (follows_lookFor tab .wait (some selector) _).cons
  apply (follows_expire tab final selectorStart selectorTimeout).cons
  apply (follows_expire tab final start total).cons
  exact (follows_pause tab _ start total).last

theorem follows_lookForWanted (waitSelector skipSelector : Option String) :
    Follows (Prod.map Prod.fst id) (tab.recorded.lookForWanted waitSelector skipSelector)
      (tab.lookForWanted waitSelector skipSelector) := by
  rintro ⟨t,seen⟩
  cases waitSelector with
  | none => rfl
  | some text => cases seen <;> rfl

theorem timeoutVerdict_forget (waitSelector : Option String) (seen : Bool) (t : σ × List Observation) :
    tab.timeoutVerdict waitSelector seen t.1 =
      Prod.map id Prod.fst (tab.recorded.timeoutVerdict waitSelector seen t) := by
  cases seen with
  | true => rfl
  | false => exact finalSelectorVerdict_forget tab waitSelector t

theorem follows_expireTimeout (start timeout : Nat) (waitSelector : Option String) :
    Follows (Prod.map Prod.fst id) (tab.recorded.expireTimeout start timeout waitSelector)
      (tab.expireTimeout start timeout waitSelector) := by
  rintro ⟨t,seen⟩
  have same := follows_expire tab (timeoutVerdict_forget tab waitSelector seen) start timeout t
  simp only [Tab.expireTimeout,Prod.map,same,id]

theorem follows_timeoutRound (start timeout : Nat) (waitSelector skipSelector : Option String) :
    Follows (Prod.map Prod.fst id) (tab.recorded.timeoutRound start timeout waitSelector skipSelector)
      (tab.timeoutRound start timeout waitSelector skipSelector) := by
  apply (follows_checkCancellation tab _).beside.cons
  apply (follows_lookFor tab .skip skipSelector _).beside.cons
  apply (follows_lookForWanted tab waitSelector skipSelector).cons
  apply (follows_expireTimeout tab start timeout waitSelector).cons
  exact Follows.last fun _ => rfl

theorem search_forget (start total timeoutMs : Nat) (selector : String) (skipSelector : Option String)
    (t : σ × List Observation) :
    tab.search start total timeoutMs selector skipSelector t.1 =
      (tab.recorded.search start total timeoutMs selector skipSelector t).map (Prod.map id Prod.fst) :=
  (follows_searchRound tab start total (tab.now (tab.elapsed start t.1).2).1
    (tab.selectorTimeout timeoutMs (total - (tab.elapsed start t.1).1)) selector skipSelector).poll (total + 1)
    (tab.recorded.now (tab.recorded.elapsed start t).2).2

/-- The log of a wait has no part in its verdict. -/
theorem networkIdle_forget (spent timeoutMs : Nat) (waitSelector skipSelector : Option String)
    (t : σ × List Observation) :
    tab.networkIdle spent timeoutMs waitSelector skipSelector t.1 =
      (tab.recorded.networkIdle spent timeoutMs waitSelector skipSelector t).map (Prod.map id Prod.fst) := by
  have started : (tab.startedAgo spent t.1).1 = (tab.recorded.startedAgo spent t).1 := rfl
  have listening (total : Nat) : tab.listen total (tab.startedAgo spent t.1).2 =
      (tab.recorded.listen total (tab.recorded.startedAgo spent t).2).1 := rfl
  have ticks : tab.recorded.ms = tab.ms := rfl
  simp only [Tab.networkIdle,started,listening,ticks]
  generalize (tab.recorded.startedAgo spent t).1 = start
  generalize totalTimeout timeoutMs waitSelector * tab.ms = total
  rw [(follows_idleRound tab start total waitSelector skipSelector).poll,Option.bind_map,Option.map_bind]
  congr 1
  funext ended
  obtain ⟨verdict,t⟩ := ended
  cases verdict with
  | some result => rfl
  | none =>
    simp only [Function.comp,Prod.map,id]
    rw [follows_afterIdle tab start total waitSelector skipSelector t]
    generalize tab.recorded.afterIdle start total waitSelector skipSelector t = ended
    obtain ⟨answer,u⟩ := ended
    cases answer with
    | some result => rfl
    | none =>
      cases waitSelector with
      | none => rfl
      | some selector => exact search_forget tab start total timeoutMs selector skipSelector u

theorem timeout_forget (spent timeoutMs : Nat) (waitSelector skipSelector : Option String)
    (t : σ × List Observation) :
    tab.timeout spent timeoutMs waitSelector skipSelector t.1 =
      (tab.recorded.timeout spent timeoutMs waitSelector skipSelector t).map (Prod.map id Prod.fst) := by
  have navigated : tab.waitUntilNavigated t.1 = Prod.map id Prod.fst (tab.recorded.waitUntilNavigated t) := rfl
  unfold Tab.timeout
  rw [navigated]
  match tab.recorded.waitUntilNavigated t with
  | (false,t) => rfl
  | (true,t) =>
    have rounds := (follows_timeoutRound tab (tab.startedAgo spent t.1).1
      (effectiveTimeout timeoutMs * tab.ms) waitSelector skipSelector).poll
      (effectiveTimeout timeoutMs * tab.ms + 1) ((tab.recorded.startedAgo spent t).2,false)
    have began : Prod.map Prod.fst id ((tab.recorded.startedAgo spent t).2,false) =
      ((tab.startedAgo spent t.1).2,false) := rfl
    rw [began] at rounds
    simp only [Prod.map,id,rounds,Option.map_map]
    rfl

theorem follows_challengeRound (detectors : List ChallengeDetector) (start window : Nat) :
    Follows (Prod.map Prod.fst id) (tab.recorded.challengeRound detectors start window)
      (tab.challengeRound detectors start window) := by
  apply (follows_checkCancellation tab _).beside.cons
  apply Follows.cons fun _ => rfl
  apply Follows.cons fun _ => rfl
  exact Follows.last fun _ => rfl

theorem waitOutChallenge_forget (detectors : List ChallengeDetector) (window : Nat) (t : σ × List Observation) :
    tab.waitOutChallenge detectors window t.1 =
      (tab.recorded.waitOutChallenge detectors window t).map (Prod.map id Prod.fst) := by
  have rounds := (follows_challengeRound tab detectors (tab.now t.1).1 window).poll (window + 1)
    ((tab.recorded.now t).2,none)
  have began : Prod.map Prod.fst id ((tab.recorded.now t).2,none) = ((tab.now t.1).2,(none : Option Nat)) := rfl
  rw [began] at rounds
  have itself : tab.waitOutChallenge detectors window t.1 = (poll (tab.challengeRound detectors (tab.now t.1).1 window)
      (window + 1) ((tab.now t.1).2,none)).map fun ended => (ended.1,ended.2.1) := rfl
  have logged : tab.recorded.waitOutChallenge detectors window t =
      (poll (tab.recorded.challengeRound detectors (tab.now t.1).1 window) (window + 1)
        ((tab.recorded.now t).2,none)).map fun ended => (ended.1,ended.2.1) := rfl
  rw [itself,logged,rounds,Option.map_map,Option.map_map]
  rfl

theorem follows_bodyRound (start budget : Nat) :
    Follows Prod.fst (tab.recorded.bodyRound start budget) (tab.bodyRound start budget) := by
  apply (follows_checkCancellation tab _).cons
  apply Follows.cons
  · intro t
    have latest : (tab.recorded.latest t).1 = (tab.latest t.1).1 := rfl
    simp only [Tab.lookForBody,latest]
    cases bodyArrived (tab.latest t.1).1 <;> rfl
  exact Follows.last fun _ => rfl

theorem waitForJsonBody_forget (budget : Nat) (t : σ × List Observation) :
    tab.waitForJsonBody budget t.1 = (tab.recorded.waitForJsonBody budget t).map (Prod.map id Prod.fst) :=
  (follows_bodyRound tab (tab.now t.1).1 budget).poll (budget + 1) (tab.recorded.now t).2

end Follows

/-! ### What the steps add to the log -/

section Log

variable (tab) {α : Type} {before after : List Observation → Prop} {answers : α → List Observation → Prop}
  {results : WaitResult → List Observation → Prop}

theorem logs_checkCancellation (failure : α) (stopped : ∀ log, before log → answers failure (.cancelled true :: log))
    (going : ∀ log, before log → after (.cancelled false :: log)) :
    Meets (fun t => before t.2) (tab.recorded.checkCancellation failure) (fun a t => answers a t.2)
      (fun t => after t.2) := by
  rintro ⟨s,log⟩ holds
  change (∀ a, (if (tab.cancelled s).1 then some failure else none) = some a → _) ∧
    ((if (tab.cancelled s).1 then some failure else none) = none → after (.cancelled (tab.cancelled s).1 :: log))
  dsimp only [Tab.checkCancellation,Tab.recorded]
  cases (tab.cancelled s).1 with
  | false => exact ⟨nofun,fun _ => going log holds⟩
  | true =>
    refine ⟨?_,nofun⟩
    rintro _ ⟨⟩
    exact stopped log holds

/-- A selector that is set is looked for. -/
theorem logs_lookFor (purpose : Purpose) (selector : Option String) (found : WaitResult)
    (unset : selector = none → ∀ log, before log → after log)
    (seen : ∀ text log, selector = some text → before log → results found (.probe purpose text .seen :: log))
    (failed : ∀ text log, selector = some text → before log → results .failed (.probe purpose text .failed :: log))
    (unseen : ∀ text log, selector = some text → before log → after (.probe purpose text .unseen :: log)) :
    Meets (fun t => before t.2) (tab.recorded.lookFor purpose selector found) (fun a t => results a t.2)
      (fun t => after t.2) := by
  rintro ⟨s,log⟩ holds
  cases selector with
  | none => exact ⟨nofun,fun _ => unset rfl log holds⟩
  | some text =>
    simp only [Tab.lookFor,Tab.recorded]
    cases (tab.selectorExists purpose text s).1 with
    | seen =>
      refine ⟨?_,nofun⟩
      rintro _ ⟨⟩
      exact seen text log rfl holds
    | unseen => exact ⟨nofun,fun _ => unseen text log rfl holds⟩
    | failed =>
      refine ⟨?_,nofun⟩
      rintro _ ⟨⟩
      exact failed text log rfl holds

theorem logs_checkIdle {replies : Option WaitResult → List Observation → Prop}
    (idle : ∀ log, before log → replies none (.idle (some true) :: log))
    (failed : ∀ log, before log → replies (some .failed) (.idle (some false) :: log))
    (busy : ∀ log, before log → after (.idle none :: log)) :
    Meets (fun t => before t.2) tab.recorded.checkIdle (fun a t => replies a t.2) (fun t => after t.2) := by
  rintro ⟨s,log⟩ holds
  simp only [Tab.checkIdle,Tab.recorded]
  match (tab.idle s).1 with
  | none => exact ⟨nofun,fun _ => busy log holds⟩
  | some true =>
    refine ⟨?_,nofun⟩
    rintro _ ⟨⟩
    exact idle log holds
  | some false =>
    refine ⟨?_,nofun⟩
    rintro _ ⟨⟩
    exact failed log holds

theorem logs_exitEarly
    (early : ∀ code log, shouldExitEarly code = true → before log → results .success (.status (some code) :: log))
    (going : ∀ code log, before log → after (.status code :: log)) :
    Meets (fun t => before t.2) tab.recorded.exitEarly (fun a t => results a t.2) (fun t => after t.2) := by
  rintro ⟨s,log⟩ holds
  unfold Tab.exitEarly
  split
  · next refused =>
    refine ⟨?_,nofun⟩
    rintro _ ⟨⟩
    obtain ⟨code,read,exits⟩ := (Option.any_eq_true _ _).mp refused
    have exited := early code log exits holds
    rw [← read] at exited
    exact exited
  · exact ⟨nofun,fun _ => going _ log holds⟩

/-- The verdict comes after a reading of the clock past the budget. -/
theorem logs_expire {verdict : σ × List Observation → WaitResult × (σ × List Observation)} (start budget : Nat)
    (late : ∀ now s log, before log → budget ≤ now - start →
      results (verdict (s,.read now :: log)).1 (verdict (s,.read now :: log)).2.2)
    (left : ∀ now log, before log → after (.read now :: log)) :
    Meets (fun t => before t.2) (tab.recorded.expire start budget verdict) (fun a t => results a t.2)
      (fun t => after t.2) := by
  rintro ⟨s,log⟩ holds
  unfold Tab.expire
  split
  · next past =>
    refine ⟨?_,nofun⟩
    rintro _ ⟨⟩
    exact late _ _ log holds past
  · exact ⟨nofun,fun _ => left _ log holds⟩

theorem logs_finalSelectorVerdict (waitSelector : Option String) (s : σ) (log : List Observation)
    (unset : waitSelector = none → results .success log)
    (probed : ∀ text answer, waitSelector = some text → results answer.verdict (.probe .wait text answer :: log)) :
    results (tab.recorded.finalSelectorVerdict waitSelector (s,log)).1
      (tab.recorded.finalSelectorVerdict waitSelector (s,log)).2.2 := by
  cases waitSelector with
  | none => exact unset rfl
  | some text => exact probed text _ rfl

theorem logs_pause (start total : Nat) (going : ∀ now log, before log → after (.read now :: log)) :
    Meets (fun t => before t.2) (tab.recorded.pause start total) (fun a t => answers a t.2) (fun t => after t.2) := by
  rintro ⟨s,log⟩ holds
  refine ⟨nofun,fun _ => ?_⟩
  simp only [Tab.pause,apply_ite Prod.snd]
  split <;> exact going _ log holds

theorem logs_awaitReady (start total : Nat) (waitSelector : Option String)
    (going : ∀ now log, before log → after (.read now :: log)) :
    Meets (fun t => before t.2) (tab.recorded.awaitReady start total waitSelector) (fun a t => answers a t.2)
      (fun t => after t.2) := by
  rintro ⟨s,log⟩ holds
  refine ⟨nofun,fun _ => ?_⟩
  simp only [Tab.awaitReady,apply_ite Prod.snd]
  split <;> exact going _ log holds

end Log

end BrowserHive.Worker
