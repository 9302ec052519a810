import BrowserHive.Worker.WaitStrategy

/-! The wait phase of a request, and the hard timeout it runs under. -/
namespace BrowserHive.Worker

open Polling

inductive Strategy where
  | networkIdle
  | timeout
  deriving DecidableEq, Repr

/-- What a request asks of the wait, its timeout validated. -/
structure WaitPlan where
  strategy : Strategy
  waitTimeout : Nat
  waitSelector : Option String
  skipSelector : Option String
  challengeTimeoutMs : Nat
  positive : 0 < waitTimeout
  allowed : waitTimeout ≤ maxWaitTimeoutMs

/-- Zero: the challenge phase does not run. -/
def WaitPlan.challengeWindow (plan : WaitPlan) (detectors : List ChallengeDetector) : Nat :=
  if detectors.isEmpty then 0 else min plan.challengeTimeoutMs plan.waitTimeout

variable {σ : Type}

def Tab.waitAfter (tab : Tab σ) (plan : WaitPlan) (spent : Nat) : σ → Option (WaitResult × σ) :=
  match plan.strategy with
  | .networkIdle => tab.networkIdle spent plan.waitTimeout plan.waitSelector plan.skipSelector
  | .timeout => tab.timeout spent plan.waitTimeout plan.waitSelector plan.skipSelector

/-- A JSON document has nothing to render: its strategy is skipped. -/
def Tab.waitForPage (tab : Tab σ) (plan : WaitPlan) (spent : Nat) (s : σ) : Option (WaitResult × σ) :=
  (tab.waitForJsonBody (plan.waitTimeout * tab.ms - spent) s).bind fun
    | (none,s) => some (.failed,s)
    | (some true,s) => some (.success,s)
    | (some false,s) => tab.waitAfter plan spent s

def Tab.waitPhase (tab : Tab σ) (plan : WaitPlan) (detectors : List ChallengeDetector) (s : σ) :
    Option (WaitResult × σ) :=
  if plan.challengeWindow detectors = 0 then tab.waitForPage plan 0 s
  else
    (tab.waitOutChallenge detectors (plan.challengeWindow detectors * tab.ms) (tab.now s).2).bind fun
      | (none,t) => some (.failed,t)
      | (some _,t) => tab.waitForPage plan ((tab.now t).1 - (tab.now s).1) (tab.now t).2

/-- The waits on documents as the blocking task of `scrape_page_internal` makes them, with the
time that the challenge took. -/
def Tab.waitForDocuments (tab : Tab σ) (plan : WaitPlan) (detectors : List ChallengeDetector) (s : σ) :
    Option (Option Bool × Nat × σ) :=
  if plan.challengeWindow detectors = 0 then
    (tab.waitForJsonBody (plan.waitTimeout * tab.ms) s).map fun (arrived,s) => (arrived,0,s)
  else
    (tab.waitOutChallenge detectors (plan.challengeWindow detectors * tab.ms) (tab.now s).2).bind fun
      | (none,t) => some (none,0,t)
      | (some _,t) =>
        (tab.waitForJsonBody (plan.waitTimeout * tab.ms - ((tab.now t).1 - (tab.now s).1)) (tab.now t).2).map
          fun (arrived,u) => (arrived,(tab.now t).1 - (tab.now s).1,u)

def Tab.waitAfterDocuments (tab : Tab σ) (plan : WaitPlan) : Option Bool × Nat × σ → Option (WaitResult × σ)
  | (none,_,s) => some (.failed,s)
  | (some true,_,s) => some (.success,s)
  | (some false,spent,s) => tab.waitAfter plan spent s

theorem waitForPage_eq (tab : Tab σ) (plan : WaitPlan) (spent : Nat) (s : σ) :
    tab.waitForPage plan spent s = ((tab.waitForJsonBody (plan.waitTimeout * tab.ms - spent) s).map
      fun (arrived,t) => (arrived,spent,t)).bind (tab.waitAfterDocuments plan) := by
  unfold Tab.waitForPage
  rw [Option.bind_map]
  congr 1
  funext ⟨arrived,t⟩
  match arrived with
  | none => rfl
  | some true => rfl
  | some false => rfl

theorem waitPhase_eq (tab : Tab σ) (plan : WaitPlan) (detectors : List ChallengeDetector) (s : σ) :
    tab.waitPhase plan detectors s = (tab.waitForDocuments plan detectors s).bind (tab.waitAfterDocuments plan) := by
  unfold Tab.waitPhase Tab.waitForDocuments
  split
  · exact waitForPage_eq tab plan 0 s
  · rw [Option.bind_assoc]
    congr 1
    funext ⟨outcome,t⟩
    cases outcome with
    | none => rfl
    | some outcome => exact waitForPage_eq tab plan _ _

def waitStrategyTimeoutMarginSecs : Nat := 10

def hardTimeoutMs (waitTimeout : Nat) : Nat := waitTimeout + waitStrategyTimeoutMarginSecs * 1000

/-- The hard timeout does not pre-empt the wait. -/
def Tab.EndsInTime (tab : Tab σ) (time : σ → Nat) (plan : WaitPlan) (detectors : List ChallengeDetector)
    (s : σ) : Prop :=
  ∃ result t, tab.waitPhase plan detectors s = some (result,t) ∧
    time t < time s + hardTimeoutMs plan.waitTimeout * tab.ms

/-- How long the strategy may take by itself: its whole budget, and for the timeout strategy
the navigation before it, with the budget in whole poll intervals. -/
def WaitPlan.strategyMs (plan : WaitPlan) (limit : Nat) : Nat :=
  match plan.strategy with
  | .networkIdle => totalTimeout plan.waitTimeout plan.waitSelector
  | .timeout => limit + (plan.waitTimeout + 499) / 500 * 500

theorem WaitPlan.effectiveTimeout_eq (plan : WaitPlan) : effectiveTimeout plan.waitTimeout = plan.waitTimeout := by
  have positive := plan.positive
  have allowed := plan.allowed
  unfold effectiveTimeout
  split
  · omega
  · split <;> omega

theorem WaitPlan.challengeWindow_le (plan : WaitPlan) (detectors : List ChallengeDetector) :
    plan.challengeWindow detectors ≤ plan.waitTimeout := by
  unfold challengeWindow
  split <;> omega

theorem WaitPlan.waitTimeout_le_total (plan : WaitPlan) :
    plan.waitTimeout ≤ totalTimeout plan.waitTimeout plan.waitSelector := by
  unfold totalTimeout
  split
  · exact plan.allowed
  · rw [plan.effectiveTimeout_eq]

namespace Tab.Prompt

variable {tab : Tab σ} {time : σ → Nat} {limit : Nat}

/-- Time spent before the strategy shortens it by no more than itself. -/
theorem waitAfter (prompt : tab.Prompt time limit) (plan : WaitPlan) (past : spent ≤ time s)
    (room : spent ≤ plan.waitTimeout * tab.ms) :
    ∃ result t, tab.waitAfter plan spent s = some (result,t) ∧
      time t ≤ time s + plan.strategyMs limit * tab.ms := by
  unfold Tab.waitAfter WaitPlan.strategyMs
  cases plan.strategy with
  | networkIdle =>
    obtain ⟨result,t,ended,early⟩ := prompt.networkIdle plan.waitTimeout plan.waitSelector plan.skipSelector past
      (Nat.le_trans room (Nat.mul_le_mul_right tab.ms plan.waitTimeout_le_total))
    exact ⟨result,t,ended,by dsimp only; omega⟩
  | timeout =>
    obtain ⟨result,t,ended,early⟩ := prompt.timeout plan.waitTimeout plan.waitSelector plan.skipSelector past
    rw [plan.effectiveTimeout_eq] at early
    refine ⟨result,t,ended,?_⟩
    dsimp only
    rw [Nat.add_mul]
    omega

/-- The challenge leaves the body what it has not used of the wait timeout. -/
theorem waitForDocuments (prompt : tab.Prompt time limit) (plan : WaitPlan) (detectors : List ChallengeDetector) (s : σ) :
    ∃ arrived spent t, tab.waitForDocuments plan detectors s = some (arrived,spent,t) ∧
      time t ≤ time s + plan.waitTimeout * tab.ms ∧ spent ≤ time t ∧ spent ≤ plan.waitTimeout * tab.ms := by
  unfold Tab.waitForDocuments
  split
  · obtain ⟨arrived,t,waited,_,early⟩ := prompt.waitForJsonBody (plan.waitTimeout * tab.ms) s
    exact ⟨arrived,0,t,by rw [waited]; rfl,early,Nat.zero_le _,Nat.zero_le _⟩
  · obtain ⟨outcome,t,waited,late,early⟩ :=
      prompt.waitOutChallenge detectors (plan.challengeWindow detectors * tab.ms) (tab.now s).2
    have within := Nat.mul_le_mul_right tab.ms (plan.challengeWindow_le detectors)
    rw [prompt.now_time] at late early
    simp only [waited,Option.bind_some]
    cases outcome with
    | none => exact ⟨none,0,t,rfl,by omega,Nat.zero_le _,Nat.zero_le _⟩
    | some outcome =>
      have read : (tab.now t).1 - (tab.now s).1 = time t - time s := by
        rw [prompt.now t,prompt.now s]
      have kept := prompt.now_time t
      obtain ⟨arrived,u,bodied,later,ended⟩ := prompt.waitForJsonBody
        (plan.waitTimeout * tab.ms - ((tab.now t).1 - (tab.now s).1)) (tab.now t).2
      refine ⟨arrived,(tab.now t).1 - (tab.now s).1,u,?_,by omega,by omega,by omega⟩
      simp only [bodied]
      rfl

/-- The body of a JSON document may take the whole wait timeout before the strategy starts. -/
theorem waitPhase (prompt : tab.Prompt time limit) (plan : WaitPlan) (detectors : List ChallengeDetector) (s : σ) :
    ∃ result t, tab.waitPhase plan detectors s = some (result,t) ∧
      time t ≤ time s + plan.waitTimeout * tab.ms + plan.strategyMs limit * tab.ms := by
  obtain ⟨arrived,spent,t,waited,early,past,room⟩ := prompt.waitForDocuments plan detectors s
  rw [waitPhase_eq,waited,Option.bind_some]
  match arrived with
  | none => exact ⟨.failed,t,rfl,by omega⟩
  | some true => exact ⟨.success,t,rfl,by omega⟩
  | some false =>
    obtain ⟨result,u,ended,bound⟩ := prompt.waitAfter plan past room
    exact ⟨result,u,ended,by omega⟩

end Tab.Prompt

def stalledPage (waitTimeout limit : Nat) : Tab Nat where
  ms := 1
  now t := (t,t)
  sleep d t := t + d
  spin t := t + 1
  cancelled t := (false,t)
  latest t := (some ⟨1,false,⟨200,if t < waitTimeout then [("content-type","application/json")] else [],""⟩⟩,t)
  selectorExists _ _ t := (.unseen,t)
  navigationStatus t := (none,t)
  listen _ t := t
  idle t := (none,t)
  documentReady wait _ t := t + wait
  waitUntilNavigated t := (true,t + limit)

@[simp] theorem stalledPage_ms (waitTimeout limit : Nat) : (stalledPage waitTimeout limit).ms = 1 := rfl

theorem stalledPage_prompt (waitTimeout limit : Nat) : (stalledPage waitTimeout limit).Prompt id limit := by
  constructor <;> intros <;> simp [stalledPage]

theorem stalledPage_lookForBody (budget limit t : Nat) : (stalledPage budget limit).lookForBody 0 budget t =
    if t < budget then (none,t) else (some (some false),t) := by
  have arrived : bodyArrived ((stalledPage budget limit).latest t).1 = if t < budget then none else some false := by
    simp only [stalledPage,bodyArrived]
    split <;> rfl
  unfold Tab.lookForBody
  rw [arrived]
  by_cases left : t < budget
  · rw [if_pos left,if_pos left]
    change (if budget ≤ t - 0 then some (some true) else none,t) = (none,t)
    rw [if_neg (by omega)]
  · rw [if_neg left,if_neg left]
    rfl

theorem stalledPage_waitForJsonBody (polled : (stalledPage budget limit).waitForJsonBody budget 0 = some (arrived,t)) :
    arrived = some false ∧ budget ≤ t := by
  have round : Meets (fun t => t ≤ budget) ((stalledPage budget limit).bodyRound 0 budget)
      (fun arrived t => arrived = some false ∧ budget ≤ t) (fun t => t ≤ budget) := by
    apply Meets.cons fun t => t ≤ budget
    · exact fun t early => ⟨nofun,fun _ => early⟩
    apply Meets.cons fun t => t < budget
    · intro t early
      rw [stalledPage_lookForBody]
      split
      · next left => exact ⟨nofun,fun _ => left⟩
      · next past => exact ⟨fun _ same => ⟨(Option.some.inj same).symm,by dsimp only; omega⟩,nofun⟩
    apply Meets.last
    intro t left
    refine ⟨nofun,fun _ => ?_⟩
    change t + min challengePollInterval (budget - (t - 0)) ≤ budget
    omega
  have answered := poll_sound round (Nat.zero_le budget) polled
  exact answered

/-- The whole budget goes by, and the strategy ends no earlier. -/
theorem stalledPage_networkIdle
    (polled : (stalledPage waitTimeout limit).networkIdle 0 timeoutMs waitSelector skipSelector s = some (result,t)) :
    s + totalTimeout timeoutMs waitSelector ≤ t := by
  have prompt := stalledPage_prompt waitTimeout limit
  have round : Meets (fun t => s ≤ t)
      ((stalledPage waitTimeout limit).idleRound s (totalTimeout timeoutMs waitSelector) waitSelector skipSelector)
      (fun answer t => answer ≠ none ∧ s + totalTimeout timeoutMs waitSelector ≤ t) (fun t => s ≤ t) := by
    apply Meets.cons fun t => s ≤ t
    · exact fun t late => ⟨nofun,fun _ => late⟩
    apply Meets.cons fun t => s ≤ t
    · cases skipSelector <;> exact fun t late => ⟨nofun,fun _ => late⟩
    apply Meets.cons fun t => s ≤ t
    · exact fun t late => ⟨nofun,fun _ => late⟩
    apply Meets.cons fun t => s ≤ t
    · exact fun t late => ⟨nofun,fun _ => late⟩
    apply Meets.cons fun t => s ≤ t
    · apply Meets.answer
      apply (prompt.expire_late (prompt.asks.idleVerdict waitSelector) (s ≤ ·)).weaken (fun _ => id) _ (fun _ => id)
      rintro result t ⟨late,past⟩
      exact ⟨nofun,Nat.add_le_of_le_sub' late past⟩
    apply Meets.last
    intro t late
    refine ⟨nofun,fun _ => ?_⟩
    change s ≤ if _ then t + 1 else t + pollInterval
    split
    · exact Nat.le_succ_of_le late
    · exact Nat.le_add_right_of_le late
  obtain ⟨⟨verdict,t₁⟩,idled,later⟩ := Option.bind_eq_some_iff.mp polled
  rw [stalledPage_ms,Nat.mul_one] at idled
  obtain ⟨named,late⟩ := poll_sound round (Nat.le_refl s) idled
  cases verdict with
  | none => contradiction
  | some result =>
    obtain ⟨rfl,rfl⟩ := Prod.mk.inj (Option.some.inj later)
    exact late

theorem stalledPage_lookForWanted (waitTimeout limit : Nat) (waitSelector skipSelector : Option String)
    (s : Nat × Bool) : ((stalledPage waitTimeout limit).lookForWanted waitSelector skipSelector s).1 = none := by
  obtain ⟨t,seen⟩ := s
  cases waitSelector with
  | none => rfl
  | some text => cases seen <;> rfl

/-- So does the whole time the navigation may take, and the timeout in whole intervals. -/
theorem stalledPage_timeout
    (polled : (stalledPage waitTimeout limit).timeout 0 timeoutMs waitSelector skipSelector s = some (result,t)) :
    s + limit + (effectiveTimeout timeoutMs + 499) / 500 * 500 ≤ t := by
  have prompt := stalledPage_prompt waitTimeout limit
  have round : Meets (fun t => ∃ k, t.1 = s + limit + 500 * k)
      ((stalledPage waitTimeout limit).timeoutRound (s + limit) (effectiveTimeout timeoutMs) waitSelector skipSelector)
      (fun _ t => (∃ k, t.1 = s + limit + 500 * k) ∧ effectiveTimeout timeoutMs ≤ t.1 - (s + limit))
      (fun t => ∃ k, t.1 = s + limit + 500 * k) := by
    apply Meets.cons fun t => ∃ k, t.1 = s + limit + 500 * k
    · exact fun t reached => ⟨nofun,fun _ => reached⟩
    apply Meets.cons fun t => ∃ k, t.1 = s + limit + 500 * k
    · cases skipSelector <;> exact fun t reached => ⟨nofun,fun _ => reached⟩
    apply Meets.cons fun t => ∃ k, t.1 = s + limit + 500 * k
    · intro t reached
      have same := prompt.asks.lookForWanted waitSelector skipSelector t
      rw [stalledPage_lookForWanted]
      refine ⟨nofun,fun _ => ?_⟩
      simp only [id] at same
      obtain ⟨k,at_⟩ := reached
      exact ⟨k,same.trans at_⟩
    apply Meets.cons fun t => ∃ k, t.1 = s + limit + 500 * k
    · rintro ⟨t,seen⟩ reached
      exact prompt.expire_late (prompt.asks.timeoutVerdict waitSelector seen) (fun t => ∃ k, t = s + limit + 500 * k) t reached
    apply Meets.last
    rintro t ⟨k,reached⟩
    refine ⟨nofun,fun _ => ⟨k + 1,?_⟩⟩
    change t.1 + 500 = s + limit + 500 * (k + 1)
    omega
  obtain ⟨⟨_,⟨t₁,seen⟩⟩,ended,same⟩ := Option.map_eq_some_iff.mp polled
  obtain ⟨rfl,rfl⟩ := Prod.mk.inj same
  rw [(prompt.startedAgo (Nat.zero_le _)).1,stalledPage_ms,Nat.mul_one] at ended
  obtain ⟨⟨k,reached⟩,past⟩ := poll_sound round ⟨0,rfl⟩ ended
  dsimp only at reached past
  omega

/-- The wait takes the whole wait timeout, and then all that the strategy may take. -/
theorem stalledPage_waitPhase (plan : WaitPlan) (limit : Nat)
    (ended : (stalledPage plan.waitTimeout limit).waitPhase plan [fun _ => false] 0 = some (result,t)) :
    plan.waitTimeout + plan.strategyMs limit ≤ t := by
  have paged : (stalledPage plan.waitTimeout limit).waitForPage plan 0 0 = some (result,t) := by
    unfold Tab.waitPhase at ended
    split at ended
    · exact ended
    · exact ended
  obtain ⟨⟨arrived,t₁⟩,waited,later⟩ := Option.bind_eq_some_iff.mp paged
  rw [stalledPage_ms,Nat.mul_one] at waited
  obtain ⟨rfl,past⟩ := stalledPage_waitForJsonBody waited
  simp only [Tab.waitAfter] at later
  unfold WaitPlan.strategyMs
  cases same : plan.strategy with
  | networkIdle =>
    rw [same] at later
    have late := stalledPage_networkIdle later
    dsimp only
    omega
  | timeout =>
    rw [same] at later
    have late := stalledPage_timeout later
    rw [plan.effectiveTimeout_eq] at late
    dsimp only
    omega

/-- The hard timeout spares every wait exactly when the strategy by itself takes less than
the safety margin: a JSON body may use the wait timeout up before the strategy starts. -/
theorem hard_timeout_spares_iff (plan : WaitPlan) (limit : Nat) :
    (∀ (σ : Type) (tab : Tab σ) (time : σ → Nat) (detectors : List ChallengeDetector) (s : σ),
      tab.Prompt time limit → tab.EndsInTime time plan detectors s) ↔
    plan.strategyMs limit < waitStrategyTimeoutMarginSecs * 1000 := by
  constructor
  · intro spared
    obtain ⟨result,t,ended,early⟩ :=
      spared Nat (stalledPage plan.waitTimeout limit) id [fun _ => false] 0 (stalledPage_prompt plan.waitTimeout limit)
    have late := stalledPage_waitPhase plan limit ended
    rw [stalledPage_ms,Nat.mul_one] at early
    change t < 0 + (plan.waitTimeout + waitStrategyTimeoutMarginSecs * 1000) at early
    rw [Nat.zero_add] at early
    have less := Nat.lt_of_le_of_lt late early
    exact Nat.lt_of_add_lt_add_left less
  · intro short σ tab time detectors s prompt
    obtain ⟨result,t,ended,early⟩ := prompt.waitPhase plan detectors s
    have late : plan.waitTimeout * tab.ms + plan.strategyMs limit * tab.ms < hardTimeoutMs plan.waitTimeout * tab.ms := by
      rw [← Nat.add_mul]
      exact Nat.mul_lt_mul_of_pos_right (Nat.add_lt_add_left short plan.waitTimeout) prompt.ticks
    rw [Nat.add_assoc] at early
    have before := Nat.lt_of_le_of_lt early (Nat.add_lt_add_left late (time s))
    exact ⟨result,t,ended,before⟩

def slowPage : Tab Nat where
  ms := 1
  now t := (t,t)
  sleep d t := t + d
  spin t := t + 1
  cancelled t := (false,t)
  latest t := (some ⟨1,true,⟨200,[],""⟩⟩,t)
  selectorExists _ _ t := (.seen,t)
  navigationStatus t := (none,t)
  listen _ t := t
  idle t := (if t < 20000 then none else some true,t)
  documentReady _ _ t := t
  waitUntilNavigated t := (true,t)

theorem slowPage_prompt (limit : Nat) : slowPage.Prompt id limit := by
  constructor <;> intros <;> simp [slowPage]

def pricePlan : WaitPlan where
  strategy := .networkIdle
  waitTimeout := 1000
  waitSelector := some ".price"
  skipSelector := none
  challengeTimeoutMs := 0
  positive := by decide
  allowed := by decide

/-- The wait would find its selector, nine seconds after the hard timeout. -/
theorem hard_timeout_preempts :
    slowPage.Prompt id 20000 ∧ slowPage.waitPhase pricePlan [] 0 = some (.success,20000) ∧
      ¬slowPage.EndsInTime id pricePlan [] 0 := by
  have ended : slowPage.waitPhase pricePlan [] 0 = some (.success,20000) := by
    decide +kernel
  refine ⟨slowPage_prompt 20000,ended,?_⟩
  rintro ⟨result,t,same,early⟩
  rw [ended] at same
  obtain ⟨_,rfl⟩ := Prod.mk.inj (Option.some.inj same)
  exact absurd early (by decide)

end BrowserHive.Worker
