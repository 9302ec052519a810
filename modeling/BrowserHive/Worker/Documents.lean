import BrowserHive.Worker.Observations

/-! The two waits on documents, for a challenge to pass and for a JSON body, against the
documents their polls have observed. -/
namespace BrowserHive.Worker

open Polling

variable {σ : Type} {tab : Tab σ} {time : σ → Nat}

def Observation.snapshot : Observation → Option DocumentSnapshot
  | .document latest => latest
  | _ => none

def documents (log : List Observation) : List DocumentSnapshot := (log.filterMap Observation.snapshot).reverse

@[simp] theorem documents_nil : documents [] = [] := rfl

@[simp] theorem documents_cons_some (snapshot : DocumentSnapshot) (log : List Observation) :
    documents (.document (some snapshot) :: log) = documents log ++ [snapshot] := by
  simp [documents,Observation.snapshot]

@[simp] theorem documents_cons_none (log : List Observation) : documents (.document none :: log) = documents log := rfl

@[simp] theorem documents_cons_read (now : Nat) (log : List Observation) :
    documents (.read now :: log) = documents log := rfl

@[simp] theorem documents_cons_cancelled (yes : Bool) (log : List Observation) :
    documents (.cancelled yes :: log) = documents log := rfl

def Replaces (detectors : List ChallengeDetector) (first : Nat) (snapshot : DocumentSnapshot) : Prop :=
  first < snapshot.seq ∧ snapshot.loaded = true ∧ isChallenge detectors snapshot.doc = false

def Passes (detectors : List ChallengeDetector) : List DocumentSnapshot → Prop
  | [] => False
  | first :: later => isChallenge detectors first.doc = true ∧ ∃ snapshot ∈ later, Replaces detectors first.seq snapshot

def Unchallenged (detectors : List ChallengeDetector) : List DocumentSnapshot → Prop
  | [] => True
  | first :: _ => isChallenge detectors first.doc = false

/-- In the loop: the local variable has the number of the first document, and no later one
replaced it. -/
def Watches (detectors : List ChallengeDetector) : Option Nat → List Observation → Prop
  | none, log => documents log = []
  | some seq, log => ∃ first later, documents log = first :: later ∧ isChallenge detectors first.doc = true ∧
      first.seq = seq ∧ ∀ snapshot ∈ later, ¬Replaces detectors seq snapshot

inductive ChallengeSound (detectors : List ChallengeDetector) : Option ChallengeOutcome → List Observation → Prop where
  | cancelled (stopped : .cancelled true ∈ log) : ChallengeSound detectors none log
  | passed (passes : Passes detectors (documents log)) : ChallengeSound detectors (some .passed) log
  | unchallenged (unflagged : Unchallenged detectors (documents log)) : ChallengeSound detectors (some .none) log
  | failed (stays : ¬Passes detectors (documents log)) (challenged : ¬Unchallenged detectors (documents log)) :
    ChallengeSound detectors (some .failed) log

theorem Passes.challenged (passes : Passes detectors snapshots) : ¬Unchallenged detectors snapshots := by
  cases snapshots with
  | nil => exact passes.elim
  | cons first later =>
    intro unflagged
    rw [Unchallenged,passes.1] at unflagged
    contradiction

/-- Each outcome has its own documents. -/
theorem ChallengeSound.told (sound : ChallengeSound detectors outcome log) (going : .cancelled true ∉ log) :
    (outcome = some .passed ↔ Passes detectors (documents log)) ∧
    (outcome = some .none ↔ Unchallenged detectors (documents log)) ∧
    (outcome = some .failed ↔ ¬Passes detectors (documents log) ∧ ¬Unchallenged detectors (documents log)) := by
  cases sound with
  | cancelled stopped => contradiction
  | passed passes =>
    refine ⟨⟨fun _ => passes,fun _ => rfl⟩,⟨nofun,fun unflagged => ?_⟩,⟨nofun,fun other => ?_⟩⟩
    · exact absurd unflagged passes.challenged
    · exact absurd passes other.1
  | unchallenged unflagged =>
    refine ⟨⟨nofun,fun passes => ?_⟩,⟨fun _ => unflagged,fun _ => rfl⟩,⟨nofun,fun other => ?_⟩⟩
    · exact absurd unflagged passes.challenged
    · exact absurd unflagged other.2
  | failed stays challenged =>
    refine ⟨⟨nofun,fun passes => ?_⟩,⟨nofun,fun unflagged => ?_⟩,⟨fun _ => ⟨stays,challenged⟩,fun _ => rfl⟩⟩
    · exact absurd passes stays
    · exact absurd unflagged challenged

/-- Only the documents of the log count. -/
theorem Watches.of_documents (watches : Watches detectors first log) (same : documents log' = documents log) :
    Watches detectors first log' := by
  cases first with
  | none => exact same.trans watches
  | some seq =>
    obtain ⟨first,later,observed,rest⟩ := watches
    exact ⟨first,later,same.trans observed,rest⟩

theorem Watches.close (watches : Watches detectors first log) :
    ChallengeSound detectors (some (if first.isNone then .none else .failed)) log := by
  cases first with
  | none =>
    apply ChallengeSound.unchallenged
    rw [show documents log = [] from watches]
    trivial
  | some seq =>
    obtain ⟨first,later,observed,flagged,rfl,stays⟩ := watches
    apply ChallengeSound.failed
    · rw [observed]
      rintro ⟨_,snapshot,seen,replaces⟩
      exact stays snapshot seen replaces
    · rw [observed,Unchallenged,flagged]
      nofun

/-- A poll that ends the wait has read a document. -/
theorem judgeDocument_cases (judged : (judgeDocument detectors latest first).1 = some outcome) :
    outcome = .passed ∨ outcome = .none ∧ ∃ snapshot, latest = some snapshot := by
  match latest,first with
  | none,first => contradiction
  | some snapshot,none =>
    simp only [judgeDocument] at judged
    split at judged
    · contradiction
    · exact .inr ⟨(Option.some.inj judged).symm,snapshot,rfl⟩
  | some snapshot,some seq =>
    simp only [judgeDocument] at judged
    split at judged
    · exact .inl (Option.some.inj judged).symm
    · contradiction

/-- What a poll makes of the document it observes. -/
theorem judgeDocument_sound (latest : Option DocumentSnapshot) (watches : Watches detectors first log) :
    (∀ outcome, (judgeDocument detectors latest first).1 = some outcome →
      ChallengeSound detectors (some outcome) (.document latest :: log)) ∧
    ((judgeDocument detectors latest first).1 = none →
      Watches detectors (judgeDocument detectors latest first).2 (.document latest :: log)) := by
  match latest,first with
  | none,first => exact ⟨nofun,fun _ => watches.of_documents rfl⟩
  | some snapshot,none =>
    have only : documents (.document (some snapshot) :: log) = [snapshot] := by
      rw [documents_cons_some,show documents log = [] from watches]
      rfl
    simp only [judgeDocument]
    split
    · next flagged =>
      refine ⟨nofun,fun _ => ?_⟩
      exact ⟨snapshot,[],only,flagged,rfl,nofun⟩
    · next unflagged =>
      refine ⟨?_,nofun⟩
      rintro _ ⟨⟩
      apply ChallengeSound.unchallenged
      rw [only]
      exact Bool.eq_false_iff.mpr unflagged
  | some snapshot,some seq =>
    obtain ⟨first,later,observed,flagged,rfl,stays⟩ := watches
    have added : documents (.document (some snapshot) :: log) = first :: (later ++ [snapshot]) := by
      rw [documents_cons_some,observed]
      rfl
    simp only [judgeDocument]
    split
    · next replaces =>
      refine ⟨?_,nofun⟩
      rintro _ ⟨⟩
      apply ChallengeSound.passed
      rw [added]
      obtain ⟨newer,loaded,unflagged⟩ := replaces
      refine ⟨flagged,snapshot,List.mem_append_right _ List.mem_cons_self,newer,loaded,?_⟩
      exact Bool.eq_false_iff.mpr unflagged
    · next kept =>
      refine ⟨nofun,fun _ => ⟨first,later ++ [snapshot],added,flagged,rfl,?_⟩⟩
      intro other seen replaces
      rcases List.mem_append.mp seen with earlier | same
      · exact stays other earlier replaces
      · obtain rfl := List.mem_singleton.mp same
        obtain ⟨newer,loaded,unflagged⟩ := replaces
        rw [unflagged] at kept
        exact kept ⟨newer,loaded,nofun⟩

theorem sound_challengeRound (tab : Tab σ) (detectors : List ChallengeDetector) (start window : Nat) :
    Meets (fun t => Watches detectors t.2 t.1.2) (tab.recorded.challengeRound detectors start window)
      (fun outcome t => ChallengeSound detectors outcome t.1.2) (fun t => Watches detectors t.2 t.1.2) := by
  apply Meets.cons fun t => Watches detectors t.2 t.1.2
  · apply Meets.beside
    intro first
    dsimp only
    apply logs_checkCancellation tab
    · exact fun log _ => .cancelled List.mem_cons_self
    · exact fun log watches => watches.of_documents rfl
  apply Meets.cons fun t => Watches detectors t.2 t.1.2
  · rintro ⟨⟨s,log⟩,first⟩ watches
    obtain ⟨judged,going⟩ := judgeDocument_sound (tab.latest s).1 watches
    constructor
    · intro outcome answered
      obtain ⟨outcome,verdict,rfl⟩ := Option.map_eq_some_iff.mp answered
      exact judged outcome verdict
    · intro unanswered
      exact going (Option.map_eq_none_iff.mp unanswered)
  apply Meets.cons fun t => Watches detectors t.2 t.1.2
  · rintro ⟨⟨s,log⟩,first⟩ watches
    have read : Watches detectors first (.read (tab.now s).1 :: log) := watches.of_documents rfl
    simp only [Tab.closeWindow]
    split
    · refine ⟨?_,by rintro ⟨⟩⟩
      rintro _ ⟨⟩
      exact read.close
    · exact ⟨by rintro _ ⟨⟩,fun _ => read⟩
  apply Meets.last
  exact fun t watches => ⟨by rintro _ ⟨⟩,fun _ => watches.of_documents rfl⟩

def IsJson (latest : Option DocumentSnapshot) : Prop :=
  ∃ snapshot, latest = some snapshot ∧ snapshot.doc.isJson = true

def AllJson (log : List Observation) : Prop := ∀ latest, .document latest ∈ log → IsJson latest

def BodySound : Option Bool → List Observation → Prop
  | none, log => .cancelled true ∈ log
  | some arrived, log => arrived = true ↔ AllJson log

theorem AllJson.cons (json : AllJson log) (new : ∀ latest, entry = .document latest → IsJson latest) :
    AllJson (entry :: log) := by
  intro latest observed
  rcases List.mem_cons.mp observed with same | earlier
  · exact new latest same.symm
  · exact json latest earlier

theorem AllJson.document (json : AllJson log) (new : IsJson latest) : AllJson (.document latest :: log) := by
  apply json.cons
  rintro _ ⟨⟩
  exact new

theorem bodyArrived_false : bodyArrived latest = some false ↔ ¬IsJson latest := by
  cases latest with
  | none => exact ⟨fun _ => by rintro ⟨_,⟨⟩,_⟩,fun _ => rfl⟩
  | some snapshot =>
    simp only [bodyArrived,IsJson,Option.some.injEq,exists_eq_left']
    cases snapshot.doc.isJson with
    | false => exact ⟨fun _ => Bool.false_ne_true,fun _ => rfl⟩
    | true => cases snapshot.loaded <;> simp

theorem sound_lookForBody (tab : Tab σ) (start budget : Nat) :
    Meets (fun t => AllJson t.2) (tab.recorded.lookForBody start budget) (fun arrived t => BodySound arrived t.2)
      (fun t => AllJson t.2) := by
  rintro ⟨s,log⟩ json
  have judged : bodyArrived (tab.latest s).1 = some false ↔ ¬IsJson (tab.latest s).1 := bodyArrived_false
  have all (new : IsJson (tab.latest s).1) : AllJson (.document (tab.latest s).1 :: log) := json.document new
  unfold Tab.lookForBody
  split
  · next arrived verdict =>
    change bodyArrived (tab.latest s).1 = some arrived at verdict
    refine ⟨?_,nofun⟩
    rintro _ ⟨⟩
    rw [verdict] at judged
    cases arrived with
    | true => exact ⟨fun _ => all (Classical.not_not.mp fun other => absurd (judged.mpr other) nofun),fun _ => rfl⟩
    | false => exact ⟨nofun,fun every => absurd (every _ List.mem_cons_self) (judged.mp rfl)⟩
  · next verdict =>
    change bodyArrived (tab.latest s).1 = none at verdict
    rw [verdict] at judged
    have kept := all (Classical.not_not.mp fun other => absurd (judged.mpr other) nofun)
    split
    · refine ⟨?_,nofun⟩
      rintro _ ⟨⟩
      exact ⟨fun _ => kept.cons nofun,fun _ => rfl⟩
    · exact ⟨nofun,fun _ => kept.cons nofun⟩

theorem sound_bodyRound (tab : Tab σ) (start budget : Nat) :
    Meets (fun t => AllJson t.2) (tab.recorded.bodyRound start budget) (fun arrived t => BodySound arrived t.2)
      (fun t => AllJson t.2) := by
  apply Meets.cons fun t => AllJson t.2
  · apply logs_checkCancellation tab
    · exact fun log _ => List.mem_cons_self
    · exact fun log json => json.cons nofun
  apply (sound_lookForBody tab start budget).cons
  exact Meets.last fun t json => ⟨nofun,fun _ => json.cons nofun⟩

theorem Tab.Clock.waitForDocuments (clock : tab.Clock time) (plan : WaitPlan) (detectors : List ChallengeDetector)
    (s : σ) : ∃ arrived spent t, tab.waitForDocuments plan detectors s = some (arrived,spent,t) := by
  unfold Tab.waitForDocuments
  split
  · obtain ⟨arrived,t,waited⟩ := clock.waitForJsonBody (plan.waitTimeout * tab.ms) s
    exact ⟨arrived,0,t,by rw [waited]; rfl⟩
  · obtain ⟨outcome,t,waited⟩ :=
      clock.waitOutChallenge detectors (plan.challengeWindow detectors * tab.ms) (tab.now s).2
    simp only [waited,Option.bind_some]
    cases outcome with
    | none => exact ⟨none,0,t,rfl⟩
    | some outcome =>
      obtain ⟨arrived,u,bodied⟩ := clock.waitForJsonBody
        (plan.waitTimeout * tab.ms - ((tab.now t).1 - (tab.now s).1)) (tab.now t).2
      refine ⟨arrived,(tab.now t).1 - (tab.now s).1,u,?_⟩
      simp only [bodied]
      rfl

theorem sound_waitOutChallenge (tab : Tab σ) (detectors : List ChallengeDetector) (window : Nat) (s : σ)
    (ended : tab.recorded.waitOutChallenge detectors window (s,[]) = some (outcome,t)) :
    ChallengeSound detectors outcome t.2 := by
  obtain ⟨⟨outcome,t,first⟩,polled,same⟩ := Option.map_eq_some_iff.mp ended
  obtain ⟨rfl,rfl⟩ := Prod.mk.inj same
  have fresh : Watches detectors none [.read (tab.now s).1] := rfl
  apply poll_sound (sound_challengeRound tab detectors _ window) _ polled
  exact fresh

theorem sound_waitForJsonBody (tab : Tab σ) (budget : Nat) (s : σ)
    (ended : tab.recorded.waitForJsonBody budget (s,[]) = some (arrived,t)) : BodySound arrived t.2 := by
  have fresh : AllJson [] := nofun
  apply poll_sound (sound_bodyRound tab _ budget) _ ended
  exact fresh.cons nofun

/-- By every clock that advances the waits on documents end. Not cancelled, the outcome of a
challenge is told by the documents its polls observed, and a JSON body is waited for exactly
as long as they are JSON. By a prompt clock a challenge keeps its window, and the two waits of
a request together its wait timeout. -/
theorem document_waits (clock : tab.Clock time) (detectors : List ChallengeDetector) (s : σ) :
    (∀ window, ∃ outcome s' log, tab.waitOutChallenge detectors window s = some (outcome,s') ∧
      tab.recorded.waitOutChallenge detectors window (s,[]) = some (outcome,s',log) ∧
      (.cancelled true ∉ log →
        (outcome = some .passed ↔ Passes detectors (documents log)) ∧
        (outcome = some .none ↔ Unchallenged detectors (documents log)) ∧
        (outcome = some .failed ↔ ¬Passes detectors (documents log) ∧ ¬Unchallenged detectors (documents log))) ∧
      ∀ limit, tab.Prompt time limit → time s' ≤ time s + window) ∧
    (∀ budget, ∃ arrived s' log, tab.waitForJsonBody budget s = some (arrived,s') ∧
      tab.recorded.waitForJsonBody budget (s,[]) = some (arrived,s',log) ∧
      (.cancelled true ∉ log → (arrived = some true ↔ AllJson log) ∧ (arrived = some false ↔ ¬AllJson log))) ∧
    (∀ plan, ∃ arrived spent s', tab.waitForDocuments plan detectors s = some (arrived,spent,s') ∧
      tab.waitPhase plan detectors s = tab.waitAfterDocuments plan (arrived,spent,s') ∧
      ∀ limit, tab.Prompt time limit → time s' ≤ time s + plan.waitTimeout * tab.ms) := by
  refine ⟨fun window => ?_,fun budget => ?_,fun plan => ?_⟩
  · obtain ⟨outcome,⟨s',log⟩,ended⟩ := clock.recorded.waitOutChallenge detectors window (s,[])
    have itself : tab.waitOutChallenge detectors window s = some (outcome,s') := by
      rw [waitOutChallenge_forget tab detectors window (s,[]),ended]
      rfl
    refine ⟨outcome,s',log,itself,ended,?_,?_⟩
    · exact (sound_waitOutChallenge tab detectors window s ended).told
    · intro limit prompt
      obtain ⟨_,_,same,_,early⟩ := prompt.waitOutChallenge detectors window s
      obtain ⟨rfl,rfl⟩ := Prod.mk.inj (Option.some.inj (same.symm.trans itself))
      exact early
  · obtain ⟨arrived,⟨s',log⟩,ended⟩ := clock.recorded.waitForJsonBody budget (s,[])
    refine ⟨arrived,s',log,?_,ended,?_⟩
    · rw [waitForJsonBody_forget tab budget (s,[]),ended]
      rfl
    · intro going
      have sound := sound_waitForJsonBody tab budget s ended
      match arrived,sound with
      | none,stopped => contradiction
      | some true,all => exact ⟨⟨fun _ => all.mp rfl,fun _ => rfl⟩,⟨nofun,fun other => absurd (all.mp rfl) other⟩⟩
      | some false,all =>
        have other : ¬AllJson log := fun json => absurd (all.mpr json) nofun
        exact ⟨⟨nofun,fun json => absurd json other⟩,⟨fun _ => other,fun _ => rfl⟩⟩
  · obtain ⟨arrived,spent,s',waited⟩ := clock.waitForDocuments plan detectors s
    refine ⟨arrived,spent,s',waited,?_,?_⟩
    · rw [waitPhase_eq,waited]
      rfl
    · intro limit prompt
      obtain ⟨_,_,_,same,early,_⟩ := prompt.waitForDocuments plan detectors s
      obtain ⟨_,rest⟩ := Prod.mk.inj (Option.some.inj (same.symm.trans waited))
      obtain ⟨_,rfl⟩ := Prod.mk.inj rest
      exact early

def guardedPage : Tab Nat where
  ms := 1
  now t := (t,t)
  sleep d t := t + d
  spin t := t + 1
  cancelled t := (false,t)
  latest t := (some (if t < 250 then ⟨1,true,⟨403,[],""⟩⟩ else ⟨2,true,⟨200,[],""⟩⟩),t)
  selectorExists _ _ t := (.unseen,t)
  navigationStatus t := (none,t)
  listen _ t := t
  idle t := (some true,t)
  documentReady _ _ t := t
  waitUntilNavigated t := (true,t)

theorem guardedPage_prompt : guardedPage.Prompt id 0 := by
  constructor <;> intros <;> simp [guardedPage]

theorem document_waits_passed :
    ∃ log, guardedPage.recorded.waitOutChallenge [fun doc => doc.status == 403] 1000 (0,[]) =
        some (some .passed,300,log) ∧ Passes [fun doc => doc.status == 403] (documents log) := by
  have clean : ∀ run ∈ guardedPage.recorded.waitOutChallenge [fun doc => doc.status == 403] 1000 (0,[]),
      .cancelled true ∉ run.2.2 := by
    decide +kernel
  have same : guardedPage.waitOutChallenge [fun doc => doc.status == 403] 1000 0 = some (some .passed,300) := by
    decide +kernel
  obtain ⟨challenge,_⟩ := document_waits guardedPage_prompt.clock [fun doc => doc.status == 403] 0
  obtain ⟨outcome,t,log,ended,recorded,told,_⟩ := challenge 1000
  obtain ⟨rfl,rfl⟩ := Prod.mk.inj (Option.some.inj (ended.symm.trans same))
  obtain ⟨passed,_⟩ := told (clean _ recorded)
  exact ⟨log,recorded,passed.mp rfl⟩

end BrowserHive.Worker
