import BrowserHive.Lib.Poll
import BrowserHive.Lib.Text
import BrowserHive.Worker.Response

/-! Waiting out an anti-bot challenge, and for the body of a JSON document: what a wait can
ask of a tab, and the two waits that come before the strategy. A duration is in ticks of the
clock. -/
namespace BrowserHive.Worker

open Polling

/-- A header name is matched without regard to case. -/
structure MainDocument where
  status : Nat
  headers : List (String × String)
  url : String
  deriving DecidableEq, Repr

def asciiLower (text : List Char) : List Char := text.map Char.toLower

def MainDocument.header (doc : MainDocument) (name : String) : Option String :=
  (doc.headers.find? fun entry => asciiLower entry.1.toList = asciiLower name.toList).map Prod.snd

def MainDocument.isJson (doc : MainDocument) : Bool :=
  (doc.header "content-type").any fun value =>
    asciiLower (Text.trim (value.toList.takeWhile (· ≠ ';'))) = "application/json".toList

structure DocumentSnapshot where
  seq : Nat
  loaded : Bool
  doc : MainDocument
  deriving DecidableEq, Repr

inductive Probe where
  | seen
  | unseen
  | failed
  deriving DecidableEq, Repr

inductive Purpose where
  | wait
  | skip
  deriving DecidableEq, Repr

/-- All that a wait can do and ask, over the states of the world outside it: every operation
may take time and leaves a new world. A millisecond has `ms` ticks. `idle` reads what
`wait_until_navigated` gave to the thread that `listen` starts; `spin` is a turn of a loop
without a sleep. -/
structure Tab (σ : Type) where
  ms : Nat
  now : σ → Nat × σ
  sleep : Nat → σ → σ
  spin : σ → σ
  cancelled : σ → Bool × σ
  latest : σ → Option DocumentSnapshot × σ
  selectorExists : Purpose → String → σ → Probe × σ
  navigationStatus : σ → Option Nat × σ
  listen : Nat → σ → σ
  idle : σ → Option Bool × σ
  documentReady : Nat → Option String → σ → σ
  waitUntilNavigated : σ → Bool × σ

variable {σ : Type}

def Tab.elapsed (tab : Tab σ) (start : Nat) (s : σ) : Nat × σ := ((tab.now s).1 - start,(tab.now s).2)

def Tab.checkCancellation {α : Type} (tab : Tab σ) (failure : α) : Polling.Step σ α := fun s =>
  (if (tab.cancelled s).1 then some failure else none,(tab.cancelled s).2)

inductive ChallengeOutcome where
  | none
  | passed
  | failed
  | skipped
  deriving DecidableEq, Repr

abbrev ChallengeDetector := MainDocument → Bool

def isChallenge (detectors : List ChallengeDetector) (doc : MainDocument) : Bool :=
  detectors.any fun detector => detector doc

def challengePollInterval : Nat := 100

def judgeDocument (detectors : List ChallengeDetector) :
    Option DocumentSnapshot → Option Nat → Option ChallengeOutcome × Option Nat
  | none, first => (none,first)
  | some snapshot, none =>
    if isChallenge detectors snapshot.doc then (none,some snapshot.seq) else (some .none,none)
  | some snapshot, some first =>
    if first < snapshot.seq ∧ snapshot.loaded ∧ ¬isChallenge detectors snapshot.doc then
      (some .passed,some first)
    else (none,some first)

/-- The local variable is the number of the first document seen. -/
def Tab.lookForChallenge (tab : Tab σ) (detectors : List ChallengeDetector) :
    Polling.Step (σ × Option Nat) (Option ChallengeOutcome) := fun (s,first) =>
  ((judgeDocument detectors (tab.latest s).1 first).1.map some,(tab.latest s).2,
    (judgeDocument detectors (tab.latest s).1 first).2)

def Tab.closeWindow (tab : Tab σ) (start window : Nat) :
    Polling.Step (σ × Option Nat) (Option ChallengeOutcome) := fun (s,first) =>
  (if window ≤ (tab.elapsed start s).1 then some (some (if first.isNone then .none else .failed)) else none,
    (tab.elapsed start s).2,first)

def Tab.doze {α : Type} (tab : Tab σ) (start budget : Nat) : Polling.Step σ α := fun s =>
  (none,tab.sleep (min (challengePollInterval * tab.ms) (budget - (tab.elapsed start s).1)) (tab.elapsed start s).2)

def Tab.challengeRound (tab : Tab σ) (detectors : List ChallengeDetector) (start window : Nat) :
    Polling.Step (σ × Option Nat) (Option ChallengeOutcome) :=
  inOrder [(tab.checkCancellation none).beside (Option Nat),tab.lookForChallenge detectors,
    tab.closeWindow start window,(tab.doze start window).beside (Option Nat)]

/-- The outcome `none` is a cancellation. A round takes a tick or more, so the fuel lasts for
the window. -/
def Tab.waitOutChallenge (tab : Tab σ) (detectors : List ChallengeDetector) (window : Nat) (s : σ) :
    Option (Option ChallengeOutcome × σ) :=
  match tab.now s with
  | (start,s) =>
    (poll (tab.challengeRound detectors start window) (window + 1) (s,none)).map fun (outcome,s,_) => (outcome,s)

/-- Whether a JSON document has arrived; `none` while its body is still loading. -/
def bodyArrived : Option DocumentSnapshot → Option Bool
  | none => some false
  | some snapshot =>
    if snapshot.doc.isJson then (if snapshot.loaded then some true else none) else some false

/-- A body still loading when the budget is spent is taken for arrived. -/
def Tab.lookForBody (tab : Tab σ) (start budget : Nat) : Polling.Step σ (Option Bool) := fun s =>
  match bodyArrived (tab.latest s).1 with
  | some arrived => (some (some arrived),(tab.latest s).2)
  | none =>
    (if budget ≤ (tab.elapsed start (tab.latest s).2).1 then some (some true) else none,
      (tab.elapsed start (tab.latest s).2).2)

def Tab.bodyRound (tab : Tab σ) (start budget : Nat) : Polling.Step σ (Option Bool) :=
  inOrder [tab.checkCancellation none,tab.lookForBody start budget,tab.doze start budget]

/-- Called after `waitOutChallenge`. The outcome `none` is a cancellation. -/
def Tab.waitForJsonBody (tab : Tab σ) (budget : Nat) (s : σ) : Option (Option Bool × σ) :=
  match tab.now s with
  | (start,s) => poll (tab.bodyRound start budget) (budget + 1) s

/-- Every round trip is answered at once and sleeps are exact: `time` is the clock, and only
a sleep, a turn of a loop and what the page itself holds back let it go on. The limit is
the tab's own timeout on navigation, in milliseconds. -/
structure Tab.Prompt (tab : Tab σ) (time : σ → Nat) (limit : Nat) : Prop where
  ticks : 0 < tab.ms
  now : ∀ s, tab.now s = (time s,(tab.now s).2)
  now_time : ∀ s, time (tab.now s).2 = time s
  sleep : ∀ d s, time (tab.sleep d s) = time s + d
  spin : ∀ s, time (tab.spin s) = time s + 1
  cancelled : ∀ s, time (tab.cancelled s).2 = time s
  latest : ∀ s, time (tab.latest s).2 = time s
  selectorExists : ∀ purpose selector s, time (tab.selectorExists purpose selector s).2 = time s
  navigationStatus : ∀ s, time (tab.navigationStatus s).2 = time s
  listen : ∀ timeout s, time (tab.listen timeout s) = time s
  idle : ∀ s, time (tab.idle s).2 = time s
  documentReady : ∀ wait selector s,
    time s ≤ time (tab.documentReady wait selector s) ∧ time (tab.documentReady wait selector s) ≤ time s + wait
  waitUntilNavigated : ∀ s,
    time s ≤ time (tab.waitUntilNavigated s).2 ∧ time (tab.waitUntilNavigated s).2 ≤ time s + limit * tab.ms

variable {tab : Tab σ} {time : σ → Nat} {limit : Nat}

/-- A step that takes no time keeps what is true of the moment. -/
theorem meets_still {τ : Type} {α : Type} {step : Polling.Step τ α} {clock : τ → Nat}
    (still : ∀ s, clock (step s).2 = clock s) (moment : Nat → Prop) :
    Meets (fun s => moment (clock s)) step (fun _ s => moment (clock s)) (fun s => moment (clock s)) := by
  intro s holds
  rw [← still s] at holds
  exact ⟨fun _ _ => holds,fun _ => holds⟩

namespace Tab.Prompt

theorem elapsed (prompt : tab.Prompt time limit) (start : Nat) (s : σ) :
    (tab.elapsed start s).1 = time s - start ∧ time (tab.elapsed start s).2 = time s := by
  constructor
  · rw [Tab.elapsed,prompt.now s]
  · exact prompt.now_time s

theorem doze (α : Type) (prompt : tab.Prompt time limit) (started : start ≤ time s)
    (left : time s < start + budget) :
    time s < time ((tab.doze start budget : Polling.Step σ α) s).2 ∧
      time ((tab.doze start budget : Polling.Step σ α) s).2 ≤ start + budget := by
  obtain ⟨read,kept⟩ := prompt.elapsed start s
  have interval : 0 < challengePollInterval * tab.ms := Nat.mul_pos (by decide) prompt.ticks
  simp only [Tab.doze]
  rw [prompt.sleep,read,kept]
  omega

/-- A check at one moment between the start and the deadline. -/
theorem within {τ : Type} {α : Type} {clock : τ → Nat} {step : Polling.Step τ α}
    (still : ∀ s, clock (step s).2 = clock s) (started : start ≤ t) (early : t ≤ deadline) :
    Meets (fun s => clock s = t) step (fun _ s => start ≤ clock s ∧ clock s ≤ deadline) (fun s => clock s = t) := by
  apply (meets_still still (· = t)).weaken
  · exact fun _ => id
  · rintro _ s rfl
    exact ⟨started,early⟩
  · exact fun _ => id

theorem challengeRound (prompt : tab.Prompt time limit) (detectors : List ChallengeDetector)
    (started : start ≤ t) (early : t ≤ start + window) :
    Meets (fun s => time s.1 = t) (tab.challengeRound detectors start window)
      (fun _ s => start ≤ time s.1 ∧ time s.1 ≤ start + window)
      (fun s => t < time s.1 ∧ time s.1 ≤ start + window) := by
  apply Meets.cons fun s => time s.1 = t
  · apply Meets.beside
    intro first
    exact within prompt.cancelled started early
  apply Meets.cons fun s => time s.1 = t
  · exact within (fun s => prompt.latest s.1) started early
  apply Meets.cons fun s => time s.1 = t ∧ t < start + window
  · rintro ⟨s,first⟩ rfl
    obtain ⟨read,kept⟩ := prompt.elapsed start s
    simp only [Tab.closeWindow,read,kept]
    split
    · exact ⟨fun _ _ => ⟨started,early⟩,nofun⟩
    · exact ⟨nofun,fun _ => ⟨trivial,by omega⟩⟩
  apply Meets.last
  apply Meets.beside
  rintro first s ⟨rfl,left⟩
  exact ⟨nofun,fun _ => prompt.doze (Option ChallengeOutcome) started left⟩

theorem waitOutChallenge (prompt : tab.Prompt time limit) (detectors : List ChallengeDetector)
    (window : Nat) (s : σ) : ∃ outcome s', tab.waitOutChallenge detectors window s = some (outcome,s') ∧
      time s ≤ time s' ∧ time s' ≤ time s + window := by
  have begun := prompt.now_time s
  obtain ⟨outcome,⟨s',first⟩,answered,bounds⟩ : ∃ outcome t,
      poll (tab.challengeRound detectors (time s) window) (window + 1) ((tab.now s).2,none) = some (outcome,t) ∧
      time s ≤ time t.1 ∧ time t.1 ≤ time s + window := by
    apply poll_by fun s => time s.1
    · exact fun t started early => prompt.challengeRound detectors started early
    · rw [begun]
    · simp only [begun]
      omega
    · simp only [begun]
      omega
  refine ⟨outcome,s',?_,bounds⟩
  rw [Tab.waitOutChallenge,prompt.now s]
  simp only [answered]
  rfl

theorem bodyRound (prompt : tab.Prompt time limit) (started : start ≤ t) (early : t ≤ start + budget) :
    Meets (fun s => time s = t) (tab.bodyRound start budget)
      (fun _ s => start ≤ time s ∧ time s ≤ start + budget) (fun s => t < time s ∧ time s ≤ start + budget) := by
  apply Meets.cons fun s => time s = t
  · exact within prompt.cancelled started early
  apply Meets.cons fun s => time s = t ∧ t < start + budget
  · rintro s rfl
    have seen := prompt.latest s
    obtain ⟨read,kept⟩ := prompt.elapsed start (tab.latest s).2
    simp only [Tab.lookForBody,read,seen]
    split
    · exact ⟨fun _ _ => ⟨seen ▸ started,seen ▸ early⟩,nofun⟩
    · simp only [kept,seen]
      split
      · exact ⟨fun _ _ => ⟨started,early⟩,nofun⟩
      · exact ⟨nofun,fun _ => ⟨trivial,by omega⟩⟩
  apply Meets.last
  rintro s ⟨rfl,left⟩
  exact ⟨nofun,fun _ => prompt.doze (Option Bool) started left⟩

theorem waitForJsonBody (prompt : tab.Prompt time limit) (budget : Nat) (s : σ) :
    ∃ arrived s', tab.waitForJsonBody budget s = some (arrived,s') ∧
      time s ≤ time s' ∧ time s' ≤ time s + budget := by
  have begun := prompt.now_time s
  rw [Tab.waitForJsonBody,prompt.now s]
  exact poll_by time (fun t started early => prompt.bodyRound started early)
    (by rw [begun]) (by simp only [begun]; omega) (by simp only [begun]; omega)

end Tab.Prompt

end BrowserHive.Worker
