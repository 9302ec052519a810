import BrowserHive.Worker.Observations

/-! The verdicts of `NetworkIdleStrategy`, against what it has observed. -/
namespace BrowserHive.Worker

open Polling

variable {σ : Type} {tab : Tab σ} {time : σ → Nat}

def SkipUnseen (log : List Observation) : Prop :=
  ∀ text answer, .probe .skip text answer ∈ log → answer = .unseen

def Refused (log : List Observation) : Prop :=
  ∃ code, .status (some code) ∈ log ∧ shouldExitEarly code = true

def Awaited (waitSelector : Option String) (log : List Observation) : Prop :=
  match waitSelector with
  | none => .idle (some true) ∈ log
  | some text => .probe .wait text .seen ∈ log

/-- The selector search begins with two readings of the clock after the check of the status,
the network being idle: the first says what remains of the total. -/
def SearchBegan (log : List Observation) (read began : Nat) : Prop :=
  ∃ code earlier, .idle (some true) ∈ earlier ∧ .read began :: .read read :: .status code :: earlier <:+ log

/-- A budget is used up at a reading of the clock, the total one or that of the search. -/
def Tab.Exhausted (tab : Tab σ) (start total timeoutMs : Nat) (log : List Observation) (now : Nat) : Prop :=
  total ≤ now - start ∨
    ∃ read began, SearchBegan log read began ∧ tab.selectorTimeout timeoutMs (total - (read - start)) ≤ now - began

structure Tab.Sound (tab : Tab σ) (start total timeoutMs : Nat) (waitSelector skipSelector : Option String)
    (result : WaitResult) (log : List Observation) : Prop where
  skipped : result = .skipSelectorFound → ∃ text, skipSelector = some text ∧ .probe .skip text .seen ∈ log
  succeeded : result = .success → SkipUnseen log ∧ (Awaited waitSelector log ∨ Refused log)
  notFound : result = .waitSelectorNotFound → ∃ text now rest, waitSelector = some text ∧
    log = .probe .wait text .unseen :: .read now :: rest ∧ tab.Exhausted start total timeoutMs rest now

structure Idle (log : List Observation) : Prop where
  unseen : SkipUnseen log
  reported : .idle (some true) ∈ log

structure Checked (log : List Observation) : Prop where
  unseen : SkipUnseen log
  checked : ∃ code earlier, log = .status code :: earlier ∧ .idle (some true) ∈ earlier

structure Searching (read began : Nat) (log : List Observation) : Prop where
  unseen : SkipUnseen log
  began : SearchBegan log read began

/-- How phase 1 ends: with a verdict or with the network idle. -/
def Tab.IdleSound (tab : Tab σ) (start total timeoutMs : Nat) (waitSelector skipSelector : Option String) :
    Option WaitResult → List Observation → Prop
  | none, log => Idle log
  | some result, log => tab.Sound start total timeoutMs waitSelector skipSelector result log

theorem SkipUnseen.cons (unseen : SkipUnseen log)
    (other : ∀ text answer, entry = .probe .skip text answer → answer = .unseen) : SkipUnseen (entry :: log) := by
  intro text answer probed
  rcases List.mem_cons.mp probed with same | earlier
  · exact other text answer same.symm
  · exact unseen text answer earlier

theorem SkipUnseen.read (unseen : SkipUnseen log) (now : Nat) : SkipUnseen (.read now :: log) :=
  unseen.cons nofun

theorem SearchBegan.cons {read began : Nat} (entry : Observation) (searching : SearchBegan log read began) :
    SearchBegan (entry :: log) read began := by
  obtain ⟨code,earlier,idle,suffix⟩ := searching
  exact ⟨code,earlier,idle,suffix.trans (List.suffix_cons entry log)⟩

structure Phase (inv : List Observation → Prop) : Prop where
  unseen : ∀ log, inv log → SkipUnseen log
  cons : ∀ entry log, inv log → (∀ text answer, entry = .probe .skip text answer → answer = .unseen) →
    inv (entry :: log)

theorem skipUnseen_phase : Phase SkipUnseen where
  unseen _ := id
  cons _ _ := SkipUnseen.cons

theorem idle_phase : Phase Idle where
  unseen _ := Idle.unseen
  cons entry _ idle other := ⟨idle.unseen.cons other,List.mem_cons_of_mem entry idle.reported⟩

theorem searching_phase (read began : Nat) : Phase (Searching read began) where
  unseen _ := Searching.unseen
  cons entry _ searching other := ⟨searching.unseen.cons other,searching.began.cons entry⟩

theorem unseen_only {purpose : Purpose} (text : String) (selector : String) (answer : Probe)
    (same : Observation.probe purpose text .unseen = .probe .skip selector answer) : answer = .unseen := by
  cases same
  rfl

namespace Tab.Sound

variable {start total timeoutMs : Nat} {waitSelector skipSelector : Option String}

theorem failed (log : List Observation) :
    tab.Sound start total timeoutMs waitSelector skipSelector .failed log :=
  ⟨nofun,nofun,nofun⟩

theorem skip (text : String) (log : List Observation) :
    tab.Sound start total timeoutMs waitSelector (some text) .skipSelectorFound (.probe .skip text .seen :: log) := by
  refine ⟨fun _ => ?_,nofun,nofun⟩
  exact ⟨text,rfl,List.mem_cons_self⟩

theorem success (unseen : SkipUnseen log) (reason : Awaited waitSelector log ∨ Refused log) :
    tab.Sound start total timeoutMs waitSelector skipSelector .success log :=
  ⟨nofun,fun _ => ⟨unseen,reason⟩,nofun⟩

theorem refused (unseen : SkipUnseen log) (exits : shouldExitEarly code = true) :
    tab.Sound start total timeoutMs waitSelector skipSelector .success (.status (some code) :: log) := by
  apply success
  · exact unseen.cons nofun
  · exact .inr ⟨code,List.mem_cons_self,exits⟩

theorem last {now : Nat} (answer : Probe) (unseen : SkipUnseen log) (past : tab.Exhausted start total timeoutMs log now) :
    tab.Sound start total timeoutMs (some text) skipSelector answer.verdict
      (.probe .wait text answer :: .read now :: log) := by
  cases answer with
  | seen => exact success ((unseen.read now).cons nofun) (.inl List.mem_cons_self)
  | unseen => exact ⟨nofun,nofun,fun _ => ⟨text,now,log,rfl,rfl,past⟩⟩
  | failed => exact failed _

end Tab.Sound

section Phase

variable {inv : List Observation → Prop}

theorem sound_lookForSkip (phase : Phase inv) (tab : Tab σ) (start total timeoutMs : Nat)
    (waitSelector skipSelector : Option String) :
    Meets (fun t => inv t.2) (tab.recorded.lookFor .skip skipSelector .skipSelectorFound)
      (fun result t => tab.Sound start total timeoutMs waitSelector skipSelector result t.2) (fun t => inv t.2) := by
  apply logs_lookFor tab .skip skipSelector .skipSelectorFound
  · exact fun _ log holds => holds
  · rintro text log rfl _
    exact .skip text log
  · exact fun text log _ _ => .failed _
  · exact fun text log _ holds => phase.cons _ _ holds (unseen_only text)

/-- A budget of the search, checked: the clock was started at `since`. -/
theorem sound_expire (phase : Phase inv) (tab : Tab σ) (selector : String) (skipSelector : Option String)
    (past : ∀ now log, inv log → budget ≤ now - since → tab.Exhausted start total timeoutMs log now) :
    Meets (fun t => inv t.2) (tab.recorded.expire since budget (tab.recorded.finalSelectorVerdict (some selector)))
      (fun result t => tab.Sound start total timeoutMs (some selector) skipSelector result t.2)
      (fun t => inv t.2) := by
  apply logs_expire tab since budget
  · exact fun now s log holds late => .last _ (phase.unseen log holds) (past now log holds late)
  · exact fun now log holds => phase.cons _ _ holds nofun

end Phase

theorem sound_idleRound (tab : Tab σ) (start total timeoutMs : Nat) (waitSelector skipSelector : Option String) :
    Meets (fun t => SkipUnseen t.2) (tab.recorded.idleRound start total waitSelector skipSelector)
      (fun verdict t => tab.IdleSound start total timeoutMs waitSelector skipSelector verdict t.2)
      (fun t => SkipUnseen t.2) := by
  apply Meets.cons fun t => SkipUnseen t.2
  · apply logs_checkCancellation tab
    · exact fun log _ => .failed _
    · exact fun log unseen => unseen.cons nofun
  apply Meets.cons fun t => SkipUnseen t.2
  · exact (sound_lookForSkip skipUnseen_phase tab start total timeoutMs waitSelector skipSelector).answer
  apply Meets.cons fun t => SkipUnseen t.2
  · apply logs_checkIdle tab
    · exact fun log unseen => ⟨unseen.cons nofun,List.mem_cons_self⟩
    · exact fun log _ => .failed _
    · exact fun log unseen => unseen.cons nofun
  apply Meets.cons fun t => SkipUnseen t.2
  · apply Meets.answer
    apply logs_exitEarly tab
    · exact fun code log exits unseen => .refused unseen exits
    · exact fun code log unseen => unseen.cons nofun
  apply Meets.cons fun t => SkipUnseen t.2
  · apply Meets.answer
    cases waitSelector with
    | none =>
      apply logs_expire tab start total
      · exact fun now s log _ _ => .failed _
      · exact fun now log unseen => unseen.read now
    | some text => exact sound_expire skipUnseen_phase tab text skipSelector fun _ _ _ => .inl
  apply Meets.last
  exact logs_pause tab start total fun now log unseen => unseen.read now

theorem sound_afterIdle (tab : Tab σ) (start total timeoutMs : Nat) (waitSelector skipSelector : Option String) :
    Meets (fun t => Idle t.2) (tab.recorded.afterIdle start total waitSelector skipSelector)
      (fun result t => tab.Sound start total timeoutMs waitSelector skipSelector result t.2)
      (fun t => Checked t.2) := by
  apply Meets.cons fun t => Idle t.2
  · apply logs_awaitReady tab start total waitSelector
    exact fun now log idle => idle_phase.cons _ _ idle nofun
  apply (sound_lookForSkip idle_phase tab start total timeoutMs waitSelector skipSelector).cons
  apply Meets.cons fun t => Idle t.2
  · cases waitSelector with
    | none =>
      apply logs_expire tab start total
      · exact fun now s log idle _ => .success (idle.unseen.read now) (.inl (List.mem_cons_of_mem _ idle.reported))
      · exact fun now log idle => idle_phase.cons _ _ idle nofun
    | some text => exact sound_expire idle_phase tab text skipSelector fun _ _ _ => .inl
  apply Meets.last
  apply logs_exitEarly tab
  · exact fun code log exits idle => .refused idle.unseen exits
  · exact fun code log idle => ⟨idle.unseen.cons nofun,code,log,rfl,idle.reported⟩

theorem sound_searchRound (tab : Tab σ) (start total timeoutMs read began : Nat) (selector : String)
    (skipSelector : Option String) :
    Meets (fun t => Searching read began t.2)
      (tab.recorded.searchRound start total began (tab.selectorTimeout timeoutMs (total - (read - start))) selector
        skipSelector)
      (fun result t => tab.Sound start total timeoutMs (some selector) skipSelector result t.2)
      (fun t => Searching read began t.2) := by
  have phase := searching_phase read began
  apply Meets.cons fun t => Searching read began t.2
  · apply logs_checkCancellation tab
    · exact fun log _ => .failed _
    · exact fun log searching => phase.cons _ _ searching nofun
  apply (sound_lookForSkip phase tab start total timeoutMs (some selector) skipSelector).cons
  apply Meets.cons fun t => Searching read began t.2
  · apply logs_lookFor tab .wait (some selector) .success
    · nofun
    · rintro _ log ⟨⟩ searching
      exact .success (searching.unseen.cons nofun) (.inl List.mem_cons_self)
    · exact fun text log _ _ => .failed _
    · exact fun text log _ searching => phase.cons _ _ searching nofun
  apply Meets.cons fun t => Searching read began t.2
  · exact sound_expire phase tab selector skipSelector
      fun now log searching past => .inr ⟨read,began,searching.began,past⟩
  apply (sound_expire phase tab selector skipSelector fun _ _ _ => .inl).cons
  apply Meets.last
  exact logs_pause tab start total fun now log searching => phase.cons _ _ searching nofun

theorem sound_search (tab : Tab σ) (start total timeoutMs : Nat) (selector : String) (skipSelector : Option String)
    (checked : Checked log)
    (searched : tab.recorded.search start total timeoutMs selector skipSelector (s,log) = some (result,t)) :
    tab.Sound start total timeoutMs (some selector) skipSelector result t.2 := by
  obtain ⟨unseen,code,earlier,rfl,idle⟩ := checked
  have round := sound_searchRound tab start total timeoutMs (tab.now s).1 (tab.now (tab.now s).2).1 selector skipSelector
  apply poll_sound round _ searched
  constructor
  · exact (unseen.read _).read _
  · exact ⟨code,earlier,idle,List.suffix_refl _⟩

/-- A run of the strategy ends with a verdict that its log bears out. -/
theorem sound_networkIdle (tab : Tab σ) (spent timeoutMs : Nat) (waitSelector skipSelector : Option String) (s : σ)
    (ended : tab.recorded.networkIdle spent timeoutMs waitSelector skipSelector (s,[]) = some (result,t)) :
    tab.Sound (tab.startedAgo spent s).1 (totalTimeout timeoutMs waitSelector * tab.ms) timeoutMs waitSelector
      skipSelector result t.2 := by
  have fresh : SkipUnseen [] := nofun
  obtain ⟨⟨verdict,t₁⟩,polled,later⟩ := Option.bind_eq_some_iff.mp ended
  have first := poll_sound (sound_idleRound tab _ _ timeoutMs waitSelector skipSelector) (fresh.read _) polled
  cases verdict with
  | some verdict =>
    obtain ⟨rfl,rfl⟩ := Prod.mk.inj (Option.some.inj later)
    exact first
  | none =>
    dsimp only at later
    rcases (sound_afterIdle tab (tab.recorded.startedAgo spent (s,[])).1
        (totalTimeout timeoutMs waitSelector * tab.recorded.ms) timeoutMs waitSelector skipSelector).outcome first with
      ⟨verdict,t₂,same,sound⟩ | ⟨⟨s₂,log⟩,same,checked⟩
    · simp only [same] at later
      obtain ⟨rfl,rfl⟩ := Prod.mk.inj (Option.some.inj later)
      exact sound
    · simp only [same] at later
      cases waitSelector with
      | none =>
        obtain ⟨rfl,rfl⟩ := Prod.mk.inj (Option.some.inj later)
        obtain ⟨code,earlier,rfl,idle⟩ := checked.checked
        exact .success checked.unseen (.inl (List.mem_cons_of_mem _ idle))
      | some selector => exact sound_search tab _ _ timeoutMs selector skipSelector checked later

/-- The strategy ends by every clock that advances, whatever the page shows. It reports the
skip selector only if a probe saw it; it succeeds only if what it waits for came about or the
status was a refusal; the wait selector is missing only if a budget was used up and the last
probe did not see it; and no success follows a probe for a skip selector that stays. -/
theorem network_idle_verdicts (clock : tab.Clock time) (spent timeoutMs : Nat)
    (waitSelector skipSelector : Option String) (s : σ) :
    ∃ result s' log, tab.networkIdle spent timeoutMs waitSelector skipSelector s = some (result,s') ∧
      tab.recorded.networkIdle spent timeoutMs waitSelector skipSelector (s,[]) = some (result,s',log) ∧
      (result = .skipSelectorFound → ∃ text, skipSelector = some text ∧ .probe .skip text .seen ∈ log) ∧
      (result = .success → Awaited waitSelector log ∨ Refused log) ∧
      (result = .waitSelectorNotFound → ∃ text now rest, waitSelector = some text ∧
        log = .probe .wait text .unseen :: .read now :: rest ∧
        tab.Exhausted (tab.startedAgo spent s).1 (totalTimeout timeoutMs waitSelector * tab.ms) timeoutMs rest now) ∧
      (∀ later earlier, log = later ++ earlier →
        (∀ text answer, .probe .skip text answer ∈ later → answer ≠ .unseen) →
        (∃ text answer, .probe .skip text answer ∈ later) → result ≠ .success) := by
  obtain ⟨result,⟨s',log⟩,ended⟩ := clock.recorded.networkIdle spent timeoutMs waitSelector skipSelector (s,[])
  have sound := sound_networkIdle tab spent timeoutMs waitSelector skipSelector s ended
  refine ⟨result,s',log,?_,ended,sound.skipped,fun same => (sound.succeeded same).2,sound.notFound,?_⟩
  · rw [networkIdle_forget tab spent timeoutMs waitSelector skipSelector (s,[]),ended]
    rfl
  · rintro later earlier rfl stays ⟨text,answer,probed⟩ same
    have unseen := (sound.succeeded same).1
    exact stays text answer probed (unseen text answer (List.mem_append_left earlier probed))

/-- The price is there when the network is idle at last. -/
theorem network_idle_verdicts_priced :
    ∃ log, slowPage.recorded.networkIdle 0 1000 (some ".price") none (0,[]) = some (.success,20000,log) ∧
      (.probe .wait ".price" .seen ∈ log ∨ Refused log) := by
  obtain ⟨result,t,log,ended,recorded,_,awaited,_⟩ :=
    network_idle_verdicts (slowPage_prompt 0).clock 0 1000 (some ".price") none 0
  have same : slowPage.networkIdle 0 1000 (some ".price") none 0 = some (.success,20000) := by
    decide +kernel
  obtain ⟨rfl,rfl⟩ := Prod.mk.inj (Option.some.inj (ended.symm.trans same))
  exact ⟨log,recorded,awaited rfl⟩

end BrowserHive.Worker
