import BrowserHive.Worker.Observations

/-! The verdicts of `TimeoutStrategy`, against what its polls have observed. -/
namespace BrowserHive.Worker

open Polling

variable {σ : Type} {tab : Tab σ} {time : σ → Nat}

def SkipSeen (log : List Observation) : Prop := ∃ text, .probe .skip text .seen ∈ log

def WaitSeen (log : List Observation) : Prop := ∃ text, .probe .wait text .seen ∈ log

/-- A cancellation, or a probe that came to nothing. -/
def Disturbed (log : List Observation) : Prop :=
  .cancelled true ∈ log ∨ ∃ purpose text, .probe purpose text .failed ∈ log

/-- In the loop: nothing yet that ends it, and the local variable remembers the wait selector. -/
structure Remembers (seen : Bool) (log : List Observation) : Prop where
  skip : ¬SkipSeen log
  wait : seen = true ↔ WaitSeen log

inductive TimeoutSound (waitSelector : Option String) : WaitResult → List Observation → Prop where
  | skipped (seen : SkipSeen log) : TimeoutSound waitSelector .skipSelectorFound log
  | failed (unseen : ¬SkipSeen log) (disturbed : Disturbed log) : TimeoutSound waitSelector .failed log
  | success (unseen : ¬SkipSeen log) (found : waitSelector = none ∨ WaitSeen log) :
    TimeoutSound waitSelector .success log
  | notFound (unseen : ¬SkipSeen log) (wanted : waitSelector.isSome) (missing : ¬WaitSeen log) :
    TimeoutSound waitSelector .waitSelectorNotFound log

theorem SkipSeen.of_cons (seen : SkipSeen (entry :: log)) (other : ∀ text, entry ≠ .probe .skip text .seen) :
    SkipSeen log := by
  obtain ⟨text,probed⟩ := seen
  rcases List.mem_cons.mp probed with same | earlier
  · exact absurd same.symm (other text)
  · exact ⟨text,earlier⟩

theorem WaitSeen.of_cons (seen : WaitSeen (entry :: log)) (other : ∀ text, entry ≠ .probe .wait text .seen) :
    WaitSeen log := by
  obtain ⟨text,probed⟩ := seen
  rcases List.mem_cons.mp probed with same | earlier
  · exact absurd same.symm (other text)
  · exact ⟨text,earlier⟩

theorem WaitSeen.cons (entry : Observation) (seen : WaitSeen log) : WaitSeen (entry :: log) := by
  obtain ⟨text,probed⟩ := seen
  exact ⟨text,List.mem_cons_of_mem entry probed⟩

/-- An observation that sees nothing. -/
theorem Remembers.cons (remembers : Remembers seen log) (skip : ∀ text, entry ≠ .probe .skip text .seen)
    (wait : ∀ text, entry ≠ .probe .wait text .seen) : Remembers seen (entry :: log) := by
  refine ⟨fun found => remembers.skip (found.of_cons skip),?_⟩
  constructor
  · exact fun same => (remembers.wait.mp same).cons entry
  · exact fun found => remembers.wait.mpr (found.of_cons wait)

/-- The last check decides when the time is over. -/
theorem sound_timeoutVerdict (tab : Tab σ) (waitSelector : Option String) (seen : Bool) (s : σ)
    (remembers : Remembers seen log) :
    TimeoutSound waitSelector (tab.recorded.timeoutVerdict waitSelector seen (s,log)).1
      (tab.recorded.timeoutVerdict waitSelector seen (s,log)).2.2 := by
  cases seen with
  | true => exact .success remembers.skip (.inr (remembers.wait.mp rfl))
  | false =>
    apply logs_finalSelectorVerdict tab waitSelector
    · exact fun unset => .success remembers.skip (.inl unset)
    · intro text answer wanted
      have unseen : ¬SkipSeen (.probe .wait text answer :: log) := fun found => remembers.skip (found.of_cons nofun)
      cases answer with
      | seen => exact .success unseen (.inr ⟨text,List.mem_cons_self⟩)
      | unseen =>
        apply TimeoutSound.notFound unseen
        · rw [wanted]
          rfl
        · intro found
          exact absurd (remembers.wait.mpr (found.of_cons nofun)) nofun
      | failed => exact .failed unseen (.inr ⟨.wait,text,List.mem_cons_self⟩)

theorem recorded_lookForWanted (tab : Tab σ) (text : String) (skipSelector : Option String) (s : σ)
    (log : List Observation) :
    tab.recorded.lookForWanted (some text) skipSelector ((s,log),false) =
      ((tab.selectorExists .wait text s).1.answer (if skipSelector.isNone then some .success else none),
        ((tab.selectorExists .wait text s).2,.probe .wait text (tab.selectorExists .wait text s).1 :: log),
        decide ((tab.selectorExists .wait text s).1 = .seen)) := rfl

theorem sound_lookForWanted (tab : Tab σ) (waitSelector skipSelector : Option String) :
    Meets (fun t => Remembers t.2 t.1.2) (tab.recorded.lookForWanted waitSelector skipSelector)
      (fun result t => TimeoutSound waitSelector result t.1.2) (fun t => Remembers t.2 t.1.2) := by
  rintro ⟨⟨s,log⟩,seen⟩ remembers
  cases waitSelector with
  | none => exact ⟨nofun,fun _ => remembers⟩
  | some text =>
    cases seen with
    | true => exact ⟨nofun,fun _ => remembers⟩
    | false =>
      have unseen (answer : Probe) : ¬SkipSeen (.probe .wait text answer :: log) :=
        fun found => remembers.skip (found.of_cons nofun)
      rw [recorded_lookForWanted]
      generalize (tab.selectorExists .wait text s).1 = answer
      cases answer with
      | seen =>
        have found : WaitSeen (.probe .wait text .seen :: log) := ⟨text,List.mem_cons_self⟩
        cases skipSelector with
        | none =>
          refine ⟨?_,nofun⟩
          rintro _ ⟨⟩
          exact .success (unseen .seen) (.inr found)
        | some skip =>
          refine ⟨nofun,fun _ => ⟨unseen .seen,?_⟩⟩
          exact ⟨fun _ => found,fun _ => rfl⟩
      | unseen => exact ⟨nofun,fun _ => remembers.cons nofun nofun⟩
      | failed =>
        refine ⟨?_,nofun⟩
        rintro _ ⟨⟩
        exact .failed (unseen .failed) (.inr ⟨.wait,text,List.mem_cons_self⟩)

theorem sound_timeoutRound (tab : Tab σ) (start timeout : Nat) (waitSelector skipSelector : Option String) :
    Meets (fun t => Remembers t.2 t.1.2) (tab.recorded.timeoutRound start timeout waitSelector skipSelector)
      (fun result t => TimeoutSound waitSelector result t.1.2) (fun t => Remembers t.2 t.1.2) := by
  apply Meets.cons fun t => Remembers t.2 t.1.2
  · apply Meets.beside
    intro seen
    dsimp only
    apply logs_checkCancellation tab
    · intro log remembers
      exact .failed (fun found => remembers.skip (found.of_cons nofun)) (.inl List.mem_cons_self)
    · exact fun log remembers => remembers.cons nofun nofun
  apply Meets.cons fun t => Remembers t.2 t.1.2
  · apply Meets.beside
    intro seen
    dsimp only
    apply logs_lookFor tab .skip skipSelector
    · exact fun _ log remembers => remembers
    · exact fun text log _ _ => .skipped ⟨text,List.mem_cons_self⟩
    · intro text log _ remembers
      exact .failed (fun found => remembers.skip (found.of_cons nofun)) (.inr ⟨.skip,text,List.mem_cons_self⟩)
    · exact fun text log _ remembers => remembers.cons nofun nofun
  apply (sound_lookForWanted tab waitSelector skipSelector).cons
  apply Meets.cons fun t => Remembers t.2 t.1.2
  · rintro ⟨t,seen⟩ remembers
    apply logs_expire tab start timeout _ _ t remembers
    · exact fun now s log remembers _ => sound_timeoutVerdict tab waitSelector seen s (remembers.cons nofun nofun)
    · exact fun now log remembers => remembers.cons nofun nofun
  exact Meets.last fun t remembers => ⟨nofun,fun _ => remembers⟩

theorem effectiveTimeout_pos (timeoutMs : Nat) : 0 < effectiveTimeout timeoutMs := by
  unfold effectiveTimeout
  split
  · decide
  · split
    · decide
    · omega

/-- The loop succeeds before its time is over only because the wait selector was seen. -/
theorem early_timeoutRound (clock : tab.Clock time) (start : Nat) (some : 0 < timeout)
    (waitSelector skipSelector : Option String) :
    Meets (fun _ => True) (tab.recorded.timeoutRound start timeout waitSelector skipSelector)
      (fun result t => result = .success → start + timeout ≤ time t.1.1 ∨ skipSelector = none ∧ WaitSeen t.1.2)
      (fun _ => True) := by
  apply Meets.cons fun _ => True
  · rintro ⟨t,seen⟩ _
    refine ⟨?_,fun _ => trivial⟩
    rintro _ answered rfl
    simp only [Step.beside,Tab.checkCancellation] at answered
    split at answered <;> contradiction
  apply Meets.cons fun _ => True
  · rintro ⟨t,seen⟩ _
    refine ⟨?_,fun _ => trivial⟩
    rintro _ answered rfl
    cases skipSelector with
    | none => contradiction
    | some text =>
      simp only [Step.beside,Tab.lookFor] at answered
      cases same : (tab.recorded.selectorExists .skip text t).1 <;> rw [same] at answered <;> contradiction
  apply Meets.cons fun _ => True
  · rintro ⟨⟨s,log⟩,seen⟩ _
    refine ⟨?_,fun _ => trivial⟩
    rintro _ answered rfl
    cases waitSelector with
    | none => contradiction
    | some text =>
      cases seen with
      | true => contradiction
      | false =>
        rw [recorded_lookForWanted] at answered ⊢
        generalize (tab.selectorExists .wait text s).1 = answer at *
        cases answer with
        | seen =>
          cases skipSelector with
          | none => exact .inr ⟨rfl,text,List.mem_cons_self⟩
          | some skip => contradiction
        | unseen => cases answered
        | failed => cases answered
  apply Meets.cons fun _ => True
  · rintro ⟨t,seen⟩ _
    refine ⟨?_,fun _ => trivial⟩
    intro result answered _
    have late := clock.recorded.expire_late (clock.recorded.asks.timeoutVerdict waitSelector seen) start some t trivial
    exact .inl (late.1 result answered)
  exact Meets.last fun _ _ => ⟨by rintro _ ⟨⟩,fun _ => trivial⟩

theorem timeout_loop (tab : Tab σ) (navigated : (tab.waitUntilNavigated s).1 = true)
    (ended : tab.timeout spent timeoutMs waitSelector skipSelector s = some (result,t)) :
    ∃ seen, poll (tab.timeoutRound (tab.startedAgo spent (tab.waitUntilNavigated s).2).1
        (effectiveTimeout timeoutMs * tab.ms) waitSelector skipSelector) (effectiveTimeout timeoutMs * tab.ms + 1)
        ((tab.startedAgo spent (tab.waitUntilNavigated s).2).2,false) = some (result,t,seen) := by
  have begun : tab.waitUntilNavigated s = (true,(tab.waitUntilNavigated s).2) := Prod.ext navigated rfl
  unfold Tab.timeout at ended
  rw [begun] at ended
  obtain ⟨⟨result,t,seen⟩,polled,same⟩ := Option.map_eq_some_iff.mp ended
  obtain ⟨rfl,rfl⟩ := Prod.mk.inj same
  exact ⟨seen,polled⟩

/-- The loop of the strategy ends by every clock that advances, whatever the page shows. A
skip selector that a poll sees decides; without one and undisturbed, success means that there
was nothing to wait for or that it was seen; it comes early only when seeing it is enough; and
by a prompt clock the time is overrun by less than a poll interval, if there is any left. -/
theorem timeout_verdicts (clock : tab.Clock time) (spent timeoutMs : Nat) (waitSelector skipSelector : Option String)
    (s : σ) (navigated : (tab.waitUntilNavigated s).1 = true) :
    ∃ result s' log, tab.timeout spent timeoutMs waitSelector skipSelector s = some (result,s') ∧
      tab.recorded.timeout spent timeoutMs waitSelector skipSelector (s,[]) = some (result,s',log) ∧
      (SkipSeen log → result = .skipSelectorFound) ∧
      (¬SkipSeen log → ¬Disturbed log →
        (waitSelector = none ∨ WaitSeen log → result = .success) ∧
        (¬(waitSelector = none ∨ WaitSeen log) → result = .waitSelectorNotFound)) ∧
      (result = .success →
        time s' < (tab.startedAgo spent (tab.waitUntilNavigated s).2).1 + effectiveTimeout timeoutMs * tab.ms →
        skipSelector = none ∧ WaitSeen log) ∧
      (∀ limit, tab.Prompt time limit → time s' ≤ max (time (tab.waitUntilNavigated s).2)
        ((tab.startedAgo spent (tab.waitUntilNavigated s).2).1 + (effectiveTimeout timeoutMs + pollInterval) * tab.ms)) := by
  obtain ⟨result,⟨s',log⟩,ended⟩ := clock.recorded.timeout spent timeoutMs waitSelector skipSelector (s,[])
  have itself : tab.timeout spent timeoutMs waitSelector skipSelector s = some (result,s') := by
    rw [timeout_forget tab spent timeoutMs waitSelector skipSelector (s,[]),ended]
    rfl
  obtain ⟨seen,polled⟩ := timeout_loop (s := (s,[])) tab.recorded navigated ended
  have sound : TimeoutSound waitSelector result log := by
    apply poll_sound (sound_timeoutRound tab _ _ waitSelector skipSelector) _ polled
    have fresh : Remembers false [] := ⟨nofun,nofun,nofun⟩
    exact Remembers.cons (Remembers.cons fresh nofun nofun) nofun nofun
  have early := poll_sound (early_timeoutRound clock _
    (Nat.mul_pos (effectiveTimeout_pos timeoutMs) clock.ticks) waitSelector skipSelector) trivial polled
  refine ⟨result,s',log,itself,ended,?_,?_,?_,?_⟩
  · intro seen
    cases sound with
    | skipped => rfl
    | failed unseen => contradiction
    | success unseen => contradiction
    | notFound unseen => contradiction
  · intro unseen undisturbed
    cases sound with
    | skipped seen => contradiction
    | failed _ disturbed => contradiction
    | success _ found => exact ⟨fun _ => rfl,fun missed => absurd found missed⟩
    | notFound _ wanted missing =>
      refine ⟨?_,fun _ => rfl⟩
      rintro (rfl | found)
      · contradiction
      · contradiction
  · intro succeeded before
    rcases early succeeded with late | seen
    · exact absurd (Nat.lt_of_lt_of_le before late) (Nat.lt_irrefl _)
    · exact seen
  · intro limit prompt
    obtain ⟨_,polled⟩ := timeout_loop tab navigated itself
    obtain ⟨started,_⟩ := clock.startedAgo spent (tab.waitUntilNavigated s).2
    obtain ⟨_,_,same,beat⟩ := prompt.timeoutLoop waitSelector skipSelector (effectiveTimeout timeoutMs * tab.ms) started
    obtain ⟨rfl,rfl⟩ := Prod.mk.inj (Option.some.inj (same.symm.trans polled))
    have begun := prompt.now_time (tab.waitUntilNavigated s).2
    change time (tab.startedAgo spent (tab.waitUntilNavigated s).2).2 = _ at begun
    rw [begun] at beat
    rw [Nat.add_mul]
    obtain ⟨rounds,reached,first | left⟩ := beat
    · rw [reached,first,Nat.zero_mul]
      exact Nat.le_max_left _ _
    · rw [Nat.add_assoc] at left
      exact Nat.le_trans (Nat.le_of_lt left) (Nat.le_max_right _ _)

/-- The price is there at once, and nothing is to be skipped. -/
theorem timeout_verdicts_priced :
    ∃ log, slowPage.recorded.timeout 0 2000 (some ".price") none (0,[]) = some (.success,0,log) ∧ WaitSeen log := by
  obtain ⟨result,t,log,ended,recorded,_,_,early,_⟩ :=
    timeout_verdicts (slowPage_prompt 0).clock 0 2000 (some ".price") none 0 rfl
  have same : slowPage.timeout 0 2000 (some ".price") none 0 = some (.success,0) := by
    decide +kernel
  obtain ⟨rfl,rfl⟩ := Prod.mk.inj (Option.some.inj (ended.symm.trans same))
  obtain ⟨_,seen⟩ := early rfl (by decide)
  exact ⟨log,recorded,seen⟩

end BrowserHive.Worker
