import BrowserHive.Worker.Replacement

/-! Which attempts are retried. A first attempt keeps the generation it read after its
context was bound, and is retried when it failed and the generation has moved since. -/
namespace BrowserHive.Worker

open BrowserHive Transition RwLock

variable {scope : ValidScope} {s t : State} {p pools : Pools} {i j : Nat} {h h' : Handler} {terminating : Bool}
  {c : ContextId}

/-- First attempts have read a generation, second ones have not. -/
def Attempt.number (a : Attempt) : Nat := if a.generation.isSome then 1 else 2

def Back.begun : Back → Nat
  | .acquire retry => if retry then 1 else 0
  | .attempt a => a.number

def Pc.begun : Pc → Option Nat
  | .arrived | .echoing | .echo | .lookingUp | .lookup | .found _ | .bound _ => some 0
  | .acquiring retry _ | .acquire retry _ => some (if retry then 1 else 0)
  | .launching _ back | .replacing _ back | .replace _ back | .bump back => some back.begun
  | .claim a => some (a.number - 1)
  | .tabbing a | .tab a | .navigate a | .load a | .leaving a | .leave a | .status a | .discarding a _ | .discard a _
  | .ended a _ _ => some a.number
  | .finishing _ | .returned _ | .dropped => none

structure Handler.Counted (h : Handler) : Prop where
  exact : ∀ n, h.pc.begun = some n → h.attempts = n
  most : h.attempts ≤ 2

theorem Attempt.number_le (a : Attempt) : 1 ≤ a.number ∧ a.number ≤ 2 := by
  unfold number
  split <;> omega

/-- The attempt at a program point, counted with the one that leaving the point begins. -/
theorem Pc.begun_of_attempt {pc : Pc} (at_ : pc.attempt = some a) :
    ∃ n, pc.begun = some n ∧ n + pc.starts = a.number := by
  have := a.number_le
  cases pc <;> simp_all [attempt,begun,starts]
  all_goals
    rename_i back
    cases back <;> simp_all [Back.attempt?,Back.begun]

theorem counted_of_attempt (counted : h.Counted) (at_ : h.pc.attempt = some a) :
    h.attempts + h.pc.starts = a.number := by
  obtain ⟨n,begun,same⟩ := Pc.begun_of_attempt at_
  rw [counted.exact n begun,same]

theorem Handler.Counted.started (counted : h.Counted) (at_ : h.pc.attempt = some a) :
    h.attempts + h.pc.starts ≤ 2 := by
  rw [counted_of_attempt counted at_]
  exact a.number_le.2

theorem begun_granted (pc : Pc) : pc.granted.begun = pc.begun := by cases pc <;> rfl

theorem Pc.plain_begun {pc : Pc} (plain : pc.plain = true) (at_ : pc.attempt = some a) : pc.begun = some a.number := by
  cases pc <;> simp_all [Pc.plain,attempt,begun]

theorem bindContext_counted (counted : h.Counted) (begun : h.pc.begun = some (if retry then 1 else 0)) :
    (bindContext retry c h).Counted := by
  have same := counted.exact _ begun
  refine ⟨?_,counted.most⟩
  cases retry <;> simpa [bindContext,Handler.goto,Pc.begun,Attempt.number] using same

theorem move_counted (counted : h.Counted) (moved : Move scope p i h terminating pools h') : h'.Counted := by
  cases moved with
  | create at_ => exact bindContext_counted ⟨counted.exact,counted.most⟩ (by rw [at_]; rfl)
  | reuse at_ => exact bindContext_counted counted (by rw [at_]; rfl)
  | walk at_ running inside plain attempts started =>
    have := counted_of_attempt counted at_
    have most := counted.started at_
    refine ⟨fun n begun => ?_,by simp only; omega⟩
    simp only [Pc.plain_begun plain inside,Option.some.injEq] at begun
    simp only
    omega
  | fail at_ running unlocked keeping attempts started =>
    have := counted_of_attempt counted at_
    have most := counted.started at_
    refine ⟨fun n begun => ?_,by simp only; omega⟩
    simp only [Pc.begun,Option.some.injEq] at begun
    simp only
    omega
  | giveBack at_ running begun =>
    have := counted_of_attempt counted at_
    refine ⟨fun n begun => ?_,counted.most⟩
    simp only [Handler.goto,Pc.begun,Option.some.injEq] at begun
    simp only [Handler.goto]
    omega
  | observe at_ =>
    refine ⟨fun n begun => counted.exact n ?_,counted.most⟩
    rcases at_ with ⟨retry,at_,rfl⟩ | ⟨a,at_,rfl⟩ <;> simpa [at_,Handler.goto,Pc.begun,Back.begun] using begun
  | retry at_ first =>
    refine ⟨fun n begun => counted.exact n ?_,counted.most⟩
    simpa [at_,Handler.goto,Pc.begun,Attempt.number,first] using begun
  | read at_ =>
    refine ⟨fun n begun => counted.exact n ?_,counted.most⟩
    simpa [at_,Handler.goto,Pc.begun,Attempt.number] using begun
  | _ =>
    refine ⟨fun n begun => counted.exact n ?_,counted.most⟩
    simp_all [Handler.goto,Pc.begun,Back.begun]

theorem counted (run : (machine scope).Reachable s) :
    ∀ (i : Nat) (h : Handler), s.handlers[i]? = some h → h.Counted := by
  refine Machine.Reachable.invariant (P := fun s => ∀ (i : Nat) (h : Handler), s.handlers[i]? = some h → h.Counted)
    (by simp [machine,initial]) (fun s action t _ before taken => ?_) run
  refine each_step (P := fun _ _ h => h.Counted) taken (fun _ _ => ⟨by simp [Pc.begun],by simp⟩) ?_
    (fun _ _ _ _ same => same) before
  intro i h pools h' at_ turn _ _ counted
  cases turn with
  | move asks moved => exact move_counted counted moved
  | grant => exact ⟨fun n begun => counted.exact n (begun_granted h.pc ▸ begun),counted.most⟩
  | drop => exact ⟨by simp [Pc.begun],counted.most⟩

def Pc.unsettled : Pc → Bool
  | .ended a false result => a.generation.isSome && isFailure result
  | _ => false

def Pc.bumps : Pc → Bool
  | .bump _ => true
  | _ => false

/-- The generation is not bumped while a bound context waits for it to be read. -/
def readsInTime (s : State) : Action → Bool
  | .run i _ =>
    match s.handlers[i]? with
    | some h => !h.pc.bumps || s.handlers.all (fun other => other.pc.unread.isNone)
    | none => true
  | _ => true

/-- The generation is not bumped between the end of an attempt that failed on the current
pool and its comparison, and bumped before an attempt that failed on a replaced pool
compares. -/
def comparesInTime (s : State) : Action → Bool
  | .run i _ =>
    match s.handlers[i]? with
    | some h =>
      match h.pc with
      | .bump _ => s.handlers.all (fun other => !other.pc.unsettled)
      | .ended a true result =>
        a.generation.isNone || !isFailure result || s.handlers.all (fun other => !other.pc.bumps)
      | _ => true
    | none => true
  | _ => true

def timely (s : State) (action : Action) : Bool := readsInTime s action && comparesInTime s action

/-- What comparing generations tells of a handler's context. -/
structure Timely (s : State) (h : Handler) : Prop where
  unread : ∀ c, h.pc.unread = some c → s.pools.replaced c = true → Bumping s
  moved : ∀ a generation, h.pc.attempt = some a → a.generation = some generation →
    s.pools.replaced a.context = true → generation ≠ s.pools.generation ∨ Bumping s

/-- The flag of an ended attempt, and what comparing generations would tell it. -/
def Flagged (p : Pools) (h : Handler) : Prop :=
  ∀ a replaced result, h.pc = .ended a replaced result →
    (replaced = true → p.replaced a.context = true) ∧
    (replaced = false → isFailure result = true → ∀ generation, a.generation = some generation →
      generation = p.generation)

theorem Pc.plain_unread {pc : Pc} (plain : pc.plain = true) : pc.unread = none := by
  cases pc <;> simp_all [Pc.plain,Pc.unread]

theorem unread_granted (pc : Pc) : pc.granted.unread = pc.unread := by cases pc <;> rfl

theorem move_unread (moved : Move scope p i h terminating pools h') (unread : h'.pc.unread = some c) :
    h.pc.unread = some c ∨ c ∈ pools.contexts := by
  cases moved with
  | find at_ session inside =>
    obtain rfl := by simpa [Handler.goto,Pc.unread] using unread
    exact Or.inr inside
  | keep at_ => exact Or.inl (by rw [at_]; exact unread)
  | @create retry =>
    cases retry
    · obtain rfl := by simpa [bindContext,Handler.goto,Pc.unread] using unread
      exact Or.inr (by simp [Pools.create])
    · simp [bindContext,Handler.goto,Pc.unread] at unread
  | @reuse retry _ _ at_ mode inside =>
    cases retry
    · obtain rfl := by simpa [bindContext,Handler.goto,Pc.unread] using unread
      exact Or.inr inside
    · simp [bindContext,Handler.goto,Pc.unread] at unread
  | walk at_ running inside plain => simp [Pc.plain_unread plain] at unread
  | _ => simp [Handler.goto,Pc.unread] at unread

/-- An attempt ends with the flag of the pools it ends in. -/
theorem move_ended (moved : Move scope p i h terminating pools h') (ends : h'.pc = .ended a replaced result) :
    h.pc.attempt = some a ∧ replaced = pools.replaced a.context := by
  cases moved with
  | bumpAttempt at_ =>
    obtain ⟨rfl,rfl,rfl⟩ := by simpa [Handler.goto] using ends
    exact ⟨by rw [at_]; rfl,rfl⟩
  | fail at_ =>
    obtain ⟨rfl,rfl,rfl⟩ := by simpa using ends
    exact ⟨at_,rfl⟩
  | reject at_ =>
    obtain ⟨rfl,rfl,rfl⟩ := by simpa [Handler.goto] using ends
    exact ⟨by rw [at_]; rfl,rfl⟩
  | lose at_ =>
    obtain ⟨rfl,rfl,rfl⟩ := by simpa [Handler.goto] using ends
    exact ⟨by rw [at_]; rfl,rfl⟩
  | discard at_ =>
    obtain ⟨rfl,rfl,rfl⟩ := by simpa [Handler.goto] using ends
    exact ⟨by rw [at_]; rfl,rfl⟩
  | @create retry => cases retry <;> simp [bindContext,Handler.goto] at ends
  | @reuse retry => cases retry <;> simp [bindContext,Handler.goto] at ends
  | walk at_ running inside plain =>
    simp only at ends
    simp [ends,Pc.plain] at plain
  | _ => simp [Handler.goto] at ends

theorem bump_step (at_ : s.handlers[i]? = some h) (here : h.pc = .bump back)
    (taken : step scope s (.run i choice) = some t) :
    t.pools = s.pools.bump ∧ ∃ h', t.handlers = s.handlers.set i h' ∧ h'.pc.unread = none ∧
      ∀ a, h'.pc.attempt = some a → h.pc.attempt = some a := by
  cases back with
  | acquire retry =>
    simp only [step,at_,here,Pc.asks,next,acquireNext] at taken
    obtain rfl := Option.some.inj taken
    exact ⟨rfl,_,rfl,rfl,by simp [Handler.goto,Pc.attempt]⟩
  | attempt a =>
    simp only [step,at_,here,Pc.asks,next,acquireNext,endWith] at taken
    obtain rfl := Option.some.inj taken
    exact ⟨rfl,_,rfl,rfl,fun _ same => by rw [here]; exact same⟩

/-- Whoever is to bump the generation stays there until it does. -/
theorem bump_stays (found : s.handlers[j]? = some h) (here : h.pc = .bump back)
    (taken : step scope s action = some t) : t.handlers[j]? = some h ∨ ∃ choice, action = .run j choice := by
  cases step_steps taken with
  | arrive req => exact Or.inl (by rw [List.getElem?_append_left (List.getElem?_eq_some_iff.mp found).1]; exact found)
  | @grant k access choice i at_ =>
    by_cases same : i = j
    · exact Or.inr ⟨choice,by rw [same]⟩
    · exact Or.inl (by rw [List.getElem?_set_ne same]; exact found)
  | @move k pools h' choice i at_ =>
    by_cases same : i = j
    · exact Or.inr ⟨choice,by rw [same]⟩
    · exact Or.inl (by rw [List.getElem?_set_ne same]; exact found)
  | @drop k i at_ suspends =>
    apply Or.inl
    rw [List.getElem?_set_ne]
    · exact found
    · rintro rfl
      obtain rfl := Option.some.inj (at_.symm.trans found)
      simp [here,Pc.suspends] at suspends
  | _ => exact Or.inl found

/-- Either a bump is pending, or it was just made, or nothing about pools has changed. -/
theorem step_bumping (taken : step scope s action = some t) :
    Bumping t ∨
    (∃ (i : Nat) (choice : Choice) (h : Handler) (back : Back), action = .run i choice ∧
      s.handlers[i]? = some h ∧ h.pc = .bump back) ∨
    (¬Bumping s ∧ t.pools.number = s.pools.number ∧ t.pools.generation = s.pools.generation) := by
  by_cases bumping : Bumping s
  · obtain ⟨j,h,back,found,here⟩ := bumping
    rcases bump_stays found here taken with stays | ⟨choice,runs⟩
    · exact Or.inl ⟨j,h,back,stays,here⟩
    · exact Or.inr (Or.inl ⟨j,choice,h,back,runs,found,here⟩)
  · rcases step_generation taken with same | bumps
    · rcases step_number taken with ⟨number,_⟩ | ⟨i,_,h,_,back,_,at_,_,_,handlers⟩
      · exact Or.inr (Or.inr ⟨bumping,number,same⟩)
      · refine Or.inl ⟨i,h.goto (.bump back),back,?_,rfl⟩
        rw [handlers,List.getElem?_set_self (List.getElem?_eq_some_iff.mp at_).1]
    · exact Or.inr (Or.inl bumps)

theorem read_before_bump (met : readsInTime s (.run i choice) = true) (at_ : s.handlers[i]? = some h)
    (here : h.pc = .bump back) (found : s.handlers[j]? = some h') : h'.pc.unread = none := by
  simp only [readsInTime,at_,here,Pc.bumps,Bool.not_true,Bool.false_or,List.all_eq_true] at met
  simpa using met h' (List.mem_of_getElem? found)

theorem settled_before_bump (met : comparesInTime s (.run i choice) = true) (at_ : s.handlers[i]? = some h)
    (here : h.pc = .bump back) (found : s.handlers[j]? = some h') : h'.pc.unsettled = false := by
  simp only [comparesInTime,at_,here,List.all_eq_true] at met
  simpa using met h' (List.mem_of_getElem? found)

theorem unread_step (base : Generations s) (before : ∀ (i : Nat) (h : Handler), s.handlers[i]? = some h → Timely s h)
    (met : readsInTime s action = true) (taken : step scope s action = some t) :
    ∀ (i : Nat) (h : Handler), t.handlers[i]? = some h → ∀ c, h.pc.unread = some c →
      t.pools.replaced c = true → Bumping t := by
  rcases step_bumping taken with bumping | ⟨i,choice,h,back,rfl,at_,here⟩ | ⟨quiet,number,_⟩
  · exact fun _ _ _ _ _ _ => bumping
  · obtain ⟨_,h',handlers,read,_⟩ := bump_step at_ here taken
    intro j k found c unread
    rw [handlers] at found
    rcases Tasks.getElem?_set_cases at_ found with ⟨_,rfl⟩ | ⟨_,old⟩
    · simp [read] at unread
    · simp [read_before_bump met at_ here old] at unread
  · have kept := each_step (P := fun p _ h => ∀ c, h.pc.unread = some c → p.replaced c = false) taken
      (by simp [Pc.unread]) ?_ ?_ ?_
    · intro j k found c unread gone
      simp [kept j k found c unread] at gone
    · rintro i h _ h' at_ turn rfl _ before c unread
      have known : h.pc.unread = some c → t.pools.replaced c = false := fun old => by
        rw [(step_later taken).replaced_same number ((base.known i h at_).context c (by simp [Pc.context,old]))]
        exact before c old
      generalize same : t.pools = pools at *
      cases turn with
      | move asks moved =>
        rcases move_unread moved unread with old | inside
        · exact known old
        · exact Bool.eq_false_iff.mpr fun gone => (move_valid base.pools moved).outside gone inside
      | grant => exact known ((unread_granted h.pc).symm.trans unread)
      | drop => simp [Pc.unread] at unread
    · intro j k found _ before c unread
      rw [(step_later taken).replaced_same number ((base.known j k found).context c (by simp [Pc.context,unread]))]
      exact before c unread
    · intro j k found c unread
      exact Bool.eq_false_iff.mpr fun gone => quiet ((before j k found).unread c unread gone)

theorem moved_step (base : Generations s) (before : ∀ (i : Nat) (h : Handler), s.handlers[i]? = some h → Timely s h)
    (taken : step scope s action = some t) :
    ∀ (i : Nat) (h : Handler), t.handlers[i]? = some h → ∀ a generation, h.pc.attempt = some a →
      a.generation = some generation → t.pools.replaced a.context = true →
      generation ≠ t.pools.generation ∨ Bumping t := by
  rcases step_bumping taken with bumping | ⟨i,choice,h,back,rfl,at_,here⟩ | ⟨quiet,number,same⟩
  · exact fun _ _ _ _ _ _ _ _ => Or.inr bumping
  · obtain ⟨bumped,h',handlers,_,attempts⟩ := bump_step at_ here taken
    intro j k found a generation attempt first _
    have older : generation ≤ s.pools.generation := by
      rw [handlers] at found
      rcases Tasks.getElem?_set_cases at_ found with ⟨_,rfl⟩ | ⟨_,old⟩
      · exact (base.current i h at_ a generation (attempts a attempt) first).1
      · exact (base.current j k old a generation attempt first).1
    rw [bumped]
    exact Or.inl (Nat.ne_of_lt (Nat.lt_succ_of_le older))
  · have kept := each_step (P := fun p _ h => ∀ a generation, h.pc.attempt = some a → a.generation = some generation →
      p.replaced a.context = true → generation ≠ p.generation) taken (by simp [Pc.attempt]) ?_ ?_ ?_
    · exact fun j k found a generation attempt first gone => Or.inl (kept j k found a generation attempt first gone)
    · rintro i h _ h' at_ turn rfl _ moved a generation attempt first gone
      have stays : h.pc.attempt = some a → generation ≠ t.pools.generation := fun old => by
        rw [(step_later taken).replaced_same number
          ((base.known i h at_).context _ (Pc.context_of_attempt old))] at gone
        rw [same]
        exact moved a generation old first gone
      generalize eq : t.pools = pools at *
      cases turn with
      | move asks moved =>
        rcases move_attempt moved attempt with old | second | ⟨here,read,rfl⟩
        · exact stays old
        · simp [second] at first
        · exact absurd ((before i h at_).unread a.context (by rw [here]; rfl) gone) quiet
      | grant => exact stays (attempt_granted h.pc ▸ attempt)
      | drop => simp [Pc.attempt] at attempt
    · intro j k found _ moved a generation attempt first gone
      rw [(step_later taken).replaced_same number
        ((base.known j k found).context _ (Pc.context_of_attempt attempt))] at gone
      rw [same]
      exact moved a generation attempt first gone
    · exact fun j k found a generation attempt first gone =>
        ((before j k found).moved a generation attempt first gone).resolve_right quiet

theorem timely_run (run : (machine scope).Reach ok s) (inTime : ∀ s action, ok s action → readsInTime s action = true) :
    ∀ (i : Nat) (h : Handler), s.handlers[i]? = some h → Timely s h := by
  refine Machine.Reach.invariant (P := fun s => ∀ (i : Nat) (h : Handler), s.handlers[i]? = some h → Timely s h)
    (by simp [machine,initial]) (fun s action t run before met taken i h at_ => ?_) run
  have base := generations run.reachable
  exact ⟨unread_step base before (inTime s action met) taken i h at_,moved_step base before taken i h at_⟩

theorem flagged_step (base : Generations s) (before : ∀ (i : Nat) (h : Handler), s.handlers[i]? = some h → Flagged s.pools h)
    (met : comparesInTime s action = true) (taken : step scope s action = some t) :
    ∀ (i : Nat) (h : Handler), t.handlers[i]? = some h → Flagged t.pools h := by
  refine each_step (P := fun p _ h => Flagged p h) taken (by simp [Flagged]) ?_ ?_ before
  · intro i h pools h' at_ turn _ _ flagged a replaced result ends
    cases turn with
    | move asks moved runs =>
      obtain ⟨attempt,rfl⟩ := move_ended moved ends
      refine ⟨id,fun current _ generation first => ?_⟩
      exact (base.still_current at_ (Pc.context_of_attempt attempt) (move_later moved)
        (turn_generation at_ (.move asks moved runs)) (base.current i h at_ a generation attempt first)).2 current
    | grant asks => cases here : h.pc <;> simp [here,Pc.asks,Handler.granted,Pc.granted] at asks ends
    | drop => simp at ends
  · intro j k found _ flagged a replaced result ends
    obtain ⟨gone,current⟩ := flagged a replaced result ends
    have known := (base.known j k found).context a.context (by rw [ends]; rfl)
    refine ⟨fun flag => (step_later taken).replaced base.pools known (gone flag),fun flag failed generation first => ?_⟩
    rcases step_generation taken with same | ⟨i,choice,h,back,rfl,at_,here⟩
    · rw [same]
      exact current flag failed generation first
    · have settled := settled_before_bump met at_ here found
      simp [ends,flag,Pc.unsettled,failed,first] at settled

theorem flagged_run (run : (machine scope).Reach (fun s action => timely s action = true) s) :
    ∀ (i : Nat) (h : Handler), s.handlers[i]? = some h → Flagged s.pools h := by
  refine Machine.Reach.invariant (P := fun s => ∀ (i : Nat) (h : Handler), s.handlers[i]? = some h → Flagged s.pools h)
    (by simp [machine,initial]) (fun s action t run before met taken => ?_) run
  exact flagged_step (generations run.reachable) before (Bool.and_eq_true_iff.mp met).2 taken

/-- Where the comparison of generations takes a handler. -/
theorem compare_step (at_ : s.handlers[i]? = some h) (here : h.pc = .ended a replaced result)
    (taken : step scope s (.run i choice) = some t) :
    (∃ h', t.handlers[i]? = some h' ∧ h'.pc = .acquiring true false) ↔
      ∃ generation, a.generation = some generation ∧ generation ≠ s.pools.generation ∧ isFailure result = true := by
  have inside := (List.getElem?_eq_some_iff.mp at_).1
  simp only [step,at_,here,Pc.asks,next,finishNext,finish] at taken
  cases first : a.generation with
  | none =>
    simp only [first] at taken
    obtain rfl := Option.some.inj taken
    simp [List.getElem?_set_self inside,Handler.goto]
  | some generation =>
    simp only [first] at taken
    by_cases again : s.pools.generation ≠ generation ∧ isFailure result = true
    · rw [if_pos again] at taken
      obtain rfl := Option.some.inj taken
      simp [List.getElem?_set_self inside,Handler.goto,again.2,Ne.symm again.1]
    · rw [if_neg again] at taken
      obtain rfl := Option.some.inj taken
      simp [List.getElem?_set_self inside,Handler.goto]
      grind

/-- In a run whose comparisons are timely, an attempt is retried exactly when it is the
first one, it failed, and its pool had been replaced when it ended; and nothing is ever
attempted more than twice. -/
theorem retried_iff (scope : ValidScope) (s : State)
    (run : (machine scope).Reach (fun s action => timely s action = true) s) :
    (∀ (i : Nat) (h : Handler), s.handlers[i]? = some h → h.attempts ≤ 2) ∧
    ∀ (i : Nat) (h : Handler) a replaced result choice t, s.handlers[i]? = some h → h.pc = .ended a replaced result →
      timely s (.run i choice) = true → step scope s (.run i choice) = some t →
      ((∃ h', t.handlers[i]? = some h' ∧ h'.pc = .acquiring true false) ↔
        h.attempts = 1 ∧ replaced = true ∧ isFailure result = true) := by
  have counts := counted run.reachable
  refine ⟨fun i h at_ => (counts i h at_).most,fun i h a replaced result choice t at_ here met taken => ?_⟩
  have timely := timely_run run (fun _ _ met => (Bool.and_eq_true_iff.mp met).1) i h at_
  have flagged := flagged_run run i h at_ a replaced result here
  have number : h.attempts = a.number := (counts i h at_).exact _ (by rw [here]; rfl)
  rw [compare_step at_ here taken,number]
  constructor
  · rintro ⟨generation,first,moved,failed⟩
    refine ⟨by simp [Attempt.number,first],?_,failed⟩
    exact Bool.eq_true_of_not_eq_false fun flag =>
      moved (flagged.2 flag failed generation first)
  · rintro ⟨once,rfl,failed⟩
    obtain ⟨generation,first⟩ : ∃ generation, a.generation = some generation := by
      refine Option.isSome_iff_exists.mp (Bool.eq_true_of_not_eq_false fun second => ?_)
      simp [Attempt.number,second] at once
    refine ⟨generation,first,?_,failed⟩
    have gone := flagged.1 rfl
    refine (timely.moved a generation (by rw [here]; rfl) first gone).resolve_right fun ⟨j,k,back,found,bumps⟩ => ?_
    have compares := (Bool.and_eq_true_iff.mp met).2
    simp only [comparesInTime,at_,here,first,failed,Option.isNone_some,Bool.not_true,Bool.or_self,Bool.false_or,
      List.all_eq_true,Bool.not_eq_true'] at compares
    simpa [bumps,Pc.bumps] using compares k (List.mem_of_getElem? found)

/-- Handler 0 binds a context and, before or after it reads the generation, handler 1
replaces the dead pool; the attempt of handler 0 then fails. -/
def outlived (read : Bool) : List Action :=
  creates 0 ++ List.replicate (if read then 1 else 0) (.run 0 .go) ++ acquires 1 ++ .die :: recreates 1 ++
    List.replicate 2 (.run 1 .go) ++ List.replicate (if read then 3 else 4) (.run 0 .go) ++ [.run 0 .fail]

theorem retried_iff_outlived :
    ∃ s t, (machine (ValidScope.small .dedicated)).exec (outlived true)
        (machine (ValidScope.small .dedicated)).initial = some s ∧
      step (ValidScope.small .dedicated) s (.run 0 .go) = some t ∧
      ∃ h', t.handlers[0]? = some h' ∧ h'.pc = .acquiring true false := by
  have ran : (machine (ValidScope.small .dedicated)).exec (outlived true)
    (machine (ValidScope.small .dedicated)).initial = some _ := rfl
  have meets : (machine (ValidScope.small .dedicated)).Meets (fun s action => timely s action = true)
    (outlived true) (machine (ValidScope.small .dedicated)).initial := by decide +kernel
  exact ⟨_,_,ran,rfl,((retried_iff _ _ (Machine.Reach.exec_meets .initial ran meets)).2 0 _ ⟨some 0,0⟩ true
    (.ok (.failure .browserError (some 0))) .go _ rfl rfl (by decide +kernel) rfl).mpr ⟨rfl,rfl,rfl⟩⟩

/-- The generation is read after the pool was replaced: the failed attempt is not retried. -/
theorem late_read_is_not_retried :
    ¬∀ (scope : ValidScope) (s t : State) (i : Nat) (h : Handler) a replaced result choice,
      (machine scope).Reachable s → s.handlers[i]? = some h → h.req.session scope = none →
      h.pc = .ended a replaced result → step scope s (.run i choice) = some t →
      ((∃ h', t.handlers[i]? = some h' ∧ h'.pc = .acquiring true false) ↔
        h.attempts = 1 ∧ replaced = true ∧ isFailure result = true) := by
  intro always
  have ran : (machine (ValidScope.small .dedicated)).exec (outlived false)
    (machine (ValidScope.small .dedicated)).initial = some _ := rfl
  obtain ⟨h',at_,retries⟩ := (always _ _ _ 0 _ ⟨some 1,0⟩ true (.ok (.failure .browserError (some 0))) .go
    (Machine.reachable_of_exec ran) rfl rfl rfl rfl).mpr ⟨rfl,rfl,rfl⟩
  obtain rfl := Option.some.inj at_
  simp [Handler.goto] at retries

end BrowserHive.Worker
