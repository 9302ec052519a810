/-! Code that polls: steps that may each answer, tried in order, in a loop that goes round
until one does. A triple says what an answer means and what holds after a step that gave
none; a variant bounds the rounds of a loop. -/
namespace Polling

universe u v w

/-- A step answers or does not; what it did to the state stays either way. -/
abbrev Step (σ : Type u) (α : Type v) := σ → Option α × σ

/-- The first answer stands. -/
def inOrder {σ : Type u} {α : Type v} : List (Step σ α) → Step σ α
  | [], s => (none,s)
  | step :: rest, s =>
    match step s with
    | (some a,s) => (some a,s)
    | (none,s) => inOrder rest s

/-- The rounds of a loop; `none` when the fuel is spent before an answer. -/
def poll {σ : Type u} {α : Type v} (body : Step σ α) : Nat → σ → Option (α × σ)
  | 0, _ => none
  | fuel + 1, s =>
    match body s with
    | (some a,s) => some (a,s)
    | (none,s) => poll body fuel s

/-- A step whose answers are turned into another type. -/
def Step.answer {σ : Type u} {α : Type v} {β : Type w} (f : α → β) (step : Step σ α) : Step σ β :=
  fun s => ((step s).1.map f,(step s).2)

/-- A step that leaves a local variable alone. -/
def Step.beside {σ : Type u} {α : Type v} (τ : Type w) (step : Step σ α) : Step (σ × τ) α :=
  fun s => ((step s.1).1,(step s.1).2,s.2)

/-- From a state with `before` the step answers as `answers` says, or ends in `after`. -/
def Meets {σ : Type u} {α : Type v} (before : σ → Prop) (step : Step σ α) (answers : α → σ → Prop)
    (after : σ → Prop) : Prop :=
  ∀ s, before s → (∀ a, (step s).1 = some a → answers a (step s).2) ∧ ((step s).1 = none → after (step s).2)

variable {σ : Type u} {α : Type v} {β : Type w} {step body : Step σ α} {rest : List (Step σ α)}
  {before before' after after' inv : σ → Prop} {answers answers' : α → σ → Prop}

theorem Meets.outcome (met : Meets before step answers after) (holds : before s) :
    (∃ a t, step s = (some a,t) ∧ answers a t) ∨ ∃ t, step s = (none,t) ∧ after t := by
  obtain ⟨yes,no⟩ := met s holds
  match same : step s with
  | (some a,t) =>
    rw [same] at yes
    exact .inl ⟨a,t,rfl,yes a rfl⟩
  | (none,t) =>
    rw [same] at no
    exact .inr ⟨t,rfl,no rfl⟩

theorem Meets.weaken (met : Meets before step answers after) (stronger : ∀ s, before' s → before s)
    (answered : ∀ a s, answers a s → answers' a s) (weaker : ∀ s, after s → after' s) :
    Meets before' step answers' after' := by
  intro s holds
  obtain ⟨yes,no⟩ := met s (stronger s holds)
  constructor
  · intro a same
    exact answered a _ (yes a same)
  · intro same
    exact weaker _ (no same)

theorem meets_nil (kept : ∀ s, before s → after s) :
    Meets before (inOrder ([] : List (Step σ α))) answers after := by
  intro s holds
  constructor
  · intro a same
    contradiction
  · intro _
    exact kept s holds

theorem Meets.cons (between : σ → Prop) (head : Meets before step answers between)
    (tail : Meets between (inOrder rest) answers after) : Meets before (inOrder (step :: rest)) answers after := by
  intro s holds
  rcases head.outcome holds with ⟨a,t,same,answered⟩ | ⟨t,same,ended⟩
  · simp only [inOrder,same]
    constructor
    · rintro b ⟨⟩
      exact answered
    · intro unanswered
      contradiction
  · simp only [inOrder,same]
    exact tail t ended

theorem Meets.last (met : Meets before step answers after) : Meets before (inOrder [step]) answers after :=
  met.cons after (meets_nil fun _ => id)

theorem Meets.answer {f : α → β} {replies : β → σ → Prop}
    (met : Meets before step (fun a => replies (f a)) after) : Meets before (step.answer f) replies after := by
  intro s holds
  obtain ⟨yes,no⟩ := met s holds
  constructor
  · intro b same
    obtain ⟨a,answered,rfl⟩ := Option.map_eq_some_iff.mp same
    exact yes a answered
  · intro same
    exact no (Option.map_eq_none_iff.mp same)

theorem Meets.beside {τ : Type w} {holds : σ × τ → Prop} {replies : α → σ × τ → Prop} {ends : σ × τ → Prop}
    (met : ∀ x, Meets (fun s => holds (s,x)) step (fun a s => replies a (s,x)) (fun s => ends (s,x))) :
    Meets holds (step.beside τ) replies ends :=
  fun s start => met s.2 s.1 start

/-- An invariant of the rounds holds of the answer. -/
theorem poll_sound (round : Meets inv body answers inv) (start : inv s)
    (answered : poll body fuel s = some (a,t)) : answers a t := by
  induction fuel generalizing s with
  | zero => contradiction
  | succ fuel ih =>
    rcases round.outcome start with ⟨b,u,same,met⟩ | ⟨u,same,kept⟩
    · simp only [poll,same] at answered
      obtain ⟨rfl,rfl⟩ := Prod.mk.inj (Option.some.inj answered)
      exact met
    · simp only [poll,same] at answered
      exact ih kept answered

/-- Rounds that bring a variant down end with an answer. -/
theorem poll_answers (inv : σ → Prop) (variant : σ → Nat)
    (round : ∀ n, Meets (fun s => inv s ∧ variant s = n) body answers (fun s => inv s ∧ variant s < n))
    (start : inv s) (enough : variant s < fuel) : ∃ a t, poll body fuel s = some (a,t) ∧ answers a t := by
  induction fuel generalizing s with
  | zero => omega
  | succ fuel ih =>
    rcases (round _).outcome ⟨start,rfl⟩ with ⟨a,t,same,met⟩ | ⟨t,same,kept,less⟩
    · exact ⟨a,t,by simp only [poll,same],met⟩
    · obtain ⟨a,u,answered,met⟩ := ih kept (by omega)
      exact ⟨a,u,by simp only [poll,same,answered],met⟩

/-- The clock is the variant of a loop whose rounds take time and keep a deadline. -/
theorem poll_by (clock : σ → Nat) (round : ∀ t, start ≤ t → t ≤ deadline →
      Meets (fun s => clock s = t) body answers (fun s => t < clock s ∧ clock s ≤ deadline))
    (started : start ≤ clock s) (early : clock s ≤ deadline) (enough : deadline < clock s + fuel) :
    ∃ a t, poll body fuel s = some (a,t) ∧ answers a t := by
  apply poll_answers (fun s => start ≤ clock s ∧ clock s ≤ deadline) (fun s => deadline - clock s)
  · rintro n s ⟨⟨late,early⟩,rfl⟩
    obtain ⟨yes,no⟩ := round (clock s) late early s rfl
    constructor
    · exact yes
    · intro unanswered
      obtain ⟨later,kept⟩ := no unanswered
      exact ⟨⟨by omega,kept⟩,by omega⟩
  · exact ⟨started,early⟩
  · omega

/-- Rounds that take time end with an answer if none is gone through past the deadline. -/
theorem poll_before (clock : σ → Nat)
    (round : ∀ t, Meets (fun s => t ≤ clock s) body (fun _ s => t ≤ clock s) (fun s => t < clock s ∧ t < deadline))
    (enough : deadline - clock s < fuel) : ∃ a t, poll body fuel s = some (a,t) ∧ clock s ≤ clock t := by
  apply poll_answers (fun t => clock s ≤ clock t) (fun s => deadline - clock s)
  · rintro n u ⟨later,rfl⟩
    obtain ⟨yes,no⟩ := round (clock u) u (Nat.le_refl _)
    constructor
    · exact fun a answered => Nat.le_trans later (yes a answered)
    · intro unanswered
      obtain ⟨after,early⟩ := no unanswered
      exact ⟨Nat.le_trans later (Nat.le_of_lt after),by omega⟩
  · exact Nat.le_refl _
  · exact enough

/-- The first step does to what is viewed what the second does, and answers alike. -/
def Follows {τ : Type w} (view : τ → σ) (finer : Step τ α) (step : Step σ α) : Prop :=
  ∀ t, step (view t) = ((finer t).1,view (finer t).2)

section Follows

variable {τ : Type w} {view : τ → σ} {finer : Step τ α} {finest : List (Step τ α)}

theorem follows_nil : Follows view (inOrder ([] : List (Step τ α))) (inOrder []) :=
  fun _ => rfl

theorem Follows.cons (head : Follows view finer step) (tail : Follows view (inOrder finest) (inOrder rest)) :
    Follows view (inOrder (finer :: finest)) (inOrder (step :: rest)) := by
  intro t
  simp only [inOrder,head t]
  match finer t with
  | (some a,u) => rfl
  | (none,u) => exact tail u

theorem Follows.last (follows : Follows view finer step) : Follows view (inOrder [finer]) (inOrder [step]) :=
  follows.cons follows_nil

theorem Follows.answer {β : Type v} {f : α → β} (follows : Follows view finer step) :
    Follows view (finer.answer f) (step.answer f) := by
  intro t
  simp only [Step.answer,follows t]

theorem Follows.beside {ρ : Type w} (follows : Follows view finer step) :
    Follows (Prod.map view id) (finer.beside ρ) (step.beside ρ) := by
  intro t
  simp only [Step.beside,Prod.map,follows t.1,id]

theorem Follows.poll (follows : Follows view finer step) (fuel : Nat) (t : τ) :
    poll step fuel (view t) = (poll finer fuel t).map (Prod.map id view) := by
  induction fuel generalizing t with
  | zero => rfl
  | succ fuel ih =>
    simp only [Polling.poll,follows t]
    match finer t with
    | (some a,u) => rfl
    | (none,u) => exact ih u

end Follows

end Polling
