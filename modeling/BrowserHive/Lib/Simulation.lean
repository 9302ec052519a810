import BrowserHive.Lib.Transition

/-! A machine that another one describes. Each step of the lower machine performs some actions
of the upper one, or none; a relation between their states says what the upper one knows. -/
namespace Transition

universe u v w x

namespace Machine

variable {σ : Type u} {α : Type v} {τ : Type w} {β : Type x} {lower : Machine σ α} {upper : Machine τ β}

theorem exec_one {s t : σ} {a : α} (taken : lower.step s a = some t) : lower.exec [a] s = some t :=
  Option.bind_eq_some_iff.mpr ⟨t,taken,rfl⟩

theorem exec_keeps {P : σ → Prop} {s t : σ} (keeps : ∀ a ∈ actions, ∀ s t, P s → lower.step s a = some t → P t)
    (holds : P s) (ran : lower.exec actions s = some t) : P t := by
  induction actions generalizing s with
  | nil => exact Option.some.inj ran ▸ holds
  | cons a rest ih =>
    obtain ⟨mid,taken,later⟩ := Option.bind_eq_some_iff.mp ran
    have here := keeps a List.mem_cons_self s mid holds taken
    exact ih (fun b listed => keeps b (List.mem_cons_of_mem a listed)) here later

def trace (m : Machine σ α) (performs : σ → α → σ → List β) : List α → σ → List β
  | [], _ => []
  | a :: rest, s =>
    match m.step s a with
    | some t => performs s a t ++ m.trace performs rest t
    | none => []

theorem trace_cons {s t : σ} {a : α} (performs : σ → α → σ → List β) (rest : List α)
    (taken : lower.step s a = some t) :
    lower.trace performs (a :: rest) s = performs s a t ++ lower.trace performs rest t := by
  simp [trace,taken]

/-- The step of a run that performs a given action, and what is performed before it and after it. -/
theorem trace_split {performs : σ → α → σ → List β} (single : ∀ s a t, (performs s a t).length ≤ 1) {s t : σ}
    (ran : lower.exec actions s = some t)
    (told : lower.trace performs actions s = before ++ b :: after) :
    ∃ actions₁ a actions₂ s₁ t₁, actions = actions₁ ++ a :: actions₂ ∧ lower.exec actions₁ s = some s₁ ∧
      lower.step s₁ a = some t₁ ∧ performs s₁ a t₁ = [b] ∧ lower.trace performs actions₁ s = before ∧
      lower.trace performs actions₂ t₁ = after := by
  induction actions generalizing s before with
  | nil => simp [Machine.trace] at told
  | cons a rest ih =>
    obtain ⟨mid,taken,later⟩ := Option.bind_eq_some_iff.mp ran
    rw [trace_cons performs rest taken] at told
    have one := single s a mid
    cases here : performs s a mid with
    | nil =>
      rw [here,List.nil_append] at told
      obtain ⟨actions₁,a',actions₂,s₁,t₁,rfl,before_,step_,performed,front,back⟩ := ih later told
      exact ⟨a :: actions₁,a',actions₂,s₁,t₁,rfl,Option.bind_eq_some_iff.mpr ⟨mid,taken,before_⟩,step_,performed,
        by rw [trace_cons performs _ taken,here,List.nil_append,front],back⟩
    | cons first more =>
      obtain rfl : more = [] := by simpa [here] using one
      rw [here] at told
      cases before with
      | nil =>
        obtain ⟨rfl,rest_⟩ := List.cons.inj told
        exact ⟨[],a,rest,s,mid,rfl,rfl,taken,here,rfl,rest_⟩
      | cons head front =>
        obtain ⟨rfl,rest_⟩ := List.cons.inj told
        obtain ⟨actions₁,a',actions₂,s₁,t₁,rfl,before_,step_,performed,front_,back⟩ := ih later rest_
        exact ⟨a :: actions₁,a',actions₂,s₁,t₁,rfl,Option.bind_eq_some_iff.mpr ⟨mid,taken,before_⟩,step_,performed,
          by rw [trace_cons performs _ taken,here,front_]; rfl,back⟩

/-- Forward simulation, from the states the lower machine reaches. -/
structure Simulation (lower : Machine σ α) (upper : Machine τ β) (performs : σ → α → σ → List β)
    (rel : σ → τ → Prop) : Prop where
  initial : rel lower.initial upper.initial
  step : ∀ s a t u, lower.Reachable s → rel s u → lower.step s a = some t →
    ∃ u', upper.exec (performs s a t) u = some u' ∧ rel t u'

namespace Simulation

variable {performs : σ → α → σ → List β} {rel : σ → τ → Prop}

theorem exec_from (sim : Simulation lower upper performs rel) {s t : σ} {u : τ} (before : lower.Reachable s)
    (related : rel s u) (ran : lower.exec actions s = some t) :
    ∃ u', upper.exec (lower.trace performs actions s) u = some u' ∧ rel t u' := by
  induction actions generalizing s u with
  | nil => exact ⟨u,rfl,Option.some.inj ran ▸ related⟩
  | cons a rest ih =>
    obtain ⟨mid,taken,later⟩ := Option.bind_eq_some_iff.mp ran
    obtain ⟨u₁,performed,related₁⟩ := sim.step s a mid u before related taken
    obtain ⟨u₂,rest,related₂⟩ := ih (before.step trivial taken) related₁ later
    refine ⟨u₂,?_,related₂⟩
    rw [trace_cons performs _ taken,exec_append,performed]
    exact rest

theorem exec (sim : Simulation lower upper performs rel) {t : σ} (ran : lower.exec actions lower.initial = some t) :
    ∃ u, upper.exec (lower.trace performs actions lower.initial) upper.initial = some u ∧ rel t u :=
  sim.exec_from .initial sim.initial ran

theorem reachable (sim : Simulation lower upper performs rel) {s : σ} (run : lower.Reachable s) :
    ∃ u, upper.Reachable u ∧ rel s u := by
  refine Reachable.invariant (P := fun s => ∃ u, upper.Reachable u ∧ rel s u) ⟨_,.initial,sim.initial⟩ ?_ run
  rintro s a t before ⟨u,reached,related⟩ taken
  obtain ⟨u',performed,related'⟩ := sim.step s a t u before related taken
  exact ⟨u',Reach.exec reached performed,related'⟩

end Simulation

end Machine
end Transition
