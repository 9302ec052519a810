/-! Machines that take one labelled action at a time. A run may be restricted to
actions that meet a condition on the state they are taken in; the unrestricted
run is the special case of the condition that always holds. -/
namespace Transition

universe u v

structure Machine (σ : Type u) (α : Type v) where
  initial : σ
  step : σ → α → Option σ

variable {σ : Type u} {α : Type v}

namespace Machine

def exec (m : Machine σ α) : List α → σ → Option σ
  | [], s => some s
  | a :: rest, s => (m.step s a).bind (m.exec rest)

/-- States reached by runs all of whose steps meet `ok`. -/
inductive Reach (m : Machine σ α) (ok : σ → α → Prop) : σ → Prop where
  | initial : Reach m ok m.initial
  | step : Reach m ok s → ok s a → m.step s a = some t → Reach m ok t

def Reachable (m : Machine σ α) : σ → Prop := m.Reach (fun _ _ => True)

variable {m : Machine σ α} {ok weaker : σ → α → Prop}

theorem Reach.mono (implied : ∀ s a, ok s a → weaker s a) (run : m.Reach ok s) :
    m.Reach weaker s := by
  induction run with
  | initial => exact .initial
  | step _ met taken ih => exact .step ih (implied _ _ met) taken

theorem Reach.reachable (run : m.Reach ok s) : m.Reachable s := run.mono (fun _ _ _ => trivial)

/-- The invariant rule: an initial fact that every permitted step of a run preserves
holds in every state of the run. The step may use that its source is reached. -/
theorem Reach.invariant {P : σ → Prop} (initial : P m.initial)
    (preserves : ∀ s a t, m.Reach ok s → P s → ok s a → m.step s a = some t → P t)
    (run : m.Reach ok s) : P s := by
  induction run with
  | initial => exact initial
  | step before met taken ih => exact preserves _ _ _ before ih met taken

theorem Reachable.invariant {P : σ → Prop} (initial : P m.initial)
    (preserves : ∀ s a t, m.Reachable s → P s → m.step s a = some t → P t)
    (run : m.Reachable s) : P s :=
  Reach.invariant initial (fun s a t before holds _ taken => preserves s a t before holds taken) run

theorem exec_append (m : Machine σ α) (first second : List α) (s : σ) :
    m.exec (first ++ second) s = (m.exec first s).bind (m.exec second) := by
  induction first generalizing s with
  | nil => rfl
  | cons a rest ih =>
    simp only [List.cons_append, exec]
    cases m.step s a with
    | none => rfl
    | some t => exact ih t

theorem Reach.exec (before : m.Reach (fun _ _ => True) s) (ran : m.exec actions s = some t) :
    m.Reachable t := by
  induction actions generalizing s with
  | nil => exact Option.some.inj ran ▸ before
  | cons a rest ih =>
    obtain ⟨mid, taken, later⟩ := Option.bind_eq_some_iff.mp ran
    exact ih (before.step trivial taken) later

/-- A replayed list of actions witnesses reachability. -/
theorem reachable_of_exec (ran : m.exec actions m.initial = some t) : m.Reachable t :=
  Reach.exec .initial ran

theorem exec_mono {f : σ → Nat} (mono : ∀ s a t, m.step s a = some t → f s ≤ f t)
    (ran : m.exec actions s = some t) : f s ≤ f t := by
  induction actions generalizing s with
  | nil => exact Nat.le_of_eq (congrArg f (Option.some.inj ran))
  | cons a rest ih =>
    obtain ⟨mid, taken, later⟩ := Option.bind_eq_some_iff.mp ran
    exact Nat.le_trans (mono _ _ _ taken) (ih later)

/-- `P` holds in the state a run starts from and in every state it passes. -/
def Along (m : Machine σ α) (P : σ → Prop) : List α → σ → Prop
  | [], s => P s
  | a :: rest, s => P s ∧ ∀ t, m.step s a = some t → m.Along P rest t

def Meets (m : Machine σ α) (ok : σ → α → Prop) : List α → σ → Prop
  | [], _ => True
  | a :: rest, s => ∀ t, m.step s a = some t → ok s a ∧ m.Meets ok rest t

theorem Reach.exec_meets (before : m.Reach ok s) (ran : m.exec actions s = some t)
    (meets : m.Meets ok actions s) : m.Reach ok t := by
  induction actions generalizing s with
  | nil => exact Option.some.inj ran ▸ before
  | cons a rest ih =>
    obtain ⟨mid, taken, later⟩ := Option.bind_eq_some_iff.mp ran
    obtain ⟨met, meets⟩ := meets mid taken
    exact ih (before.step met taken) later meets

instance decidableMeets [∀ s a, Decidable (ok s a)] : ∀ actions s, Decidable (m.Meets ok actions s)
  | [], _ => .isTrue trivial
  | a :: rest, s =>
    match h : m.step s a with
    | none => .isTrue (by simp [Meets, h])
    | some t =>
      have := decidableMeets rest t
      decidable_of_iff (ok s a ∧ m.Meets ok rest t) (by simp [Meets, h])

/-- A run keeps `P` exactly when all its steps meet `ok`, provided steps that meet it
keep a strengthening `J` of `P` and a step that does not breaks `P` at once. `I`
collects the facts that hold whether or not the condition is met. -/
theorem along_iff_meets {I J P : σ → Prop}
    (invariant : ∀ s a t, I s → m.step s a = some t → I t)
    (implies : ∀ s, I s → J s → P s)
    (keeps : ∀ s a t, I s → J s → ok s a → m.step s a = some t → J t)
    (breaks : ∀ s a t, I s → ¬ok s a → m.step s a = some t → ¬P t)
    (actions : List α) (s : σ) (holds : I s) (strong : J s) :
    m.Along P actions s ↔ m.Meets ok actions s := by
  induction actions generalizing s with
  | nil => exact ⟨fun _ => trivial, fun _ => implies s holds strong⟩
  | cons a rest ih =>
    constructor
    · intro along t taken
      have later := along.2 t taken
      have met : ok s a := by
        refine Classical.byContradiction fun unmet => breaks s a t holds unmet taken ?_
        cases rest with
        | nil => exact later
        | cons b more => exact later.1
      exact ⟨met, (ih t (invariant s a t holds taken) (keeps s a t holds strong met taken)).mp later⟩
    · intro meets
      refine ⟨implies s holds strong, fun t taken => ?_⟩
      obtain ⟨met, later⟩ := meets t taken
      exact (ih t (invariant s a t holds taken) (keeps s a t holds strong met taken)).mpr later

/-- When every step keeps `P` exactly if it meets `ok`, what was broken stays broken: a
run ends in `P` exactly when it starts in it and all its steps meet `ok`. -/
theorem last_iff_meets {I P : σ → Prop}
    (invariant : ∀ s a t, I s → m.step s a = some t → I t)
    (each : ∀ s a t, I s → m.step s a = some t → (P t ↔ P s ∧ ok s a))
    (actions : List α) (s : σ) (holds : I s) (ran : m.exec actions s = some t) :
    P t ↔ P s ∧ m.Meets ok actions s := by
  induction actions generalizing s with
  | nil => simp [Meets,Option.some.inj ran]
  | cons a rest ih =>
    obtain ⟨mid,taken,later⟩ := Option.bind_eq_some_iff.mp ran
    rw [ih mid (invariant s a mid holds taken) later,each s a mid holds taken,and_assoc]
    simp [Meets,taken]

end Machine
end Transition
