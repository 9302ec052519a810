/-! Postconditions of programs that may fail: one of the value, one of the error. -/
namespace Outcome

universe u v w

variable {ε : Type u} {α : Type v} {β : Type v}

/-- The program ends in a good value or a bad error. -/
def Ends (x : Except ε α) (good : α → Prop) (bad : ε → Prop) : Prop :=
  match x with
  | .ok a => good a
  | .error e => bad e

variable {x : Except ε α} {f : α → Except ε β} {good : α → Prop} {good₂ : β → Prop} {bad : ε → Prop}

theorem Ends.value (ends : Ends x good bad) (ok : x = .ok a) : good a := by
  subst ok
  exact ends

theorem Ends.failure (ends : Ends x good bad) (failed : x = .error e) : bad e := by
  subst failed
  exact ends

theorem Ends.pure (holds : good a) : Ends (Pure.pure a : Except ε α) good bad := holds

/-- The second part may use what the first guarantees. -/
theorem Ends.bind (first : Ends x good bad) (second : ∀ a, good a → Ends (f a) good₂ bad) : Ends (x >>= f) good₂ bad := by
  cases x with
  | ok a => exact second a first
  | error e => exact first

theorem Ends.map {g : α → β} (first : Ends x good bad) (second : ∀ a, good a → good₂ (g a)) : Ends (g <$> x) good₂ bad := by
  cases x with
  | ok a => exact second a first
  | error e => exact first

theorem Ends.imp {better : α → Prop} (ends : Ends x good bad) (implies : ∀ a, good a → better a) : Ends x better bad := by
  cases x with
  | ok a => exact implies a ends
  | error e => exact ends

end Outcome
