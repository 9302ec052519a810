import BrowserHive.Lib.Transition

/-! A machine run beside a record of it. The record follows each step from what the step
did and from what the environment adds to the action; where it cannot follow, the step is
not taken. Forgetting the record gives back a run of the machine. -/
namespace Transition.Machine

universe u v w x
variable {σ : Type u} {α : Type v} {ρ : Type w} {β : Type x}

def record (m : Machine σ α) (start : ρ) (action : β → α) (follow : σ → ρ → β → σ → Option ρ) :
    Machine (σ × ρ) β where
  initial := (m.initial,start)
  step s b := (m.step s.1 (action b)).bind fun t => (follow s.1 s.2 b t).map fun r => (t,r)

variable {m : Machine σ α} {start : ρ} {action : β → α} {follow : σ → ρ → β → σ → Option ρ}

theorem record_step (taken : (m.record start action follow).step s b = some t) :
    m.step s.1 (action b) = some t.1 ∧ follow s.1 s.2 b t.1 = some t.2 := by
  obtain ⟨t₁,stepped,followed⟩ := Option.bind_eq_some_iff.mp taken
  obtain ⟨r,kept,rfl⟩ := Option.map_eq_some_iff.mp followed
  exact ⟨stepped,kept⟩

/-- Forgetting the record. -/
theorem Reach.forget {ok : σ × ρ → β → Prop} (run : (m.record start action follow).Reach ok s) :
    m.Reachable s.1 := by
  induction run with
  | initial => exact .initial
  | step _ _ taken ih => exact ih.step trivial (record_step taken).1

end Transition.Machine
