import Mathlib.Algebra.GroupWithZero.Nat
import Mathlib.Data.List.Basic

/-! Fixed-window rate limiting: a window opens at the first request after the last one has
lasted its length, and admits so many requests. Two windows that are not neighbours are at
least one length apart, so no span of that length sees more than two of them. -/
namespace FixedWindow

structure Window where
  start : Nat
  used : Nat
  deriving DecidableEq, Repr

namespace Window

def take (length limit now later : Nat) (w : Window) : Bool × Window :=
  let w := if length ≤ now - w.start then ⟨later,0⟩ else w
  if limit ≤ w.used then (false,w) else (true,{ w with used := w.used + 1 })

end Window

/-- The windows, the latest first, are a length apart from all but their neighbours. -/
def Spaced (length : Nat) : List (List Nat) → Prop
  | w :: rest => (∀ v ∈ rest.tail, ∀ earlier ∈ v, ∀ t ∈ w, earlier + length ≤ t) ∧ Spaced length rest
  | [] => True

def within (start length t : Nat) : Bool := start ≤ t ∧ t < start + length

theorem countP_eq_zero_of_apart {length start t : Nat} {windows : List (List Nat)}
    (apart : ∀ v ∈ windows, ∀ earlier ∈ v, earlier + length ≤ t)
    (inside : within start length t = true) : windows.flatten.countP (within start length) = 0 := by
  apply List.countP_eq_zero.mpr
  intro earlier member
  obtain ⟨v,listed,member⟩ := List.mem_flatten.mp member
  have before := apart v listed earlier member
  simp only [within,decide_eq_true_eq] at inside ⊢
  omega

/-- A span of one length sees at most two windows. -/
theorem countP_le_two_windows {length limit : Nat} {windows : List (List Nat)} (spaced : Spaced length windows)
    (few : ∀ v ∈ windows, v.length ≤ limit) (start : Nat) :
    windows.flatten.countP (within start length) ≤ 2 * limit := by
  induction windows with
  | nil => simp
  | cons w rest ih =>
    rw [List.flatten_cons,List.countP_append]
    by_cases seen : ∃ t ∈ w, within start length t = true
    · obtain ⟨t,member,inside⟩ := seen
      have own := Nat.le_trans (List.countP_le_length (p := within start length) (l := w)) (few w List.mem_cons_self)
      cases rest with
      | nil =>
        simp only [List.flatten_nil,List.countP_nil]
        omega
      | cons v older =>
        have next := Nat.le_trans (List.countP_le_length (p := within start length) (l := v))
          (few v (List.mem_cons_of_mem _ List.mem_cons_self))
        have none_ := countP_eq_zero_of_apart (fun v listed earlier old => spaced.1 v listed earlier old t member) inside
        rw [List.flatten_cons,List.countP_append]
        simp only [List.tail_cons] at none_
        omega
    · have none_ : w.countP (within start length) = 0 :=
        List.countP_eq_zero.mpr fun t member inside => seen ⟨t,member,inside⟩
      have later := ih spaced.2 fun v listed => few v (List.mem_cons_of_mem _ listed)
      omega

structure Paced (length limit now : Nat) (w : Window) (current : List Nat) (older : List (List Nat)) : Prop where
  used : current.length = w.used
  few : ∀ v ∈ current :: older, v.length ≤ limit
  clock : w.start ≤ now
  past : ∀ t ∈ current, t ≤ now
  before : ∀ v ∈ older, ∀ t ∈ v, t ≤ w.start
  room : ∀ v ∈ older.tail, ∀ t ∈ v, t + length ≤ w.start
  spaced : Spaced length (current :: older)

namespace Paced

variable {length limit now later : Nat} {w : Window} {current : List Nat} {older : List (List Nat)}

theorem new (length limit now : Nat) : Paced length limit now ⟨now,0⟩ [] [] :=
  ⟨rfl,by simp,Nat.le_refl now,by simp,by simp,by simp,by simp [Spaced]⟩

theorem wait (paced : Paced length limit now w current older) (later : now ≤ then_) :
    Paced length limit then_ w current older :=
  ⟨paced.used,paced.few,Nat.le_trans paced.clock later,fun t member => Nat.le_trans (paced.past t member) later,
    paced.before,paced.room,paced.spaced⟩

theorem reopen (paced : Paced length limit now w current older) (lasted : length ≤ now - w.start)
    (after : now ≤ later) : Paced length limit later ⟨later,0⟩ [] (current :: older) := by
  have clock := paced.clock
  refine ⟨rfl,by simpa using paced.few,Nat.le_refl later,by simp,?_,?_,by simp,paced.spaced⟩
  · intro v listed t member
    rcases List.mem_cons.mp listed with rfl | old
    · exact Nat.le_trans (paced.past t member) after
    · exact Nat.le_trans (paced.before v old t member) (Nat.le_trans clock after)
  · intro v listed t member
    have old := paced.before v listed t member
    change t + length ≤ later
    omega

theorem grant (paced : Paced length limit now w current older) (room : w.used < limit)
    (opened : ∀ v ∈ older.tail, ∀ earlier ∈ v, earlier + length ≤ t) (past : t ≤ now) :
    Paced length limit now { w with used := w.used + 1 } (t :: current) older := by
  refine ⟨congrArg (· + 1) paced.used,?_,paced.clock,?_,paced.before,paced.room,?_,paced.spaced.2⟩
  · intro v listed
    rcases List.mem_cons.mp listed with rfl | old
    · rw [List.length_cons,paced.used]
      exact room
    · exact paced.few v (List.mem_cons_of_mem _ old)
  · intro s member
    rcases List.mem_cons.mp member with rfl | old
    · exact past
    · exact paced.past s old
  · intro v listed earlier member s inside
    rcases List.mem_cons.mp inside with rfl | old
    · exact opened v listed earlier member
    · exact paced.spaced.1 v listed earlier member s old

/-- A request keeps what was admitted paced; it is admitted at the time it came. -/
theorem take (paced : Paced length limit now w current older) (after : now ≤ later) :
    ∃ current' older', Paced length limit later (w.take length limit now later).2 current' older' ∧
      (current' :: older').flatten =
        if (w.take length limit now later).1 then now :: (current :: older).flatten else (current :: older).flatten := by
  unfold Window.take
  by_cases lasted : length ≤ now - w.start
  · simp only [if_pos lasted]
    have opened := paced.reopen lasted after
    by_cases full : limit = 0
    · exact ⟨[],current :: older,by simpa [full] using opened,by simp [full]⟩
    · have some_ : ¬limit ≤ 0 := by omega
      simp only [if_neg some_]
      have clock := paced.clock
      refine ⟨[now],current :: older,opened.grant (show 0 < limit by omega) ?_ after,by simp⟩
      intro v listed earlier member
      have old := paced.before v listed earlier member
      omega
  · simp only [if_neg lasted]
    have waited := paced.wait after
    by_cases full : limit ≤ w.used
    · exact ⟨current,older,by simpa [full] using waited,by simp [full]⟩
    · simp only [if_neg full]
      refine ⟨now :: current,older,waited.grant (by omega) ?_ after,by simp⟩
      intro v listed earlier member
      exact Nat.le_trans (paced.room v listed earlier member) paced.clock

end Paced

end FixedWindow
