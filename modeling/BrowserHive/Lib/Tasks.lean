import Mathlib.Algebra.GroupWithZero.Nat
import Mathlib.Data.Finset.Card
import Mathlib.Data.List.Induction

/-! Resources counted over a list of concurrent tasks. Each task's program point
carries a weight; replacing one program point moves the total by the difference. -/
namespace Tasks

universe u
variable {τ : Type u} {w : τ → Nat} {tasks : List τ} {i j : Nat} {a b : τ}

def weigh (w : τ → Nat) (tasks : List τ) : Nat := (tasks.map w).sum

@[simp] theorem weigh_nil : weigh w [] = 0 := rfl

@[simp] theorem weigh_cons (a : τ) : weigh w (a :: tasks) = w a + weigh w tasks := rfl

@[simp] theorem weigh_append (left right : List τ) :
    weigh w (left ++ right) = weigh w left + weigh w right := by
  simp [weigh]

theorem weigh_set (h : tasks[i]? = some a) (b : τ) :
    weigh w (tasks.set i b) + w a = weigh w tasks + w b := by
  induction tasks generalizing i with
  | nil => simp at h
  | cons head rest ih =>
    cases i with
    | zero =>
      simp only [List.getElem?_cons_zero, Option.some.injEq] at h
      subst h
      simp only [List.set_cons_zero, weigh_cons]
      omega
    | succ i =>
      have later := ih (i := i) (by simpa using h)
      simp only [List.set_cons_succ, weigh_cons]
      omega

theorem weight_le (h : tasks[i]? = some a) : w a ≤ weigh w tasks := by
  induction tasks generalizing i with
  | nil => simp at h
  | cons head rest ih =>
    cases i with
    | zero =>
      simp only [List.getElem?_cons_zero, Option.some.injEq] at h
      subst h
      simp only [weigh_cons]
      omega
    | succ i =>
      have later := ih (i := i) (by simpa using h)
      simp only [weigh_cons]
      omega

/-- Two different tasks weigh at most the whole list. -/
theorem weight_pair_le (ha : tasks[i]? = some a) (hb : tasks[j]? = some b) (apart : i ≠ j) :
    w a + w b ≤ weigh w tasks := by
  induction tasks generalizing i j with
  | nil => simp at ha
  | cons head rest ih =>
    cases i with
    | zero =>
      cases j with
      | zero => exact absurd rfl apart
      | succ j =>
        simp only [List.getElem?_cons_zero, Option.some.injEq] at ha
        subst ha
        have later : w b ≤ weigh w rest := weight_le (i := j) (by simpa using hb)
        simp only [weigh_cons]
        omega
    | succ i =>
      cases j with
      | zero =>
        simp only [List.getElem?_cons_zero, Option.some.injEq] at hb
        subst hb
        have later : w a ≤ weigh w rest := weight_le (i := i) (by simpa using ha)
        simp only [weigh_cons]
        omega
      | succ j =>
        have later := ih (i := i) (j := j) (by simpa using ha) (by simpa using hb) (by omega)
        simp only [weigh_cons]
        omega

theorem exists_of_weigh_pos (h : 0 < weigh w tasks) :
    ∃ (i : Nat) (a : τ), tasks[i]? = some a ∧ 0 < w a := by
  induction tasks with
  | nil => simp at h
  | cons head rest ih =>
    by_cases here : 0 < w head
    · exact ⟨0, head, rfl, here⟩
    · simp only [weigh_cons] at h
      obtain ⟨i, a, at_, pos⟩ := ih (by omega)
      exact ⟨i + 1, a, at_, pos⟩

theorem weigh_eq_zero_iff : weigh w tasks = 0 ↔ ∀ (i : Nat) (a : τ), tasks[i]? = some a → w a = 0 := by
  constructor
  · intro zero i a at_
    have := weight_le (w := w) at_
    omega
  · intro each
    refine Nat.eq_zero_of_not_pos fun pos => ?_
    obtain ⟨i, a, at_, apos⟩ := exists_of_weigh_pos pos
    have := each i a at_
    omega

/-- Where the tasks of `tasks.set i b ++ spawned` come from. -/
theorem getElem?_set_append (h : tasks[i]? = some a) (b : τ) (spawned : List τ) {x : τ}
    (at_ : (tasks.set i b ++ spawned)[j]? = some x) :
    (j = i ∧ x = b) ∨ (j ≠ i ∧ tasks[j]? = some x) ∨ (tasks.length ≤ j ∧ x ∈ spawned) := by
  have bound : i < tasks.length := (List.getElem?_eq_some_iff.mp h).1
  rw [List.getElem?_append, List.length_set, List.getElem?_set] at at_
  split at at_
  · split at at_
    · simp_all
    · right; left; exact ⟨fun same => by simp_all, at_⟩
  · exact Or.inr (Or.inr ⟨by omega, List.mem_of_getElem? at_⟩)

/-- Where the tasks of `tasks.set i b` come from. -/
theorem getElem?_set_cases (h : tasks[i]? = some a) {x : τ} (at_ : (tasks.set i b)[j]? = some x) :
    (j = i ∧ x = b) ∨ (j ≠ i ∧ tasks[j]? = some x) := by
  rcases getElem?_set_append h b [] (by simpa using at_) with same | old | ⟨_, none_⟩
  · exact Or.inl same
  · exact Or.inr old
  · simp at none_

/-- Where the tasks of `tasks ++ [b]` come from. -/
theorem getElem?_append_cases {x : τ} (at_ : (tasks ++ [b])[j]? = some x) :
    tasks[j]? = some x ∨ (j = tasks.length ∧ x = b) := by
  grind

/-- The tasks that contribute to a total. -/
def holders (w : τ → Nat) (tasks : List τ) : Finset Nat :=
  (Finset.range tasks.length).filter fun i => 0 < (tasks[i]?.map w).getD 0

theorem mem_holders : i ∈ holders w tasks ↔ ∃ a, tasks[i]? = some a ∧ 0 < w a := by
  rw [holders, Finset.mem_filter, Finset.mem_range]
  constructor
  · intro ⟨bound, pos⟩
    rw [List.getElem?_eq_getElem bound] at pos ⊢
    exact ⟨_, rfl, pos⟩
  · intro ⟨a, at_, pos⟩
    exact ⟨(List.getElem?_eq_some_iff.mp at_).1, by simpa [at_] using pos⟩

theorem holders_append (tasks : List τ) (a : τ) :
    holders w (tasks ++ [a]) = if 0 < w a then insert tasks.length (holders w tasks) else holders w tasks := by
  ext i
  rw [mem_holders]
  constructor
  · intro ⟨x, at_, pos⟩
    rcases getElem?_append_cases at_ with old | ⟨rfl, rfl⟩
    · have before : i ∈ holders w tasks := mem_holders.mpr ⟨x, old, pos⟩
      split
      · exact Finset.mem_insert_of_mem before
      · exact before
    · rw [if_pos pos]
      exact Finset.mem_insert_self _ _
  · intro listed
    have old : i ∈ holders w tasks → ∃ x, (tasks ++ [a])[i]? = some x ∧ 0 < w x := by
      intro before
      obtain ⟨x, at_, pos⟩ := mem_holders.mp before
      exact ⟨x, List.getElem?_append_left (List.getElem?_eq_some_iff.mp at_).1 ▸ at_, pos⟩
    split at listed
    · next pos =>
      rcases Finset.mem_insert.mp listed with rfl | before
      · exact ⟨a, by simp, pos⟩
      · exact old before
    · exact old listed

/-- Where each task contributes at most one, the total counts the tasks. -/
theorem card_holders (unit : ∀ a, w a ≤ 1) (tasks : List τ) : (holders w tasks).card = weigh w tasks := by
  induction tasks using List.reverseRecOn with
  | nil => rfl
  | append_singleton tasks a ih =>
    have fresh : tasks.length ∉ holders w tasks := by
      intro listed
      obtain ⟨x, at_, _⟩ := mem_holders.mp listed
      exact absurd (List.getElem?_eq_some_iff.mp at_).1 (Nat.lt_irrefl _)
    have small := unit a
    rw [holders_append, weigh_append, weigh_cons, weigh_nil]
    split
    · rw [Finset.card_insert_of_notMem fresh]
      omega
    · omega

theorem holders_set_zero (h : tasks[i]? = some a) (zero : w b = 0) :
    holders w (tasks.set i b) = (holders w tasks).erase i := by
  ext j
  rw [Finset.mem_erase, mem_holders, mem_holders]
  constructor
  · intro ⟨x, at_, pos⟩
    rcases getElem?_set_cases h at_ with ⟨_, rfl⟩ | ⟨apart, old⟩
    · omega
    · exact ⟨apart, x, old, pos⟩
  · intro ⟨apart, x, at_, pos⟩
    exact ⟨x, by rwa [List.getElem?_set_ne (Ne.symm apart)], pos⟩

theorem holders_set_same (h : tasks[i]? = some a) (same : 0 < w b ↔ 0 < w a) :
    holders w (tasks.set i b) = holders w tasks := by
  ext j
  rw [mem_holders, mem_holders]
  constructor
  · intro ⟨x, at_, pos⟩
    rcases getElem?_set_cases h at_ with ⟨rfl, rfl⟩ | ⟨_, old⟩
    · exact ⟨a, h, same.mp pos⟩
    · exact ⟨x, old, pos⟩
  · intro ⟨x, at_, pos⟩
    by_cases own : j = i
    · subst own
      obtain rfl := Option.some.inj (h.symm.trans at_)
      exact ⟨b, List.getElem?_set_self (List.getElem?_eq_some_iff.mp h).1, same.mpr pos⟩
    · exact ⟨x, by rwa [List.getElem?_set_ne (Ne.symm own)], pos⟩

end Tasks
