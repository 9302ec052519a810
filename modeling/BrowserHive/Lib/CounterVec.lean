import Mathlib.Algebra.GroupWithZero.Nat
import Mathlib.Data.List.AList

/-! A vector of counters, one for each combination of labels that was ever incremented. -/
universe u

abbrev CounterVec (κ : Type u) := AList (fun _ : κ => Nat)

namespace CounterVec

variable {κ : Type u} [DecidableEq κ]

def get (c : CounterVec κ) (k : κ) : Nat := (c.lookup k).getD 0

def inc (c : CounterVec κ) (k : κ) : CounterVec κ := c.insert k (get c k + 1)

def touch (c : CounterVec κ) (k : κ) : CounterVec κ := if k ∈ c then c else c.insert k 0

def total (c : CounterVec κ) : Nat := (c.entries.map Sigma.snd).sum

omit [DecidableEq κ] in
@[simp] theorem total_empty : total (∅ : CounterVec κ) = 0 := rfl

@[simp] theorem mem_inc (c : CounterVec κ) (k other : κ) : other ∈ inc c k ↔ other = k ∨ other ∈ c :=
  AList.mem_insert c

@[simp] theorem mem_touch (c : CounterVec κ) (k other : κ) : other ∈ touch c k ↔ other = k ∨ other ∈ c := by
  unfold touch
  split
  · next mem =>
    refine ⟨Or.inr,?_⟩
    rintro (rfl | old)
    · exact mem
    · exact old
  · exact AList.mem_insert c

@[simp] theorem get_empty (k : κ) : get (∅ : CounterVec κ) k = 0 := rfl

@[simp] theorem get_inc (c : CounterVec κ) (k other : κ) :
    get (inc c k) other = get c other + if other = k then 1 else 0 := by
  by_cases same : other = k
  · subst same
    simp [get,inc]
  · simp [get,inc,same]

@[simp] theorem get_touch (c : CounterVec κ) (k other : κ) : get (touch c k) other = get c other := by
  unfold touch
  split
  · rfl
  · next absent =>
    by_cases same : other = k
    · subst same
      simp [get,AList.lookup_eq_none.mpr absent]
    · simp [get,same]

/-- Taking a counter out takes its count out of the total. -/
theorem total_erase (c : CounterVec κ) (k : κ) : get c k + total (c.erase k) = total c := by
  by_cases mem : k ∈ c
  · obtain ⟨n,front,back,absent,whole,erased⟩ := List.exists_of_kerase (AList.mem_keys.mp mem)
    have found : c.lookup k = some n := by
      rw [AList.lookup,whole]
      exact List.mem_dlookup (whole ▸ c.nodupKeys) (by simp)
    have rest : (c.erase k).entries = front ++ back := erased
    rw [get,found,total,total,rest,whole]
    simp only [Option.getD_some,List.map_append,List.map_cons,List.sum_append,List.sum_cons]
    omega
  · have absent : c.lookup k = none := AList.lookup_eq_none.mpr mem
    have same : (c.erase k).entries = c.entries := List.kerase_of_notMem_keys (fun key => mem (AList.mem_keys.mpr key))
    simp [get,absent,total,same]

theorem total_inc (c : CounterVec κ) (k : κ) : total (inc c k) = total c + 1 := by
  have erased := total_erase c k
  have entries : (inc c k).entries = ⟨k,get c k + 1⟩ :: (c.erase k).entries := AList.entries_insert
  rw [total,entries,List.map_cons,List.sum_cons,← total]
  simp only
  omega

theorem get_touch_all (f : α → κ) (names : List α) (c : CounterVec κ) (k : κ) :
    get (names.foldl (fun c a => touch c (f a)) c) k = get c k := by
  induction names generalizing c with
  | nil => rfl
  | cons a rest ih => rw [List.foldl_cons,ih,get_touch]

theorem mem_touch_all (f : α → κ) (names : List α) (c : CounterVec κ) (k : κ) :
    k ∈ names.foldl (fun c a => touch c (f a)) c ↔ (∃ a ∈ names, k = f a) ∨ k ∈ c := by
  induction names generalizing c with
  | nil => simp
  | cons a rest ih =>
    rw [List.foldl_cons,ih,mem_touch]
    simp [or_assoc,or_left_comm]

theorem total_touch (c : CounterVec κ) (k : κ) : total (touch c k) = total c := by
  unfold touch
  split
  · rfl
  · next absent =>
    have erased := total_erase c k
    have none_ : get c k = 0 := by rw [get,AList.lookup_eq_none.mpr absent]; rfl
    have entries : (c.insert k 0).entries = ⟨k,0⟩ :: (c.erase k).entries := AList.entries_insert
    rw [total,entries,List.map_cons,List.sum_cons,← total]
    simp only
    omega

end CounterVec
