import Mathlib.Data.List.Dedup
import Mathlib.Data.List.Sort
import BrowserHive.Lib.CounterVec

/-! Counting by kind with room for so many kinds: the first kinds keep counts of their own,
and everything is counted in the total. -/
universe u

structure CappedTally (κ : Type u) where
  byKind : CounterVec κ
  total : Nat

namespace CappedTally

variable {κ : Type u}

def empty : CappedTally κ := ⟨∅,0⟩

variable [DecidableEq κ]

def record (cap : Nat) (t : CappedTally κ) (kind : κ) : CappedTally κ where
  byKind := if t.byKind.keys.length < cap ∨ kind ∈ t.byKind then t.byKind.inc kind else t.byKind
  total := t.total + 1

def ofKinds (cap : Nat) : List κ → CappedTally κ
  | [] => empty
  | kind :: older => (ofKinds cap older).record cap kind

/-- The kinds with counts of their own, in the order they first came. -/
def firstKinds (cap : Nat) (kinds : List κ) : List κ := kinds.dedup.reverse.take cap

variable {cap : Nat} {kind : κ} {kinds older : List κ}

@[simp] theorem total_ofKinds (cap : Nat) (kinds : List κ) : (ofKinds cap kinds).total = kinds.length := by
  induction kinds with
  | nil => rfl
  | cons kind older ih => simp [ofKinds,record,ih]

theorem nodup_firstKinds (cap : Nat) (kinds : List κ) : (firstKinds cap kinds).Nodup :=
  (List.nodup_reverse.mpr kinds.nodup_dedup).sublist (List.take_sublist cap _)

theorem firstKinds_again (again : kind ∈ older) : firstKinds cap (kind :: older) = firstKinds cap older := by
  rw [firstKinds,firstKinds,List.dedup_cons_of_mem again]

theorem firstKinds_new (new : kind ∉ older) :
    firstKinds cap (kind :: older) = (older.dedup.reverse ++ [kind]).take cap := by
  rw [firstKinds,List.dedup_cons_of_notMem new,List.reverse_cons]

theorem firstKinds_room (room : (firstKinds cap older).length < cap) : firstKinds cap older = older.dedup.reverse := by
  rw [firstKinds,List.length_take] at room
  exact List.take_of_length_le (by omega)

theorem firstKinds_full (full : cap ≤ (firstKinds cap older).length) :
    firstKinds cap (kind :: older) = firstKinds cap older := by
  by_cases again : kind ∈ older
  · exact firstKinds_again again
  · rw [firstKinds,List.length_take] at full
    rw [firstKinds_new again,firstKinds,List.take_append_of_le_length]
    omega

/-- Another kind is kept if it was, or if it is the first of its own and there is room. -/
theorem mem_firstKinds_cons : other ∈ firstKinds cap (kind :: older) ↔
    other ∈ firstKinds cap older ∨ other = kind ∧ (firstKinds cap older).length < cap := by
  by_cases room : (firstKinds cap older).length < cap
  · simp only [room,and_true]
    have all := firstKinds_room room
    by_cases again : kind ∈ older
    · rw [firstKinds_again again,or_iff_left_of_imp]
      rintro rfl
      rw [all]
      exact List.mem_reverse.mpr (List.mem_dedup.mpr again)
    · rw [firstKinds_new again,List.take_of_length_le,← all,List.mem_append,List.mem_singleton]
      rw [List.length_append,List.length_singleton,← all]
      exact room
  · rw [firstKinds_full (Nat.not_lt.mp room)]
    simp [room]

theorem keys_ofKinds (cap : Nat) (kinds : List κ) : (ofKinds cap kinds).byKind.keys.Perm (firstKinds cap kinds) := by
  induction kinds with
  | nil => simp [ofKinds,empty,firstKinds]
  | cons kind older ih =>
    refine (List.perm_ext_iff_of_nodup (AList.keys_nodup _) (nodup_firstKinds cap _)).mpr fun other => ?_
    have known (k : κ) : k ∈ (ofKinds cap older).byKind ↔ k ∈ firstKinds cap older := by
      rw [AList.mem_keys,ih.mem_iff]
    rw [← AList.mem_keys,mem_firstKinds_cons,← known,← ih.length_eq]
    simp only [ofKinds,record]
    split
    · next counted =>
      rw [CounterVec.mem_inc]
      constructor
      · rintro (rfl | old)
        · exact counted.symm.imp_right fun room => ⟨rfl,room⟩
        · exact .inl old
      · exact fun kept => kept.symm.imp_left And.left
    · next folded =>
      rw [or_iff_left_of_imp]
      rintro ⟨_,room⟩
      exact absurd (.inl room) folded

theorem mem_ofKinds : kind ∈ (ofKinds cap kinds).byKind ↔ kind ∈ firstKinds cap kinds := by
  rw [AList.mem_keys,(keys_ofKinds cap kinds).mem_iff]

theorem get_ofKinds (cap : Nat) (kinds : List κ) (kind : κ) :
    (ofKinds cap kinds).byKind.get kind = if kind ∈ firstKinds cap kinds then kinds.count kind else 0 := by
  induction kinds with
  | nil => simp [ofKinds,empty]
  | cons latest older ih =>
    simp only [ofKinds,record,mem_firstKinds_cons,mem_ofKinds,(keys_ofKinds cap older).length_eq,List.count_cons]
    by_cases same : kind = latest
    · subst same
      by_cases kept : kind ∈ firstKinds cap older
      · simp [kept,ih]
      · by_cases room : (firstKinds cap older).length < cap
        · have unseen : older.count kind = 0 := by
            rw [firstKinds_room room,List.mem_reverse,List.mem_dedup] at kept
            exact List.count_eq_zero.mpr kept
          simp [room,kept,ih,unseen]
        · simp [room,kept,ih]
    · have other : (latest == kind) = false := by simpa using Ne.symm same
      simp only [same,false_and,or_false,other]
      split <;> simp [same,ih]

end CappedTally
