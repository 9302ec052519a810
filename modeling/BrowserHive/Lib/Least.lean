import Mathlib.Data.List.Sort
import Mathlib.Order.Defs.LinearOrder

/-! The least entry of a list by some key, the first of those that tie: what a stable sort
puts in front. -/
namespace Least

universe u v w
variable {α : Type u} {β : Type v} {κ : Type w} [LinearOrder κ] {key : β → κ} {entries : List β}

def First (key : β → κ) (entries : List β) (e : β) : Prop :=
  ∃ before after, entries = before ++ e :: after ∧ (∀ x ∈ before, key e < key x) ∧ ∀ x ∈ after, key e ≤ key x

theorem First.least (first : First key entries e) (x : β) (member : x ∈ entries) : key e ≤ key x := by
  obtain ⟨before,after,rfl,less,most⟩ := first
  rcases List.mem_append.mp member with earlier | later
  · exact le_of_lt (less x earlier)
  · rcases List.mem_cons.mp later with rfl | later
    · exact le_refl _
    · exact most x later

theorem first_of_sorted (head : (entries.insertionSort (fun a b => key a ≤ key b)).head? = some e) :
    First key entries e := by
  induction entries generalizing e with
  | nil => contradiction
  | cons a rest ih =>
    rw [List.insertionSort_cons] at head
    cases sorted : rest.insertionSort (fun a b => key a ≤ key b) with
    | nil =>
      have empty : rest = [] := by simpa [sorted] using (List.length_insertionSort (fun a b => key a ≤ key b) rest).symm
      subst empty
      rw [sorted] at head
      obtain rfl : a = e := Option.some.inj head
      exact ⟨[],[],rfl,by simp,by simp⟩
    | cons b more =>
      have first : First key rest b := ih (by rw [sorted]; rfl)
      rw [sorted,List.orderedInsert] at head
      split at head
      · next order =>
        obtain rfl : a = e := Option.some.inj head
        exact ⟨[],rest,rfl,by simp,fun x member => le_trans order (first.least x member)⟩
      · next order =>
        obtain rfl : b = e := Option.some.inj head
        obtain ⟨before,after,rfl,less,most⟩ := first
        refine ⟨a :: before,after,rfl,?_,most⟩
        exact List.forall_mem_cons.mpr ⟨lt_of_not_ge order,less⟩

/-- The least of the entries that stand at some position, and the first of those that tie. -/
def FirstAt (key : β → κ) (stands : Nat → β → Prop) (i : Nat) (e : β) : Prop :=
  stands i e ∧ ∀ j x, stands j x → key e ≤ key x ∧ (j < i → key e < key x)

theorem FirstAt.congr {stands stands' : Nat → β → Prop} (first : FirstAt key stands i e)
    (same : ∀ j x, stands j x ↔ stands' j x) : FirstAt key stands' i e :=
  ⟨(same i e).mp first.1,fun j x here => first.2 j x ((same j x).mpr here)⟩

/-- Among the entries that the positions of another list give rise to. -/
theorem First.position {list : List α} {f : α × Nat → Option β} (first : First key (list.zipIdx.filterMap f) e) :
    ∃ i, FirstAt key (fun i e => ∃ a, list[i]? = some a ∧ f (a,i) = some e) i e := by
  have least := first.least
  obtain ⟨before,after,split_,less,_⟩ := first
  obtain ⟨left,right,zipped,rfl,later⟩ := List.filterMap_eq_append_iff.mp split_
  obtain ⟨skipped,⟨a,i⟩,tail,rfl,unseen,given,_⟩ := List.filterMap_eq_cons_iff.mp later
  have numbered (k : Nat) : list.zipIdx[k]? = list[k]?.map fun x => (x,k) := by
    rw [List.getElem?_zipIdx,Nat.zero_add]
  have here : list[i]? = some a ∧ i = (left ++ skipped).length := by
    have at_ : list.zipIdx[(left ++ skipped).length]? = some (a,i) := by
      rw [zipped,← List.append_assoc,List.getElem?_append_right (Nat.le_refl _),Nat.sub_self]
      rfl
    rw [numbered] at at_
    obtain ⟨x,found,same⟩ := Option.map_eq_some_iff.mp at_
    obtain ⟨rfl,rfl⟩ := Prod.mk.inj same
    exact ⟨found,rfl⟩
  refine ⟨i,⟨a,here.1,given⟩,fun j x ⟨b,found,gives⟩ => ⟨?_,fun earlier => ?_⟩⟩
  · refine least x (List.mem_filterMap.mpr ⟨(b,j),?_,gives⟩)
    exact List.mem_of_getElem? (i := j) (by rw [numbered,found]; rfl)
  · have at_ : (left ++ skipped)[j]? = some (b,j) := by
      have whole := numbered j
      rw [found,zipped,← List.append_assoc,List.getElem?_append_left (here.2 ▸ earlier)] at whole
      exact whole
    rcases List.mem_append.mp (List.mem_of_getElem? at_) with inside | inside
    · exact less x (List.mem_filterMap.mpr ⟨_,inside,gives⟩)
    · rw [unseen _ inside] at gives
      contradiction

end Least
