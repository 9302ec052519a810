import Mathlib.Data.List.AList
import Mathlib.Data.List.Nodup

/-! Lists whose entries have keys: looking up the entry of a key, and gathering the entries
of each key into one value. -/
namespace Keyed

universe u v w
variable {β : Type u} {κ : Type v} {γ : Type w} [DecidableEq κ] {key : β → κ} {entries : List β} {e : β}

theorem find_key (unique : (entries.map key).Nodup) (member : e ∈ entries) :
    entries.find? (fun x => key x = key e) = some e := by
  cases found : entries.find? (fun x => key x = key e) with
  | none => simpa using List.find?_eq_none.mp found e member
  | some x =>
    have same : key x = key e := by simpa using List.find?_some found
    rw [List.inj_on_of_nodup_map unique (List.mem_of_find?_eq_some found) member same]

theorem find_eq_some_iff (unique : (entries.map key).Nodup) (k : κ) :
    entries.find? (fun x => key x = k) = some e ↔ e ∈ entries ∧ key e = k := by
  constructor
  · intro found
    exact ⟨List.mem_of_find?_eq_some found,by simpa using List.find?_some found⟩
  · rintro ⟨member,rfl⟩
    exact find_key unique member

omit [DecidableEq κ] in
/-- The entries of keys, in the order of the keys. -/
theorem exists_entries (keys : List κ) (each : ∀ k ∈ keys, ∃ e ∈ entries, key e = k) :
    ∃ found : List β, found.map key = keys ∧ ∀ e ∈ found, e ∈ entries := by
  induction keys with
  | nil => exact ⟨[],rfl,by simp⟩
  | cons k rest ih =>
    obtain ⟨e,member,rfl⟩ := each k List.mem_cons_self
    obtain ⟨found,rfl,listed⟩ := ih fun k later => each k (List.mem_cons_of_mem _ later)
    exact ⟨e :: found,rfl,List.forall_mem_cons.mpr ⟨member,listed⟩⟩

/-- The values of all keys, each folded from its entries in their order. -/
def gather (key : β → κ) (add : γ → β → γ) (start : γ) (entries : List β) : AList (fun _ : κ => γ) :=
  entries.foldl (fun groups e => groups.insert (key e) (add ((groups.lookup (key e)).getD start) e)) ∅

theorem lookup_foldl (add : γ → β → γ) (start : γ) (entries : List β) (groups : AList (fun _ : κ => γ)) (k : κ) :
    (entries.foldl (fun groups e => groups.insert (key e) (add ((groups.lookup (key e)).getD start) e)) groups).lookup k =
      (entries.filter (key · = k)).foldl (fun value e => some (add (value.getD start) e)) (groups.lookup k) := by
  induction entries generalizing groups with
  | nil => rfl
  | cons e rest ih =>
    rw [List.foldl_cons,ih]
    by_cases own : key e = k
    · subst own
      rw [AList.lookup_insert,List.filter_cons_of_pos (by simp),List.foldl_cons]
    · rw [AList.lookup_insert_ne (Ne.symm own),List.filter_cons_of_neg (by simpa using own)]

theorem foldl_some (add : γ → β → γ) (start value : γ) (entries : List β) :
    entries.foldl (fun value e => some (add (value.getD start) e)) (some value) = some (entries.foldl add value) := by
  induction entries generalizing value with
  | nil => rfl
  | cons e rest ih => exact ih (add value e)

/-- A key has a value when it has an entry, and then that of its entries. -/
theorem lookup_gather (add : γ → β → γ) (start : γ) (entries : List β) (k : κ) :
    (gather key add start entries).lookup k =
      if (entries.filter (key · = k)).isEmpty then none else some ((entries.filter (key · = k)).foldl add start) := by
  rw [gather,lookup_foldl,AList.lookup_empty]
  cases entries.filter (key · = k) with
  | nil => rfl
  | cons e rest => exact foldl_some add start (add start e) rest

end Keyed
