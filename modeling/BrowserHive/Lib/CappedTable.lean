import Mathlib.Data.List.AList
import Mathlib.Data.List.Perm.Basic
import Mathlib.Data.List.Dedup

/-! Tables with room for so many keys: a key that comes again revises its entry, a new one
is refused when the table is full, and entries are revised and dropped by their keys. -/
universe u v

structure CappedTable (κ : Type u) (α : Type v) where
  entries : AList fun _ : κ => α
  /-- How often a new key found no room. -/
  refused : Nat

namespace CappedTable

variable {κ : Type u} {α : Type v}

inductive Op (κ : Type u) (α : Type v) where
  | put (key : κ) (fresh : α) (again : α → α)
  | revise (key : κ) (f : α → α)
  | drop (key : κ)

def empty : CappedTable κ α := ⟨∅,0⟩

def size (t : CappedTable κ α) : Nat := t.entries.keys.length

def refuse (t : CappedTable κ α) : CappedTable κ α := { t with refused := t.refused + 1 }

variable [DecidableEq κ]

def lookup (t : CappedTable κ α) (key : κ) : Option α := t.entries.lookup key

def insert (t : CappedTable κ α) (key : κ) (value : α) : CappedTable κ α :=
  { t with entries := t.entries.insert key value }

def put (cap : Nat) (t : CappedTable κ α) (key : κ) (fresh : α) (again : α → α) : CappedTable κ α :=
  match t.lookup key with
  | some value => t.insert key (again value)
  | none => if cap ≤ t.size then t.refuse else t.insert key fresh

def revise (t : CappedTable κ α) (key : κ) (f : α → α) : CappedTable κ α :=
  match t.lookup key with
  | some value => t.insert key (f value)
  | none => t

def drop (t : CappedTable κ α) (key : κ) : CappedTable κ α := { t with entries := t.entries.erase key }

def step (cap : Nat) (t : CappedTable κ α) : Op κ α → CappedTable κ α
  | .put key fresh again => t.put cap key fresh again
  | .revise key f => t.revise key f
  | .drop key => t.drop key

/-- After these operations, the latest first. -/
def after (cap : Nat) : List (Op κ α) → CappedTable κ α
  | [] => empty
  | op :: older => (after cap older).step cap op

def Op.apply (key : κ) : Op κ α → α → α
  | .put key' _ again, value => if key' = key then again value else value
  | .revise key' f, value => if key' = key then f value else value
  | .drop _, value => value

/-- What is left of an entry after these operations, none of which drops it. -/
def told (key : κ) (newer : List (Op κ α)) (value : α) : α := newer.foldr (Op.apply key) value

/-- The latest operation is a put that finds no room. -/
def refuses (cap : Nat) : List (Op κ α) → Bool
  | .put key _ _ :: older => ((after cap older).lookup key).isNone && cap ≤ (after cap older).size
  | _ => false

def Op.putKey : Op κ α → Option κ
  | .put key _ _ => some key
  | _ => none

variable {cap : Nat} {t : CappedTable κ α} {key other : κ} {value : α} {op : Op κ α} {ops newer older : List (Op κ α)}

@[simp] theorem lookup_empty (key : κ) : (empty : CappedTable κ α).lookup key = none := AList.lookup_empty key

@[simp] theorem lookup_insert (t : CappedTable κ α) (key : κ) (value : α) : (t.insert key value).lookup key = some value :=
  AList.lookup_insert _

@[simp] theorem lookup_insert_ne (t : CappedTable κ α) (value : α) (ne : key ≠ other) :
    (t.insert other value).lookup key = t.lookup key := AList.lookup_insert_ne ne

@[simp] theorem lookup_drop (t : CappedTable κ α) (key : κ) : (t.drop key).lookup key = none :=
  AList.lookup_erase _ _

@[simp] theorem lookup_drop_ne (t : CappedTable κ α) (ne : key ≠ other) : (t.drop other).lookup key = t.lookup key :=
  AList.lookup_erase_ne ne

@[simp] theorem lookup_refuse (t : CappedTable κ α) (key : κ) : t.refuse.lookup key = t.lookup key := rfl

omit [DecidableEq κ] in
@[simp] theorem size_refuse (t : CappedTable κ α) : t.refuse.size = t.size := rfl

theorem lookup_isSome : (t.lookup key).isSome ↔ key ∈ t.entries.keys := AList.lookup_isSome

theorem lookup_eq_none : t.lookup key = none ↔ key ∉ t.entries.keys := by
  rw [← lookup_isSome,Option.not_isSome_iff_eq_none]

theorem size_insert_known (known : t.lookup key = some value) (value' : α) : (t.insert key value').size = t.size := by
  have mem : key ∈ t.entries.keys := lookup_isSome.mp (Option.isSome_of_eq_some known)
  have pos : 0 < t.entries.keys.length := List.length_pos_of_mem mem
  simp only [size,insert,AList.keys_insert,List.length_cons,List.length_erase_of_mem mem]
  omega

theorem size_insert_new (new : t.lookup key = none) (value : α) : (t.insert key value).size = t.size + 1 := by
  simp [size,insert,AList.keys_insert,List.erase_of_not_mem (lookup_eq_none.mp new)]

theorem size_drop_le (t : CappedTable κ α) (key : κ) : (t.drop key).size ≤ t.size := by
  simpa [size,drop,AList.keys_erase] using List.length_erase_le

theorem put_cases (cap : Nat) (t : CappedTable κ α) (key : κ) (fresh : α) (again : α → α) :
    (∃ value, t.lookup key = some value ∧ t.put cap key fresh again = t.insert key (again value)) ∨
    (t.lookup key = none ∧ t.size < cap ∧ t.put cap key fresh again = t.insert key fresh) ∨
    t.lookup key = none ∧ cap ≤ t.size ∧ t.put cap key fresh again = t.refuse := by
  unfold put
  cases known : t.lookup key with
  | some value => exact .inl ⟨value,rfl,rfl⟩
  | none =>
    dsimp only
    split
    · next full => exact .inr (.inr ⟨rfl,full,rfl⟩)
    · next room => exact .inr (.inl ⟨rfl,by omega,rfl⟩)

theorem revise_cases (t : CappedTable κ α) (key : κ) (f : α → α) :
    (∃ value, t.lookup key = some value ∧ t.revise key f = t.insert key (f value)) ∨
    t.lookup key = none ∧ t.revise key f = t := by
  unfold revise
  cases known : t.lookup key with
  | some value => exact .inl ⟨value,rfl,rfl⟩
  | none => exact .inr ⟨rfl,rfl⟩

/-- An entry stays until it is dropped. -/
theorem lookup_step_known (known : t.lookup key = some value) (kept : op ≠ .drop key) :
    (t.step cap op).lookup key = some (op.apply key value) := by
  cases op with
  | put key' fresh again =>
    by_cases own : key' = key
    · subst own
      rcases put_cases cap t key' fresh again with ⟨value',known',put⟩ | ⟨unknown,_⟩ | ⟨unknown,_⟩
      · obtain rfl := Option.some.inj (known.symm.trans known')
        simp [step,Op.apply,put]
      · rw [known] at unknown
        contradiction
      · rw [known] at unknown
        contradiction
    · rcases put_cases cap t key' fresh again with ⟨value',_,put⟩ | ⟨_,_,put⟩ | ⟨_,_,put⟩
      · simpa [step,Op.apply,own,put,Ne.symm own] using known
      · simpa [step,Op.apply,own,put,Ne.symm own] using known
      · simpa [step,Op.apply,own,put] using known
  | revise key' f =>
    by_cases own : key' = key
    · subst own
      rcases revise_cases t key' f with ⟨value',known',revised⟩ | ⟨unknown,_⟩
      · obtain rfl := Option.some.inj (known.symm.trans known')
        simp [step,Op.apply,revised]
      · rw [known] at unknown
        contradiction
    · rcases revise_cases t key' f with ⟨value',_,revised⟩ | ⟨_,revised⟩
      · simpa [step,Op.apply,own,revised,Ne.symm own] using known
      · simpa [step,Op.apply,own,revised] using known
  | drop key' =>
    have ne : key ≠ key' := fun same => kept (same ▸ rfl)
    simpa [step,Op.apply,ne] using known

theorem lookup_step_unknown (unknown : t.lookup key = none) (known : (t.step cap op).lookup key = some value) :
    t.size < cap ∧ ∃ again, op = .put key value again := by
  cases op with
  | put key' fresh again =>
    by_cases own : key' = key
    · subst own
      rcases put_cases cap t key' fresh again with ⟨value',known',_⟩ | ⟨_,room,put⟩ | ⟨_,_,put⟩
      · rw [unknown] at known'
        contradiction
      · obtain rfl : fresh = value := by simpa [step,put] using known
        exact ⟨room,again,rfl⟩
      · have stays : t.lookup key' = some value := by simpa [step,put] using known
        rw [unknown] at stays
        contradiction
    · rcases put_cases cap t key' fresh again with ⟨value',_,put⟩ | ⟨_,_,put⟩ | ⟨_,_,put⟩
      all_goals
        have stays : t.lookup key = some value := by simpa [step,put,Ne.symm own] using known
        rw [unknown] at stays
        contradiction
  | revise key' f =>
    rcases revise_cases t key' f with ⟨value',known',revised⟩ | ⟨_,revised⟩
    · by_cases own : key' = key
      · subst own
        rw [unknown] at known'
        contradiction
      · have stays : t.lookup key = some value := by simpa [step,revised,Ne.symm own] using known
        rw [unknown] at stays
        contradiction
    · have stays : t.lookup key = some value := by simpa [step,revised] using known
      rw [unknown] at stays
      contradiction
  | drop key' =>
    by_cases own : key = key'
    · subst own
      simp [step] at known
    · have stays : t.lookup key = some value := by simpa [step,own] using known
      rw [unknown] at stays
      contradiction

theorem size_step_le (bounded : t.size ≤ cap) (op : Op κ α) : (t.step cap op).size ≤ cap := by
  cases op with
  | put key fresh again =>
    rcases put_cases cap t key fresh again with ⟨value,known,put⟩ | ⟨new,room,put⟩ | ⟨_,_,put⟩
    · simpa [step,put,size_insert_known known] using bounded
    · rw [step,put,size_insert_new new]
      omega
    · simpa [step,put] using bounded
  | revise key f =>
    rcases revise_cases t key f with ⟨value,known,revised⟩ | ⟨_,revised⟩
    · simpa [step,revised,size_insert_known known] using bounded
    · simpa [step,revised] using bounded
  | drop key => exact Nat.le_trans (size_drop_le t key) bounded

theorem size_after_le (cap : Nat) (ops : List (Op κ α)) : (after cap ops).size ≤ cap := by
  induction ops with
  | nil => simp [after,empty,size]
  | cons op older ih => exact size_step_le ih op

/-- After the put of an entry the later operations tell what it is, as long as none drops it. -/
theorem lookup_after_append (known : (after cap older).lookup key = some value) (kept : .drop key ∉ newer) :
    (after cap (newer ++ older)).lookup key = some (told key newer value) := by
  induction newer with
  | nil => exact known
  | cons op newer ih =>
    rw [List.mem_cons,not_or] at kept
    exact lookup_step_known (ih kept.2) (Ne.symm kept.1)

/-- The entries told from the operations: each is of a put that found room, and what the
later operations made of it. -/
theorem lookup_after (cap : Nat) (ops : List (Op κ α)) (key : κ) (value : α) :
    (after cap ops).lookup key = some value ↔ ∃ newer fresh again older, ops = newer ++ .put key fresh again :: older ∧
      (after cap older).lookup key = none ∧ (after cap older).size < cap ∧ .drop key ∉ newer ∧
      value = told key newer fresh := by
  constructor
  · intro known
    induction ops generalizing value with
    | nil => simp [after] at known
    | cons op older ih =>
      cases before : (after cap older).lookup key with
      | none =>
        obtain ⟨room,again,rfl⟩ := lookup_step_unknown before known
        exact ⟨[],value,again,older,rfl,before,room,List.not_mem_nil,rfl⟩
      | some value' =>
        have kept : op ≠ .drop key := by
          rintro rfl
          simp [after,step] at known
        obtain ⟨newer,fresh,again,older',rfl,unknown,room,undropped,rfl⟩ := ih value' before
        refine ⟨op :: newer,fresh,again,older',rfl,unknown,room,?_,?_⟩
        · exact List.mem_cons.not.mpr (not_or.mpr ⟨Ne.symm kept,undropped⟩)
        · exact (Option.some.inj ((lookup_step_known before kept).symm.trans known)).symm
  · rintro ⟨newer,fresh,again,older,rfl,unknown,room,undropped,rfl⟩
    refine lookup_after_append ?_ undropped
    rcases put_cases cap (after cap older) key fresh again with ⟨value,known,_⟩ | ⟨_,_,put⟩ | ⟨_,full,_⟩
    · rw [unknown] at known
      contradiction
    · simp [after,step,put]
    · omega

/-- A key without an entry was dropped since, or found no room. -/
theorem refuses_of_unknown (unknown : (after cap (newer ++ .put key fresh again :: older)).lookup key = none)
    (kept : .drop key ∉ newer) : refuses cap (.put key fresh again :: older) = true := by
  rcases put_cases cap (after cap older) key fresh again with ⟨value,_,put⟩ | ⟨_,_,put⟩ | ⟨before,full,_⟩
  · have now : (after cap (.put key fresh again :: older)).lookup key = some (again value) := by simp [after,step,put]
    simp [lookup_after_append now kept] at unknown
  · have now : (after cap (.put key fresh again :: older)).lookup key = some fresh := by simp [after,step,put]
    simp [lookup_after_append now kept] at unknown
  · simp [refuses,before,full]

theorem refused_step (cap : Nat) (op : Op κ α) (older : List (Op κ α)) :
    ((after cap older).step cap op).refused = (after cap older).refused + if refuses cap (op :: older) then 1 else 0 := by
  cases op with
  | put key fresh again =>
    rcases put_cases cap (after cap older) key fresh again with ⟨value,known,put⟩ | ⟨new,room,put⟩ | ⟨new,full,put⟩
    · simp [step,put,refuses,known,insert]
    · simp [step,put,refuses,insert,Nat.not_le.mpr room]
    · simp [step,put,refuses,new,full,refuse]
  | revise key f =>
    rcases revise_cases (after cap older) key f with ⟨value,_,revised⟩ | ⟨_,revised⟩
    · simp [step,revised,refuses,insert]
    · simp [step,revised,refuses]
  | drop key => simp [step,drop,refuses]

theorem keys_after_subset (cap : Nat) (ops : List (Op κ α)) : (after cap ops).entries.keys ⊆ ops.filterMap Op.putKey := by
  intro key mem
  obtain ⟨value,known⟩ := Option.isSome_iff_exists.mp (lookup_isSome.mpr mem)
  obtain ⟨newer,fresh,again,older,rfl,_⟩ := (lookup_after cap ops key value).mp known
  exact List.mem_filterMap.mpr ⟨_,List.mem_append_right _ List.mem_cons_self,rfl⟩

theorem refuses_of_roomy (roomy : (ops.filterMap Op.putKey).dedup.length ≤ cap) (later : older <:+ ops) :
    refuses cap older = false := by
  rw [Bool.eq_false_iff]
  intro refused
  cases older with
  | nil => simp [refuses] at refused
  | cons op older =>
    cases op with
    | put key fresh again =>
      obtain ⟨new,full⟩ : (after cap older).lookup key = none ∧ cap ≤ (after cap older).size := by
        simpa [refuses] using refused
      have fresh : (key :: (after cap older).entries.keys).Nodup :=
        List.nodup_cons.mpr ⟨lookup_eq_none.mp new,AList.keys_nodup _⟩
      have put : key :: (after cap older).entries.keys ⊆ (ops.filterMap Op.putKey).dedup := by
        intro k mem
        refine List.mem_dedup.mpr ((later.filterMap Op.putKey).subset ?_)
        rcases List.mem_cons.mp mem with rfl | mem
        · exact List.mem_cons_self
        · exact List.mem_cons_of_mem _ (keys_after_subset cap older mem)
      have many := (List.subperm_of_subset fresh put).length_le
      rw [List.length_cons] at many
      unfold size at full
      omega
    | revise key f => simp [refuses] at refused
    | drop key => simp [refuses] at refused

/-- The values of a table, in any order, with their keys. -/
theorem exists_listed (t : CappedTable κ α) {values : List α} (order : values.Perm (t.entries.entries.map Sigma.snd)) :
    ∃ listed : List (κ × α), (listed.map Prod.fst).Nodup ∧
      (∀ key value, (key,value) ∈ listed ↔ t.lookup key = some value) ∧
      listed.map Prod.snd = values ∧ listed.length = t.size := by
  have along : Relation.Comp (fun l entries => l = entries.map Sigma.snd) List.Perm values t.entries.entries := by
    rw [List.eq_map_comp_perm]
    exact order
  obtain ⟨entries,rfl,perm⟩ := along
  refine ⟨entries.map fun entry => (entry.1,entry.2),?_,fun key value => ?_,by simp,?_⟩
  · have nodup := (perm.map Sigma.fst).nodup_iff.mpr t.entries.nodupKeys
    rw [List.map_map]
    exact nodup
  · rw [lookup,← Option.mem_def,AList.mem_lookup_iff,← perm.mem_iff,List.mem_map]
    constructor
    · rintro ⟨entry,mem,same⟩
      cases same
      exact mem
    · exact fun mem => ⟨⟨key,value⟩,mem,rfl⟩
  · simpa [size,AList.keys,List.keys] using perm.length_eq

end CappedTable
