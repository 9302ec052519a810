import Mathlib.Data.List.TakeWhile
import Mathlib.Data.List.DropRight

/-! Strings as lists of characters: searching for a pattern, and white space at the ends. -/
namespace Text

/-- The Unicode property `White_Space`. -/
def isWhiteSpace (c : Char) : Bool :=
  (0x09 ≤ c.toNat && c.toNat ≤ 0x0D) || (0x2000 ≤ c.toNat && c.toNat ≤ 0x200A) ||
  [0x20,0x85,0xA0,0x1680,0x2028,0x2029,0x202F,0x205F,0x3000].contains c.toNat

def trimStart (text : List Char) : List Char := text.dropWhile isWhiteSpace

def trim (text : List Char) : List Char := (trimStart (trimStart text).reverse).reverse

def find (pattern : List Char) : List Char → Option Nat
  | [] => if pattern.isEmpty then some 0 else none
  | c :: rest => if pattern.isPrefixOf (c :: rest) then some 0 else (find pattern rest).map (· + 1)

def rfind (pattern : List Char) : List Char → Option Nat
  | [] => if pattern.isEmpty then some 0 else none
  | c :: rest =>
    match rfind pattern rest with
    | some n => some (n + 1)
    | none => if pattern.isPrefixOf (c :: rest) then some 0 else none

theorem trimStart_eq_nil_iff (text : List Char) : trimStart text = [] ↔ ∀ c ∈ text, isWhiteSpace c = true :=
  List.dropWhile_eq_nil_iff

theorem mem_trimStart (mem : c ∈ text) (visible : isWhiteSpace c = false) : c ∈ trimStart text := by
  rw [← List.takeWhile_append_dropWhile (p := isWhiteSpace) (l := text)] at mem
  rcases List.mem_append.mp mem with white | kept
  · rw [List.mem_takeWhile_imp white] at visible
    contradiction
  · exact kept

theorem mem_trim (mem : c ∈ text) (visible : isWhiteSpace c = false) : c ∈ trim text :=
  List.mem_reverse.mpr (mem_trimStart (List.mem_reverse.mpr (mem_trimStart mem visible)) visible)

/-- Only white space is trimmed away entirely. -/
theorem trim_eq_nil_iff (text : List Char) : trim text = [] ↔ ∀ c ∈ text, isWhiteSpace c = true := by
  constructor
  · intro empty c mem
    refine Classical.byContradiction fun visible => ?_
    have kept := mem_trim mem (Bool.eq_false_iff.mpr visible)
    simp [empty] at kept
  · intro white
    rw [trim,(trimStart_eq_nil_iff text).mpr white]
    rfl

theorem trim_trim_eq_nil_iff (text : List Char) : trim (trim text) = [] ↔ trim text = [] := by
  constructor
  · intro empty
    rw [trim_eq_nil_iff] at empty ⊢
    intro c mem
    refine Classical.byContradiction fun visible => visible (empty c ?_)
    exact mem_trim mem (Bool.eq_false_iff.mpr visible)
  · intro empty
    rw [empty]
    rfl

theorem mem_of_mem_trim (mem : c ∈ trim text) : c ∈ text := by
  have kept := (List.dropWhile_suffix _).subset (List.mem_reverse.mp mem)
  exact (List.dropWhile_suffix _).subset (List.mem_reverse.mp kept)

theorem trim_trim (text : List Char) : trim (trim text) = trim text := by
  have again : trimStart (trim text) = trim text := by
    refine List.dropWhile_eq_self_iff.mpr fun some_ => ?_
    have start : trim text <+: trimStart text := by
      have back : trimStart (trimStart text).reverse <:+ (trimStart text).reverse := List.dropWhile_suffix _
      have front := List.reverse_prefix.mpr back
      rwa [List.reverse_reverse] at front
    have longer := Nat.lt_of_lt_of_le some_ start.length_le
    rw [start.getElem some_]
    exact List.dropWhile_get_zero_not _ _ longer
  have once : trimStart (trimStart (trimStart text).reverse) = trimStart (trimStart text).reverse :=
    List.dropWhile_idempotent _ _
  rw [trim,again,trim,List.reverse_reverse,once]

theorem splitOn_parts {text part : List Char} {separator : Char} (member : part ∈ text.splitOn separator) :
    separator ∉ part := by
  induction text generalizing part with
  | nil => simp_all
  | cons c rest ih =>
    rw [List.splitOn_cons_eq_if_modifyHead] at member
    split at member
    · rcases List.mem_cons.mp member with rfl | later
      · exact List.not_mem_nil
      · exact ih later
    · next other =>
      cases parts : rest.splitOn separator with
      | nil => exact absurd parts (List.splitOn_ne_nil separator rest)
      | cons first later =>
        rw [parts,List.modifyHead_cons] at member
        rcases List.mem_cons.mp member with rfl | member
        · have held := ih (by rw [parts]; exact List.mem_cons_self)
          have apart : separator ≠ c := by
            rintro rfl
            simp at other
          simp [apart,held]
        · exact ih (by rw [parts]; exact List.mem_cons_of_mem _ member)

theorem intercalate_append {front back : List (List Char)} (separator : Char) (first : front ≠ []) (second : back ≠ []) :
    [separator].intercalate (front ++ back) = [separator].intercalate front ++ separator :: [separator].intercalate back := by
  induction front with
  | nil => exact absurd rfl first
  | cons part rest ih =>
    rw [List.cons_append,List.intercalate_cons_of_ne_nil (List.append_ne_nil_of_right_ne_nil rest second)]
    cases rest with
    | nil => simp
    | cons next later =>
      rw [ih (List.cons_ne_nil next later),List.intercalate_cons_of_ne_nil (List.cons_ne_nil next later)]
      simp

/-- The parts of a text end a longer one's exactly when it follows a separator there. -/
theorem splitOn_suffix_iff (separator : Char) (part text : List Char) :
    part.splitOn separator <:+ text.splitOn separator ↔ text = part ∨ ∃ front, text = front ++ separator :: part := by
  constructor
  · rintro ⟨front,whole⟩
    have text_eq := congrArg [separator].intercalate whole
    rw [List.intercalate_splitOn] at text_eq
    by_cases first : front = []
    · left
      rw [first,List.nil_append,List.intercalate_splitOn] at text_eq
      exact text_eq.symm
    · right
      rw [intercalate_append separator first (List.splitOn_ne_nil separator part),List.intercalate_splitOn] at text_eq
      exact ⟨_,text_eq.symm⟩
  · rintro (rfl | ⟨front,rfl⟩)
    · exact List.suffix_refl _
    · rw [List.splitOn_append_cons_self]
      exact List.suffix_append _ _

theorem find_some (found : find pattern text = some n) : pattern <+: text.drop n := by
  induction text generalizing n with
  | nil =>
    simp only [find] at found
    split at found
    · next empty => simp [List.isEmpty_iff.mp empty]
    · contradiction
  | cons c rest ih =>
    simp only [find] at found
    split at found
    · next here =>
      obtain rfl := Option.some.inj found
      exact List.isPrefixOf_iff_prefix.mp here
    · obtain ⟨m,later,rfl⟩ := Option.map_eq_some_iff.mp found
      exact ih later

theorem find_of_occurs (pattern front back : List Char) :
    ∃ n, find pattern (front ++ pattern ++ back) = some n ∧ n ≤ front.length := by
  induction front with
  | nil =>
    refine ⟨0,?_,Nat.le_refl 0⟩
    cases pattern with
    | nil => cases back <;> rfl
    | cons c rest => simp [find]
  | cons c rest ih =>
    obtain ⟨n,found,early⟩ := ih
    by_cases here : pattern.isPrefixOf (c :: rest ++ pattern ++ back) = true
    · exact ⟨0,by rw [List.cons_append,List.cons_append] at here ⊢; exact if_pos here,Nat.zero_le _⟩
    · refine ⟨n + 1,?_,Nat.succ_le_succ early⟩
      rw [List.cons_append,List.cons_append] at here ⊢
      rw [find,if_neg here,found]
      rfl

theorem find_eq_none_iff (pattern text : List Char) : find pattern text = none ↔ ¬pattern <:+: text := by
  constructor
  · rintro absent ⟨front,back,rfl⟩
    obtain ⟨n,found,_⟩ := find_of_occurs pattern front back
    rw [found] at absent
    contradiction
  · intro absent
    refine Option.eq_none_iff_forall_ne_some.mpr fun n found => absent ?_
    exact (find_some found).isInfix.trans (List.drop_suffix n text).isInfix

/-- A text cut at the first occurrence of a pattern. -/
structure CutAt (pattern front back text : List Char) : Prop where
  here : text = front ++ pattern ++ back
  first : ∀ front' back', text = front' ++ pattern ++ back' → front.length ≤ front'.length

theorem cutAt_find (found : find pattern text = some n) :
    CutAt pattern (text.take n) (text.drop (n + pattern.length)) text where
  here := by
    obtain ⟨rest,same⟩ := find_some found
    have whole := List.take_append_drop n text
    rw [← same] at whole
    have back : text.drop (n + pattern.length) = rest := by
      rw [← List.drop_drop,← same,List.drop_left]
    rw [back,List.append_assoc,whole]
  first := by
    rintro front back rfl
    obtain ⟨m,same,early⟩ := find_of_occurs pattern front back
    obtain rfl := Option.some.inj (found.symm.trans same)
    exact (List.length_take_le n _).trans early

/-- What is found is among the characters up to its end. -/
theorem mem_take_of_find (found : find pattern text = some n) (mem : c ∈ pattern) :
    c ∈ text.take (n + pattern.length) := by
  obtain ⟨rest,same⟩ := find_some found
  rw [List.take_add,← same,List.take_left']
  · exact List.mem_append_right _ mem
  · rfl

theorem rfind_some (found : rfind pattern text = some n) : pattern <+: text.drop n := by
  induction text generalizing n with
  | nil =>
    simp only [rfind] at found
    split at found
    · next empty => simp [List.isEmpty_iff.mp empty]
    · contradiction
  | cons c rest ih =>
    simp only [rfind] at found
    split at found
    · next later =>
      obtain rfl := Option.some.inj found
      exact ih later
    · split at found
      · next here =>
        obtain rfl := Option.some.inj found
        exact List.isPrefixOf_iff_prefix.mp here
      · contradiction

/-- A pattern does not occur where its first character does not. -/
theorem rfind_eq_none (pattern : List Char) (absent : first ∉ text) : rfind (first :: pattern) text = none := by
  induction text with
  | nil => rfl
  | cons c rest ih =>
    obtain ⟨differs,later⟩ := not_or.mp (mt List.mem_cons.mpr absent)
    have no : (first :: pattern).isPrefixOf (c :: rest) = false := by simp [List.isPrefixOf,differs]
    rw [rfind,ih later]
    simp [no]

/-- An occurrence is the last one when its first character does not come again. -/
theorem rfind_append (front : List Char) (once : first ∉ pattern) (absent : first ∉ back) :
    rfind (first :: pattern) (front ++ first :: (pattern ++ back)) = some front.length := by
  induction front with
  | nil =>
    have later : first ∉ pattern ++ back := by
      simp [once,absent]
    have here : (first :: pattern).isPrefixOf (first :: (pattern ++ back)) = true :=
      List.isPrefixOf_iff_prefix.mpr ⟨back,rfl⟩
    rw [List.nil_append,rfind,rfind_eq_none pattern later]
    simp [here]
  | cons c rest ih =>
    rw [List.cons_append,rfind,ih]
    rfl

end Text
