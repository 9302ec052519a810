import BrowserHive.Lib.Text

/-! Texts that are read by their fields: words between separators, lines, and the decimal
numbers they spell. -/
namespace Text

universe u

section Words

variable {α : Type u} {p : α → Bool} {text word front back : List α} {c : α}

/-- The words between separators; two separators in a row hold none. -/
def fields (p : α → Bool) (text : List α) : List (List α) := (text.splitOnP p).filter (fun word => !word.isEmpty)

/-- A separator ends a word. -/
@[simp] theorem fields_append_cons (front back : List α) (sep : p c = true) :
    fields p (front ++ c :: back) = fields p front ++ fields p back := by
  simp [fields,List.splitOnP_append_cons front back sep]

@[simp] theorem fields_nil (p : α → Bool) : fields p [] = [] := by simp [fields]

@[simp] theorem fields_cons_sep (text : List α) (sep : p c = true) : fields p (c :: text) = fields p text := by
  simpa using fields_append_cons [] text sep

@[simp] theorem fields_replicate (n : Nat) (text : List α) (sep : p c = true) :
    fields p (List.replicate n c ++ text) = fields p text := by
  induction n with
  | zero => rfl
  | succ n ih => rw [List.replicate_succ,List.cons_append,fields_cons_sep _ sep,ih]

theorem fields_word (some_ : word ≠ []) (plain : ∀ c ∈ word, p c = false) : fields p word = [word] := by
  simp [fields,List.splitOnP_eq_singleton plain,some_]

theorem fields_word_cons (some_ : word ≠ []) (plain : ∀ c ∈ word, p c = false) (text : List α) (sep : p c = true) :
    fields p (word ++ c :: text) = word :: fields p text := by
  rw [fields_append_cons word text sep,fields_word some_ plain,List.singleton_append]

theorem fields_intercalate (texts : List (List α)) (sep : p c = true) :
    fields p ([c].intercalate texts) = texts.flatMap (fields p) := by
  induction texts with
  | nil => simp
  | cons text rest ih =>
    cases rest with
    | nil => simp
    | cons next later =>
      rw [List.intercalate_cons_of_ne_nil (List.cons_ne_nil next later),List.append_assoc,List.singleton_append,
        fields_append_cons text _ sep,ih]
      rfl

theorem fields_terminated (texts : List (List α)) (sep : p c = true) :
    fields p (texts.flatMap (· ++ [c])) = texts.flatMap (fields p) := by
  induction texts with
  | nil => simp
  | cons text rest ih =>
    rw [List.flatMap_cons,List.append_assoc,List.singleton_append,fields_append_cons text _ sep,ih,List.flatMap_cons]

def stripPrefix [BEq α] (start text : List α) : Option (List α) :=
  if start.isPrefixOf text then some (text.drop start.length) else none

theorem stripPrefix_append [BEq α] [LawfulBEq α] (start rest : List α) : stripPrefix start (start ++ rest) = some rest := by
  simp [stripPrefix]

theorem stripPrefix_none [BEq α] [LawfulBEq α] {start : List α} (other : ¬start <+: text) : stripPrefix start text = none := by
  simp [stripPrefix,other]

end Words

section Lines

variable {text : List Char} {c : Char} {n : Nat}

def stripReturn (line : List Char) : List Char := if line.getLast? = some '\r' then line.dropLast else line

/-- The lines of a text, each without its end. -/
def lines (text : List Char) : List (List Char) :=
  let parts := text.splitOn '\n'
  (if parts.getLast? = some [] then parts.dropLast else parts).map stripReturn

theorem lines_terminated (texts : List (List Char)) (plain : ∀ line ∈ texts, '\n' ∉ line) :
    lines (texts.flatMap (· ++ ['\n'])) = texts.map stripReturn := by
  have parts : (texts.flatMap (· ++ ['\n'])).splitOn '\n' = texts ++ [[]] := by
    induction texts with
    | nil => simp
    | cons line rest ih =>
      rw [List.flatMap_cons,List.append_assoc,List.singleton_append,
        List.splitOn_append_cons_self_of_not_mem (plain line List.mem_cons_self),
        ih fun line member => plain line (List.mem_cons_of_mem _ member),List.cons_append]
  simp [lines,parts]

theorem stripReturn_starts (line : List Char) : stripReturn line <+: line := by
  unfold stripReturn
  split
  · exact List.dropLast_prefix line
  · exact List.prefix_rfl

def parseUnsigned (size : Nat) (text : List Char) : Option Nat :=
  let digits := if text.head? = some '+' then text.tail else text
  if digits ≠ [] ∧ digits.all Char.isDigit ∧ Nat.ofDigitChars 10 digits 0 < size then
    some (Nat.ofDigitChars 10 digits 0)
  else none

theorem parseUnsigned_lt {size : Nat} (parsed : parseUnsigned size text = some n) : n < size := by
  simp only [parseUnsigned,Option.ite_none_right_eq_some,Option.some.injEq] at parsed
  obtain ⟨⟨_,_,small⟩,rfl⟩ := parsed
  exact small

theorem isDigit_of_toDigits (member : c ∈ Nat.toDigits 10 n) : c.isDigit = true :=
  Nat.isDigit_of_mem_toDigits (by decide) (by decide) member

theorem parseUnsigned_toDigits {size : Nat} (fits : n < size) : parseUnsigned size (Nat.toDigits 10 n) = some n := by
  have unsigned : (Nat.toDigits 10 n).head? ≠ some '+' := by
    intro plus
    have digit := isDigit_of_toDigits (List.mem_of_head? plus)
    exact absurd digit (by decide)
  have value : Nat.ofDigitChars 10 (Nat.toDigits 10 n) 0 = n := Nat.ofDigitChars_toDigits (by decide) (by decide)
  have digits : (Nat.toDigits 10 n).all Char.isDigit = true := List.all_eq_true.mpr fun c member => isDigit_of_toDigits member
  rw [parseUnsigned,if_neg unsigned,if_pos ⟨Nat.toDigits_ne_nil,digits,value.symm ▸ fits⟩,value]

end Lines

end Text
