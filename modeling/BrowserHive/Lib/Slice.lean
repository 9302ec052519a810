import BrowserHive.Lib.Text

/-! Slices of a text by byte offsets into its UTF-8 encoding. A slice whose bounds are
out of order, outside the text or inside a character is refused. -/
namespace Text

inductive SliceError where
  | outside
  | reversed
  | insideChar
  deriving DecidableEq, Repr

def bytes : List Char → Nat
  | [] => 0
  | c :: rest => c.utf8Size + bytes rest

def cut (n : Nat) : List Char → Option (List Char × List Char)
  | [] => if n = 0 then some ([],[]) else none
  | c :: rest =>
    if n = 0 then some ([],c :: rest)
    else if c.utf8Size ≤ n then (cut (n - c.utf8Size) rest).map (fun halves => (c :: halves.1,halves.2))
    else none

def slice (start stop : Nat) (text : List Char) : Except SliceError (List Char) :=
  if bytes text < start ∨ bytes text < stop then .error .outside
  else if stop < start then .error .reversed
  else match cut stop text with
    | none => .error .insideChar
    | some (front,_) =>
      match cut start front with
      | none => .error .insideChar
      | some (_,kept) => .ok kept

def sliceTo (stop : Nat) (text : List Char) : Except SliceError (List Char) := slice 0 stop text

def sliceFrom (start : Nat) (text : List Char) : Except SliceError (List Char) :=
  slice start (bytes text) text

def findByte (pattern text : List Char) : Option Nat :=
  (find pattern text).map (fun n => bytes (text.take n))

@[simp] theorem bytes_nil : bytes [] = 0 := rfl
@[simp] theorem bytes_cons (c : Char) (rest : List Char) : bytes (c :: rest) = c.utf8Size + bytes rest := rfl

@[simp] theorem bytes_append (front back : List Char) : bytes (front ++ back) = bytes front + bytes back := by
  induction front with
  | nil => simp
  | cons c front ih => simp [ih,Nat.add_assoc]

theorem cut_append (front back : List Char) : cut (bytes front) (front ++ back) = some (front,back) := by
  induction front with
  | nil => cases back <;> simp [cut]
  | cons c front ih =>
    have pos := Char.utf8Size_pos c
    rw [List.cons_append,cut,if_neg (by simp; omega),if_pos (by simp),bytes_cons,Nat.add_sub_cancel_left,ih]
    rfl

/-- A slice between two characters of the text is what stands between them. -/
theorem slice_append (front mid back : List Char) :
    slice (bytes front) (bytes (front ++ mid)) (front ++ mid ++ back) = .ok mid := by
  have inside : ¬(bytes (front ++ mid ++ back) < bytes front ∨
      bytes (front ++ mid ++ back) < bytes (front ++ mid)) := by simp
  have ordered : ¬bytes (front ++ mid) < bytes front := by simp
  rw [slice,if_neg inside,if_neg ordered,cut_append]
  simp only [cut_append]

/-- Offsets that come from prefixes of the text are good bounds. -/
theorem slice_take (ordered : m ≤ n) (text : List Char) :
    slice (bytes (text.take m)) (bytes (text.take n)) text = .ok ((text.take n).drop m) := by
  have front := (List.take_append_drop m (text.take n)).symm
  rw [List.take_take,Nat.min_eq_left ordered] at front
  have whole : text = text.take m ++ (text.take n).drop m ++ text.drop n := by
    rw [← front,List.take_append_drop]
  have taken := slice_append (text.take m) ((text.take n).drop m) (text.drop n)
  rwa [← whole,← front] at taken

theorem sliceTo_take (n : Nat) (text : List Char) : sliceTo (bytes (text.take n)) text = .ok (text.take n) := by
  simpa [sliceTo] using slice_take (Nat.zero_le n) text

theorem sliceFrom_take (n : Nat) (text : List Char) : sliceFrom (bytes (text.take n)) text = .ok (text.drop n) := by
  rcases Nat.le_total n text.length with inside | outside
  · simpa [sliceFrom] using slice_take inside text
  · simpa [sliceFrom,List.take_of_length_le outside,List.drop_of_length_le outside] using
      slice_take (Nat.le_refl text.length) text

theorem bytes_take_le (n : Nat) (text : List Char) : bytes (text.take n) ≤ bytes text := by
  have whole := bytes_append (text.take n) (text.drop n)
  rw [List.take_append_drop] at whole
  omega

theorem slice_reversed (after : stop < start) (inside : start ≤ bytes text) :
    slice start stop text = .error .reversed := by
  rw [slice,if_neg (by omega),if_pos after]

/-- A pattern whose first character does not occur before is found where it stands. -/
theorem find_append (absent : p ∉ front) (pattern back : List Char) :
    find (p :: pattern) (front ++ (p :: pattern ++ back)) = some front.length := by
  induction front with
  | nil =>
    have here : (p :: pattern).isPrefixOf (p :: pattern ++ back) = true := by simp
    simp only [List.nil_append,List.cons_append,find] at here ⊢
    rw [if_pos here]
    rfl
  | cons c front ih =>
    obtain ⟨other,absent⟩ := not_or.mp (List.mem_cons.not.mp absent)
    have elsewhere : (p :: pattern).isPrefixOf (c :: (front ++ (p :: pattern ++ back))) = false := by
      simp [List.isPrefixOf,other]
    rw [List.cons_append,find,elsewhere,if_neg Bool.false_ne_true,ih absent]
    rfl

theorem take_find (found : find pattern text = some n) :
    text.take (n + pattern.length) = text.take n ++ pattern := by
  obtain ⟨back,same⟩ := find_some found
  rw [List.take_add,← same,List.take_left' rfl]

theorem bytes_take_find (found : find pattern text = some n) :
    bytes (text.take (n + pattern.length)) = bytes (text.take n) + bytes pattern := by
  rw [take_find found,bytes_append]

theorem getElem?_find (found : find pattern text = some n) (inside : k < pattern.length) :
    text[n + k]? = pattern[k]? := by
  obtain ⟨back,same⟩ := find_some found
  rw [← List.getElem?_drop,← same,List.getElem?_append_left inside]

end Text
