import Mathlib.Algebra.GroupWithZero.Nat
import Mathlib.Data.List.Induction
import BrowserHive.Lib.Text

/-! What one request's diagnostics keep of the texts they are given: an entry carries the
count of its repeats in its own text, and the count is read back from there. -/
namespace BrowserHive.Worker.Diagnostics

abbrev Text := List Char

def maxEntryChars : Nat := 500

def usizeSize : Nat := 2^64

def truncated : Text := "…[truncated]".toList

def marker : Text := " (x".toList

inductive Category where
  | jsError
  | failedRequest
  | consoleError
  | consoleMessage
  deriving DecidableEq, Repr

structure DiagnosticsBuffer where
  jsErrors : List Text
  failedRequests : List Text
  consoleErrors : List Text
  consoleMessages : List Text
  dropped : Nat
  deriving DecidableEq, Repr

def unsigned : Text → Text
  | '+' :: rest => rest
  | text => text

/-- `str::parse` at an unsigned type: digits after at most one plus sign. -/
def parseUsize (text : Text) : Option Nat :=
  let digits := unsigned text
  if digits ≠ [] ∧ digits.all Char.isDigit ∧ Nat.ofDigitChars 10 digits 0 < usizeSize then
    some (Nat.ofDigitChars 10 digits 0)
  else none

def entryBody (entry : Text) : Text :=
  match Text.rfind marker entry with
  | some idx => if entry.getLast? = some ')' then entry.take idx else entry
  | none => entry

def entryCount (entry : Text) : Nat :=
  (((Text.rfind marker entry).filter (fun _ => entry.getLast? = some ')')).bind fun idx =>
    parseUsize (entry.drop (idx + 3)).dropLast).getD 1

def truncate (text : Text) (maxChars : Nat) : Text :=
  let text := Text.trim text
  if text.length ≤ maxChars then text else text.take maxChars ++ truncated

/-- `format!("{} (x{})", text, count)` -/
def counted (text : Text) (count : Nat) : Text := text ++ marker ++ Nat.toDigits 10 count ++ [')']

namespace DiagnosticsBuffer

def entries (b : DiagnosticsBuffer) : Category → List Text
  | .jsError => b.jsErrors
  | .failedRequest => b.failedRequests
  | .consoleError => b.consoleErrors
  | .consoleMessage => b.consoleMessages

def setEntries (b : DiagnosticsBuffer) (c : Category) (list : List Text) : DiagnosticsBuffer :=
  match c with
  | .jsError => { b with jsErrors := list }
  | .failedRequest => { b with failedRequests := list }
  | .consoleError => { b with consoleErrors := list }
  | .consoleMessage => { b with consoleMessages := list }

/-- The first entry of that body counts one more; `none` where there is none. A count of
`usize` wraps. -/
def repeated (text : Text) : List Text → Option (List Text)
  | [] => none
  | existing :: rest =>
    if entryBody existing = text then some (counted text ((entryCount existing + 1) % usizeSize) :: rest)
    else (repeated text rest).map (existing :: ·)

def push (b : DiagnosticsBuffer) (category : Category) (text : Text) (maxEntries : Nat) : DiagnosticsBuffer :=
  let text := truncate text maxEntryChars
  match repeated text (b.entries category) with
  | some list => b.setEntries category list
  | none =>
    if maxEntries ≤ (b.entries category).length then { b with dropped := (b.dropped + 1) % usizeSize }
    else b.setEntries category (b.entries category ++ [text])

@[simp] theorem entries_setEntries (b : DiagnosticsBuffer) (c : Category) (list : List Text) :
    (b.setEntries c list).entries c = list := by
  cases c <;> rfl

theorem entries_setEntries_ne {c d : Category} (b : DiagnosticsBuffer) (other : d ≠ c) (list : List Text) :
    (b.setEntries c list).entries d = b.entries d := by
  cases c <;> cases d <;> first | rfl | exact absurd rfl other

@[simp] theorem dropped_setEntries (b : DiagnosticsBuffer) (c : Category) (list : List Text) :
    (b.setEntries c list).dropped = b.dropped := by
  cases c <;> rfl

def countOf (list : List Text) : Nat := (list.map entryCount).sum

def total (b : DiagnosticsBuffer) : Nat :=
  countOf b.jsErrors + countOf b.failedRequests + countOf b.consoleErrors + countOf b.consoleMessages

theorem total_setEntries (b : DiagnosticsBuffer) (c : Category) (list : List Text) :
    (b.setEntries c list).total + countOf (b.entries c) = b.total + countOf list := by
  cases c <;> simp only [total,setEntries,entries] <;> omega

end DiagnosticsBuffer

def marked (entry : Text) : Option (Text × Nat) :=
  ((Text.rfind marker entry).filter (fun _ => entry.getLast? = some ')')).bind fun idx =>
    (parseUsize (entry.drop (idx + 3)).dropLast).map fun count => (entry.take idx,count)

/-- The text an entry shows to its reader: what precedes a count, or all of it. -/
def shownText (entry : Text) : Text := ((marked entry).map Prod.fst).getD entry

section

variable {entry text : Text} {n : Nat}

/-- The count the code reads is the one that is shown. -/
theorem entryCount_eq (entry : Text) : entryCount entry = ((marked entry).map Prod.snd).getD 1 := by
  rw [entryCount,marked]
  cases (Text.rfind marker entry).filter (fun _ => entry.getLast? = some ')') with
  | none => rfl
  | some idx =>
    simp only [Option.bind_some]
    cases parseUsize (entry.drop (idx + 3)).dropLast <;> rfl

theorem parseUsize_lt (parsed : parseUsize text = some n) : n < usizeSize := by
  simp only [parseUsize] at parsed
  split at parsed
  · next fits => exact Option.some.inj parsed ▸ fits.2.2
  · contradiction

theorem unsigned_of_digits (digits : ∀ c ∈ text, c.isDigit = true) : unsigned text = text := by
  rw [unsigned.eq_def]
  split
  · next rest =>
    have plus := digits '+' List.mem_cons_self
    exact absurd plus (by decide)
  · rfl

theorem parseUsize_toDigits (fits : n < usizeSize) : parseUsize (Nat.toDigits 10 n) = some n := by
  have digits : ∀ c ∈ Nat.toDigits 10 n, c.isDigit = true := fun c mem =>
    Nat.isDigit_of_mem_toDigits (by decide) (by decide) mem
  have value : Nat.ofDigitChars 10 (Nat.toDigits 10 n) 0 = n := Nat.ofDigitChars_toDigits (by decide) (by decide)
  rw [parseUsize,unsigned_of_digits digits]
  rw [if_pos ⟨Nat.toDigits_ne_nil,List.all_eq_true.mpr digits,value.symm ▸ fits⟩,value]

theorem rfind_counted (text : Text) (n : Nat) : Text.rfind marker (counted text n) = some text.length := by
  have digits : ' ' ∉ Nat.toDigits 10 n := fun mem =>
    absurd (Nat.isDigit_of_mem_toDigits (by decide) (by decide) mem) (by decide)
  have once : ' ' ∉ ['(','x'] := by decide
  have absent : ' ' ∉ Nat.toDigits 10 n ++ [')'] := by simp [digits]
  have found := Text.rfind_append text once absent
  simpa [counted,marker] using found

theorem last_counted (text : Text) (n : Nat) : (counted text n).getLast? = some ')' := by
  simp [counted]

@[simp] theorem entryBody_counted (text : Text) (n : Nat) : entryBody (counted text n) = text := by
  rw [entryBody,rfind_counted,last_counted]
  simp [counted,List.append_assoc]

theorem marked_counted (text : Text) (fits : n < usizeSize) : marked (counted text n) = some (text,n) := by
  have digits : ((counted text n).drop (text.length + 3)).dropLast = Nat.toDigits 10 n := by
    have three : marker.length = 3 := rfl
    rw [counted,List.append_assoc,List.append_assoc,← List.append_assoc text,← three,← List.length_append,
      List.drop_left,List.dropLast_concat]
  have start : (counted text n).take text.length = text := by
    simp [counted,List.append_assoc]
  rw [marked,rfind_counted,last_counted]
  change (parseUsize ((counted text n).drop (text.length + 3)).dropLast).map
    (fun count => ((counted text n).take text.length,count)) = some (text,n)
  rw [digits,start,parseUsize_toDigits fits]
  rfl

theorem shownText_counted (text : Text) (fits : n < usizeSize) : shownText (counted text n) = text := by
  rw [shownText,marked_counted text fits]
  rfl

theorem entryCount_counted (text : Text) (fits : n < usizeSize) : entryCount (counted text n) = n := by
  rw [entryCount_eq,marked_counted text fits]
  rfl

theorem entryCount_lt (entry : Text) : entryCount entry < usizeSize := by
  rw [entryCount]
  cases read : ((Text.rfind marker entry).filter (fun _ => entry.getLast? = some ')')).bind fun idx =>
      parseUsize (entry.drop (idx + 3)).dropLast with
  | none => decide
  | some n =>
    obtain ⟨_,_,parsed⟩ := Option.bind_eq_some_iff.mp read
    exact parseUsize_lt parsed

/-- An entry whose body is not what it shows looks counted and carries no number. -/
theorem unmarked_of_body (differs : entryBody entry ≠ shownText entry) :
    shownText entry = entry ∧ entryCount entry = 1 := by
  have none_ : marked entry = none := by
    cases found : marked entry with
    | none => rfl
    | some pair =>
      refine absurd ?_ differs
      have shown : shownText entry = pair.1 := by rw [shownText,found]; rfl
      obtain ⟨idx,at_,parsed⟩ := Option.bind_eq_some_iff.mp found
      obtain ⟨at_,last⟩ := Option.filter_eq_some_iff.mp at_
      obtain ⟨count,_,rfl⟩ := Option.map_eq_some_iff.mp parsed
      rw [shown,entryBody,at_]
      simp [of_decide_eq_true last]
  exact ⟨by rw [shownText,none_]; rfl,by rw [entryCount_eq,none_]; rfl⟩

/-- An entry that shows all of its own text counts once. -/
theorem entryCount_of_shown (shown : shownText entry = entry) : entryCount entry = 1 := by
  rw [entryCount_eq]
  cases found : marked entry with
  | none => rfl
  | some pair =>
    obtain ⟨idx,at_,parsed⟩ := Option.bind_eq_some_iff.mp found
    obtain ⟨_,_,rfl⟩ := Option.map_eq_some_iff.mp parsed
    have inside := (Text.rfind_some (Option.filter_eq_some_iff.mp at_).1).length_le
    have whole : entry.take idx = entry := by simpa [shownText,found] using shown
    have three : marker.length = 3 := rfl
    have short := congrArg List.length whole
    simp only [List.length_take,List.length_drop] at short inside
    omega

end

structure Push where
  category : Category
  text : Text
  deriving DecidableEq, Repr

def Push.kept (p : Push) : Text := truncate p.text maxEntryChars

def after (maxEntries : Nat) (pushes : List Push) : DiagnosticsBuffer :=
  pushes.foldl (fun b p => b.push p.category p.text maxEntries) ⟨[],[],[],[],0⟩

theorem after_concat (maxEntries : Nat) (pushes : List Push) (p : Push) :
    after maxEntries (pushes ++ [p]) = (after maxEntries pushes).push p.category p.text maxEntries := by
  rw [after,List.foldl_append]
  rfl

/-- A buffer tells its pushes: the entries of a category show distinct texts, each with the
number of its pushes, and none is lost. -/
structure Tells (b : DiagnosticsBuffer) (pushes : List Push) : Prop where
  distinct : ∀ c, ((b.entries c).map shownText).Nodup
  counts : ∀ c, ∀ e ∈ b.entries c, entryCount e = pushes.countP (fun p => p.category = c ∧ p.kept = shownText e)
  total : b.total + b.dropped = pushes.length

/-- The buffer tells the pushes so far, and the last of them took no new entry if its text
was stored. -/
structure Accounts (maxEntries : Nat) (pushes : List Push) : Prop where
  tells : Tells (after maxEntries pushes) pushes
  repeats : ∀ front p, pushes = front ++ [p] →
    (∃ e ∈ (after maxEntries front).entries p.category, shownText e = p.kept) →
    ((after maxEntries pushes).entries p.category).length = ((after maxEntries front).entries p.category).length

/-- A push is read right: the entry the code finds for it is the one that shows its text, a
text that becomes an entry does not end in a count, and no counter is at its end. -/
structure ReadRight (b : DiagnosticsBuffer) (maxEntries : Nat) (p : Push) : Prop where
  found : (b.entries p.category).find? (entryBody · = p.kept) = (b.entries p.category).find? (shownText · = p.kept)
  fresh : (b.entries p.category).find? (entryBody · = p.kept) = none →
    (b.entries p.category).length < maxEntries → shownText p.kept = p.kept
  count : ∀ e, (b.entries p.category).find? (entryBody · = p.kept) = some e → entryCount e + 1 < usizeSize
  dropped : (b.entries p.category).find? (entryBody · = p.kept) = none →
    maxEntries ≤ (b.entries p.category).length → b.dropped + 1 < usizeSize

section

variable {maxEntries : Nat} {pushes : List Push} {p : Push} {b : DiagnosticsBuffer} {text : Text}

open DiagnosticsBuffer

theorem repeated_eq_none {list : List Text} : repeated text list = none ↔ ∀ e ∈ list, entryBody e ≠ text := by
  induction list with
  | nil => simp [repeated]
  | cons e rest ih =>
    rw [repeated]
    split
    · next same => simp [same]
    · next other => simp [other,ih]

theorem repeated_eq_some {list new : List Text} (found : repeated text list = some new) :
    ∃ front e back, list = front ++ e :: back ∧ (∀ x ∈ front, entryBody x ≠ text) ∧ entryBody e = text ∧
      new = front ++ counted text ((entryCount e + 1) % usizeSize) :: back := by
  induction list generalizing new with
  | nil => contradiction
  | cons e rest ih =>
    rw [repeated] at found
    split at found
    · next same => exact ⟨[],e,rest,rfl,by simp,same,(Option.some.inj found).symm⟩
    · next other =>
      obtain ⟨later,into,rfl⟩ := Option.map_eq_some_iff.mp found
      obtain ⟨front,x,back,rfl,before,same,rfl⟩ := ih into
      refine ⟨e :: front,x,back,rfl,fun y mem => ?_,same,rfl⟩
      rcases List.mem_cons.mp mem with rfl | old
      · exact other
      · exact before y old

/-- What a push does: it counts a repeat of the first entry of its body, it is dropped, or it
becomes an entry. -/
inductive Pushed (b : DiagnosticsBuffer) (maxEntries : Nat) (p : Push) : DiagnosticsBuffer → Prop where
  | repeats (front : List Text) (e : Text) (back : List Text) (list : b.entries p.category = front ++ e :: back)
      (first : (b.entries p.category).find? (entryBody · = p.kept) = some e) :
      Pushed b maxEntries p
        (b.setEntries p.category (front ++ counted p.kept ((entryCount e + 1) % usizeSize) :: back))
  | drops (absent : (b.entries p.category).find? (entryBody · = p.kept) = none)
      (full : maxEntries ≤ (b.entries p.category).length) :
      Pushed b maxEntries p { b with dropped := (b.dropped + 1) % usizeSize }
  | stores (absent : (b.entries p.category).find? (entryBody · = p.kept) = none)
      (room : (b.entries p.category).length < maxEntries) :
      Pushed b maxEntries p (b.setEntries p.category (b.entries p.category ++ [p.kept]))

theorem pushed (b : DiagnosticsBuffer) (maxEntries : Nat) (p : Push) :
    Pushed b maxEntries p (b.push p.category p.text maxEntries) := by
  rw [DiagnosticsBuffer.push]
  change Pushed b maxEntries p (match repeated p.kept (b.entries p.category) with
    | some list => b.setEntries p.category list
    | none =>
      if maxEntries ≤ (b.entries p.category).length then { b with dropped := (b.dropped + 1) % usizeSize }
      else b.setEntries p.category (b.entries p.category ++ [p.kept]))
  cases found : repeated p.kept (b.entries p.category) with
  | some list =>
    obtain ⟨front,e,back,whole,before,same,rfl⟩ := repeated_eq_some found
    refine .repeats front e back whole ?_
    have skip : front.find? (entryBody · = p.kept) = none := by
      simpa [List.find?_eq_none] using before
    rw [whole,List.find?_append,skip]
    simp [same]
  | none =>
    have absent : (b.entries p.category).find? (entryBody · = p.kept) = none := by
      simpa [List.find?_eq_none] using repeated_eq_none.mp found
    simp only
    split
    · next full => exact .drops absent full
    · next room => exact .stores absent (Nat.lt_of_not_le room)

@[simp] theorem entries_drop (b : DiagnosticsBuffer) (dropped : Nat) (c : Category) :
    { b with dropped := dropped }.entries c = b.entries c := by
  cases c <;> rfl

/-- What a buffer that tells its pushes knows besides: a text that was pushed is shown, or
it came when its category was full, and no entry is of that body. -/
structure Holds (b : DiagnosticsBuffer) (maxEntries : Nat) (pushes : List Push) : Prop where
  tells : Tells b pushes
  stored : ∀ q ∈ pushes, (∃ e ∈ b.entries q.category, shownText e = q.kept) ∨
    (maxEntries ≤ (b.entries q.category).length ∧ ∀ e ∈ b.entries q.category, entryBody e ≠ q.kept)

theorem countP_push (pushes : List Push) (p : Push) (c : Category) (text : Text) :
    (pushes ++ [p]).countP (fun p => p.category = c ∧ p.kept = text) =
      pushes.countP (fun p => p.category = c ∧ p.kept = text) +
        if p.category = c ∧ p.kept = text then 1 else 0 := by
  rw [List.countP_append,List.countP_singleton]
  simp

/-- Other entries than those of the pushed text count as before. -/
theorem Tells.counts_other (tells : Tells b pushes) (c : Category) (e : Text) (mem : e ∈ b.entries c)
    (other : p.category = c → shownText e ≠ p.kept) :
    entryCount e = (pushes ++ [p]).countP (fun p => p.category = c ∧ p.kept = shownText e) := by
  have apart : ¬(p.category = c ∧ p.kept = shownText e) := fun both => other both.1 both.2.symm
  rw [countP_push,if_neg apart,Nat.add_zero]
  exact tells.counts c e mem

theorem Tells.others (tells : Tells b pushes) {c : Category} {front back : List Text} {e : Text}
    (list : b.entries c = front ++ e :: back) : ∀ x, x ∈ front ∨ x ∈ back → shownText x ≠ shownText e := by
  have distinct := tells.distinct c
  rw [list,List.map_append,List.map_cons,List.perm_middle.nodup_iff,← List.map_append] at distinct
  intro x mem same
  refine (List.nodup_cons.mp distinct).1 ?_
  rw [← same]
  exact List.mem_map_of_mem (List.mem_append.mpr mem)

/-- A push that changes the entries of its own category is told when they tell it. -/
theorem Holds.setEntries (holds : Holds b maxEntries pushes) {new : List Text}
    (distinct : (new.map shownText).Nodup)
    (counts : ∀ e ∈ new, entryCount e =
      (pushes ++ [p]).countP (fun q => q.category = p.category ∧ q.kept = shownText e))
    (sum : (new.map entryCount).sum = ((b.entries p.category).map entryCount).sum + 1)
    (stored : ∀ q ∈ pushes ++ [p], q.category = p.category → (∃ e ∈ new, shownText e = q.kept) ∨
      (maxEntries ≤ new.length ∧ ∀ e ∈ new, entryBody e ≠ q.kept)) :
    Holds (b.setEntries p.category new) maxEntries (pushes ++ [p]) := by
  refine ⟨⟨fun c => ?_,fun c e mem => ?_,?_⟩,fun q mem => ?_⟩
  · by_cases own : c = p.category
    · subst own
      rw [entries_setEntries]
      exact distinct
    · rw [entries_setEntries_ne b own]
      exact holds.tells.distinct c
  · by_cases own : c = p.category
    · subst own
      rw [entries_setEntries] at mem
      exact counts e mem
    · rw [entries_setEntries_ne b own] at mem
      exact holds.tells.counts_other c e mem fun same => absurd same.symm own
  · have whole := total_setEntries b p.category new
    have before := holds.tells.total
    simp only [countOf] at whole
    rw [dropped_setEntries,List.length_append,List.length_singleton]
    omega
  · by_cases own : q.category = p.category
    · rw [own,entries_setEntries]
      exact stored q mem own
    · rw [entries_setEntries_ne b own]
      rcases List.mem_append.mp mem with old | last
      · exact holds.stored q old
      · exact absurd (congrArg Push.category (List.mem_singleton.mp last)) own

theorem Holds.not_pushed (holds : Holds b maxEntries pushes) (absent : ∀ e ∈ b.entries p.category, shownText e ≠ text)
    (room : (b.entries p.category).length < maxEntries ∨ ∃ e ∈ b.entries p.category, entryBody e = text) :
    pushes.countP (fun q => q.category = p.category ∧ q.kept = text) = 0 := by
  refine List.countP_eq_zero.mpr fun q mem same => ?_
  obtain ⟨own,rfl⟩ := of_decide_eq_true same
  rcases holds.stored q mem with ⟨e,at_,shown⟩ | ⟨full,bodies⟩
  · exact absent e (own ▸ at_) shown
  · rcases room with room | ⟨e,at_,body⟩
    · rw [own] at full
      omega
    · exact bodies e (own ▸ at_) body

/-- A repeat that is read right is told: it is counted at the entry that shows its text. -/
theorem Holds.repeats (holds : Holds b maxEntries pushes) (right : ReadRight b maxEntries p) {front back : List Text}
    {e : Text} (list : b.entries p.category = front ++ e :: back)
    (first : (b.entries p.category).find? (entryBody · = p.kept) = some e) :
    Holds (b.setEntries p.category (front ++ counted p.kept ((entryCount e + 1) % usizeSize) :: back)) maxEntries
      (pushes ++ [p]) := by
  have shown : shownText e = p.kept := by
    have same := right.found
    rw [first] at same
    simpa using List.find?_some same.symm
  have body : entryBody e = p.kept := by simpa using List.find?_some first
  have fits := right.count e first
  rw [Nat.mod_eq_of_lt fits]
  have fresh : shownText (counted p.kept (entryCount e + 1)) = p.kept := shownText_counted _ fits
  have texts : (front ++ counted p.kept (entryCount e + 1) :: back).map shownText =
      (b.entries p.category).map shownText := by
    rw [list,List.map_append,List.map_append,List.map_cons,List.map_cons,fresh,shown]
  have others := holds.tells.others list
  rw [shown] at others
  refine holds.setEntries ?_ (fun x mem => ?_) ?_ fun q mem own => ?_
  · rw [texts]
    exact holds.tells.distinct _
  · rcases List.mem_append.mp mem with before | later
    · exact holds.tells.counts_other _ x (by simp [list,before]) fun _ => others x (.inl before)
    · rcases List.mem_cons.mp later with rfl | behind
      · rw [entryCount_counted _ fits,fresh,countP_push,if_pos ⟨rfl,rfl⟩,← shown]
        exact congrArg (· + 1) (holds.tells.counts p.category e (by simp [list]))
      · exact holds.tells.counts_other _ x (by simp [list,behind]) fun _ => others x (.inr behind)
  · simp only [list,List.map_append,List.map_cons,List.sum_append,List.sum_cons,entryCount_counted _ fits]
    omega
  · have length : (front ++ counted p.kept (entryCount e + 1) :: back).length = (b.entries p.category).length := by
      simp [list]
    rcases List.mem_append.mp mem with old | new
    · rcases holds.stored q old with ⟨x,at_,same⟩ | ⟨full,bodies⟩
      · left
        have text : q.kept ∈ (b.entries p.category).map shownText := by
          rw [← same,← own]
          exact List.mem_map_of_mem at_
        rw [← texts] at text
        exact List.mem_map.mp text
      · right
        rw [own] at full bodies
        refine ⟨length.symm ▸ full,fun x mem => ?_⟩
        rcases List.mem_append.mp mem with before | later
        · exact bodies x (by simp [list,before])
        · rcases List.mem_cons.mp later with rfl | behind
          · rw [entryBody_counted,← body]
            exact bodies e (by simp [list])
          · exact bodies x (by simp [list,behind])
    · obtain rfl := List.mem_singleton.mp new
      left
      exact ⟨_,by simp,fresh⟩

theorem Holds.drops (holds : Holds b maxEntries pushes) (right : ReadRight b maxEntries p)
    (absent : (b.entries p.category).find? (entryBody · = p.kept) = none)
    (full : maxEntries ≤ (b.entries p.category).length) :
    Holds { b with dropped := (b.dropped + 1) % usizeSize } maxEntries (pushes ++ [p]) := by
  have unshown : ∀ e ∈ b.entries p.category, shownText e ≠ p.kept := by
    have none_ := right.found ▸ absent
    simpa [List.find?_eq_none] using none_
  have bodies : ∀ e ∈ b.entries p.category, entryBody e ≠ p.kept := by
    simpa [List.find?_eq_none] using absent
  rw [Nat.mod_eq_of_lt (right.dropped absent full)]
  refine ⟨⟨fun c => ?_,fun c x mem => ?_,?_⟩,fun q mem => ?_⟩
  · rw [entries_drop]
    exact holds.tells.distinct c
  · rw [entries_drop] at mem
    exact holds.tells.counts_other c x mem fun own => unshown x (own ▸ mem)
  · rw [List.length_append,List.length_singleton,← holds.tells.total]
    rfl
  · rw [entries_drop]
    rcases List.mem_append.mp mem with old | new
    · exact holds.stored q old
    · obtain rfl := List.mem_singleton.mp new
      exact .inr ⟨full,bodies⟩

theorem Holds.stores (holds : Holds b maxEntries pushes) (right : ReadRight b maxEntries p)
    (absent : (b.entries p.category).find? (entryBody · = p.kept) = none)
    (room : (b.entries p.category).length < maxEntries) :
    Holds (b.setEntries p.category (b.entries p.category ++ [p.kept])) maxEntries (pushes ++ [p]) := by
  have unshown : ∀ e ∈ b.entries p.category, shownText e ≠ p.kept := by
    have none_ := right.found ▸ absent
    simpa [List.find?_eq_none] using none_
  have shown : shownText p.kept = p.kept := right.fresh absent room
  have once : entryCount p.kept = 1 := entryCount_of_shown shown
  refine holds.setEntries ?_ (fun x mem => ?_) ?_ fun q mem own => ?_
  · rw [List.map_append,List.map_singleton,shown,List.nodup_append]
    refine ⟨holds.tells.distinct _,by simp,fun x mem y single => ?_⟩
    obtain ⟨e,at_,rfl⟩ := List.mem_map.mp mem
    rw [List.mem_singleton.mp single]
    exact unshown e at_
  · rcases List.mem_append.mp mem with old | new
    · exact holds.tells.counts_other _ x old fun _ => unshown x old
    · obtain rfl := List.mem_singleton.mp new
      rw [once,countP_push,shown,holds.not_pushed unshown (.inl room),if_pos ⟨rfl,rfl⟩]
  · rw [List.map_append,List.map_singleton,List.sum_append,List.sum_singleton,once]
  · left
    rcases List.mem_append.mp mem with old | new
    · rcases holds.stored q old with ⟨x,at_,same⟩ | ⟨full,_⟩
      · exact ⟨x,List.mem_append_left _ (own ▸ at_),same⟩
      · rw [own] at full
        omega
    · obtain rfl := List.mem_singleton.mp new
      exact ⟨_,List.mem_append_right _ (List.mem_singleton_self _),shown⟩

theorem Holds.step (holds : Holds b maxEntries pushes) (right : ReadRight b maxEntries p)
    (pushed : Pushed b maxEntries p next) : Holds next maxEntries (pushes ++ [p]) := by
  cases pushed with
  | repeats front e back list first => exact holds.repeats right list first
  | drops absent full => exact holds.drops right absent full
  | stores absent room => exact holds.stores right absent room

/-- An entry whose body is another text than it shows, and the text it is taken for. -/
theorem Holds.not_taken (holds : Holds b maxEntries pushes) {front back : List Text} {e : Text}
    (list : b.entries p.category = front ++ e :: back) (body : entryBody e = p.kept) (differs : shownText e ≠ p.kept) :
    ¬Tells (b.setEntries p.category (front ++ counted p.kept ((entryCount e + 1) % usizeSize) :: back)) (pushes ++ [p]) := by
  intro tells
  have once : entryCount e = 1 := (unmarked_of_body (by rwa [body,ne_comm])).2
  rw [once] at tells
  have fits : (1 + 1) % usizeSize < usizeSize := by decide
  have fresh : shownText (counted p.kept ((1 + 1) % usizeSize)) = p.kept := shownText_counted _ fits
  have others := tells.others (entries_setEntries b p.category _)
  rw [fresh] at others
  have absent : ∀ x ∈ b.entries p.category, shownText x ≠ p.kept := by
    intro x mem same
    rw [list] at mem
    rcases List.mem_append.mp mem with before | later
    · exact others x (.inl before) same
    · rcases List.mem_cons.mp later with rfl | behind
      · exact differs same
      · exact others x (.inr behind) same
  have never := holds.not_pushed absent (.inr ⟨e,by simp [list],body⟩)
  have told := tells.counts p.category (counted p.kept ((1 + 1) % usizeSize)) (by simp)
  rw [entryCount_counted _ fits,fresh,countP_push,never,if_pos ⟨rfl,rfl⟩] at told
  exact absurd told (by decide)

theorem Holds.readRight_repeats (holds : Holds b maxEntries pushes) {front back : List Text} {e : Text}
    (list : b.entries p.category = front ++ e :: back)
    (first : (b.entries p.category).find? (entryBody · = p.kept) = some e)
    (tells : Tells (b.setEntries p.category (front ++ counted p.kept ((entryCount e + 1) % usizeSize) :: back))
      (pushes ++ [p])) : ReadRight b maxEntries p := by
  have body : entryBody e = p.kept := by simpa using List.find?_some first
  have shown : shownText e = p.kept := Classical.byContradiction fun differs =>
    holds.not_taken list body differs tells
  have skip : front.find? (shownText · = p.kept) = none := by
    refine List.find?_eq_none.mpr fun x mem same => ?_
    exact holds.tells.others list x (.inl mem) (by rw [of_decide_eq_true same,shown])
  have found : (b.entries p.category).find? (shownText · = p.kept) = some e := by
    rw [list,List.find?_append,skip]
    simp [shown]
  have told := tells.counts p.category (counted p.kept ((entryCount e + 1) % usizeSize)) (by simp)
  have fits : (entryCount e + 1) % usizeSize < usizeSize := Nat.mod_lt _ (by decide)
  rw [entryCount_counted _ fits,shownText_counted _ fits,countP_push,if_pos ⟨rfl,rfl⟩] at told
  refine ⟨first.trans found.symm,?_,?_,?_⟩
  · rw [first]
    simp
  · intro x same
    obtain rfl := Option.some.inj (first.symm.trans same)
    refine Nat.lt_of_not_le fun full => ?_
    have wraps : entryCount e + 1 = usizeSize := Nat.le_antisymm (entryCount_lt e) full
    rw [wraps,Nat.mod_self] at told
    omega
  · rw [first]
    simp

theorem Holds.readRight_drops (holds : Holds b maxEntries pushes)
    (absent : (b.entries p.category).find? (entryBody · = p.kept) = none)
    (full : maxEntries ≤ (b.entries p.category).length)
    (tells : Tells { b with dropped := (b.dropped + 1) % usizeSize } (pushes ++ [p])) : ReadRight b maxEntries p := by
  refine ⟨absent.trans (Eq.symm (List.find?_eq_none.mpr fun e mem same => ?_)),fun _ room => ?_,?_,fun _ _ => ?_⟩
  · have shown : shownText e = p.kept := of_decide_eq_true same
    have before := holds.tells.counts p.category e mem
    have told := tells.counts p.category e (by rwa [entries_drop])
    rw [countP_push,if_pos ⟨rfl,shown.symm⟩] at told
    omega
  · omega
  · rw [absent]
    simp
  · have before := holds.tells.total
    have told := tells.total
    rw [List.length_append,List.length_singleton] at told
    have same : (b.dropped + 1) % usizeSize = b.dropped + 1 := by
      have counts : DiagnosticsBuffer.total { b with dropped := (b.dropped + 1) % usizeSize } = b.total := rfl
      simp only [counts] at told
      omega
    exact same ▸ Nat.mod_lt _ (by decide)

theorem Holds.readRight_stores (holds : Holds b maxEntries pushes)
    (absent : (b.entries p.category).find? (entryBody · = p.kept) = none)
    (room : (b.entries p.category).length < maxEntries)
    (tells : Tells (b.setEntries p.category (b.entries p.category ++ [p.kept])) (pushes ++ [p])) :
    ReadRight b maxEntries p := by
  have bodies : ∀ e ∈ b.entries p.category, entryBody e ≠ p.kept := by
    simpa [List.find?_eq_none] using absent
  have apart : ∀ e ∈ b.entries p.category, shownText e ≠ shownText p.kept := fun e mem =>
    tells.others (entries_setEntries b p.category _) e (.inl mem)
  refine ⟨absent.trans (Eq.symm (List.find?_eq_none.mpr fun e mem same => ?_)),fun _ _ => ?_,?_,fun _ full => ?_⟩
  · have shown : shownText e = p.kept := of_decide_eq_true same
    have own := (unmarked_of_body (shown ▸ bodies e mem)).1
    exact apart e mem (congrArg shownText (own.symm.trans shown))
  · refine Classical.byContradiction fun differs => ?_
    have never := holds.not_pushed apart (.inl room)
    have told := tells.counts p.category p.kept (by simp)
    have other : ¬(p.category = p.category ∧ p.kept = shownText p.kept) := fun both => differs both.2.symm
    rw [countP_push,never,if_neg other] at told
    have sum := total_setEntries b p.category (b.entries p.category ++ [p.kept])
    have before := holds.tells.total
    have whole := tells.total
    simp only [countOf,List.map_append,List.map_singleton,List.sum_append,List.sum_singleton,told] at sum
    rw [dropped_setEntries,List.length_append,List.length_singleton] at whole
    omega
  · rw [absent]
    simp
  · omega

/-- Only a push that is read right is told. -/
theorem Holds.readRight (holds : Holds b maxEntries pushes) (pushed : Pushed b maxEntries p next)
    (tells : Tells next (pushes ++ [p])) : ReadRight b maxEntries p := by
  cases pushed with
  | repeats front e back list first => exact holds.readRight_repeats list first tells
  | drops absent full => exact holds.readRight_drops absent full tells
  | stores absent room => exact holds.readRight_stores absent room tells

theorem Holds.initial (maxEntries : Nat) : Holds (after maxEntries []) maxEntries [] := by
  refine ⟨⟨fun c => ?_,fun c e mem => ?_,rfl⟩,fun q mem => absurd mem (List.not_mem_nil)⟩
  · cases c <;> exact List.nodup_nil
  · cases c <;> exact absurd mem (List.not_mem_nil)

/-- A stored text is found by a push of it that is read right, so it takes no entry. -/
theorem ReadRight.length (right : ReadRight b maxEntries p) (pushed : Pushed b maxEntries p next)
    (shown : ∃ e ∈ b.entries p.category, shownText e = p.kept) :
    (next.entries p.category).length = (b.entries p.category).length := by
  have found : (b.entries p.category).find? (entryBody · = p.kept) ≠ none := by
    obtain ⟨e,mem,same⟩ := shown
    rw [right.found]
    intro none_
    exact List.find?_eq_none.mp none_ e mem (by simpa using same)
  cases pushed with
  | repeats front e back list first => simp [list]
  | drops absent => exact absurd absent found
  | stores absent => exact absurd absent found

end

/-- The buffer accounts for every part of a sequence of pushes exactly when each of them is
read right. -/
theorem accounts_iff (maxEntries : Nat) (pushes : List Push) :
    (∀ front, front <+: pushes → Accounts maxEntries front) ↔
      ∀ front p, front ++ [p] <+: pushes → ReadRight (after maxEntries front) maxEntries p := by
  have run : (∀ front p, front ++ [p] <+: pushes → Tells (after maxEntries (front ++ [p])) (front ++ [p]) ∨
      ReadRight (after maxEntries front) maxEntries p) →
      ∀ front, front <+: pushes → Holds (after maxEntries front) maxEntries front := by
    intro each front
    induction front using List.reverseRecOn with
    | nil => exact fun _ => .initial maxEntries
    | append_singleton front p ih =>
      intro part
      have holds := ih ((List.prefix_append _ _).trans part)
      have step := pushed (after maxEntries front) maxEntries p
      rw [← after_concat] at step
      rcases each front p part with tells | right
      · exact holds.step (holds.readRight step tells) step
      · exact holds.step right step
  constructor
  · intro accounts front p part
    have holds := run (fun front p part => .inl (accounts _ part).tells) front ((List.prefix_append _ _).trans part)
    have step := pushed (after maxEntries front) maxEntries p
    rw [← after_concat] at step
    exact holds.readRight step (accounts _ part).tells
  · intro right front part
    refine ⟨(run (fun front p part => .inr (right front p part)) front part).tells,?_⟩
    rintro earlier p rfl shown
    have step := pushed (after maxEntries earlier) maxEntries p
    rw [← after_concat] at step
    exact (right earlier p part).length step shown

/-- A text of the page that looks counted is taken for two pushes of another. -/
theorem counted_text_miscounts : ¬Accounts 10 [⟨.consoleError,"a (x2)".toList⟩] := by
  intro accounts
  exact absurd accounts.tells.total (by decide)

end BrowserHive.Worker.Diagnostics
