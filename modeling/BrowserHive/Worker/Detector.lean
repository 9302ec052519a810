import Mathlib.Data.List.Perm.Basic
import BrowserHive.Worker.Challenge

/-! Detection of a challenge by its headers. The headers are a map on names with their case, so
a document has them in an order of its own, and of the entries that differ in case alone the
first one met is read. -/
namespace BrowserHive.Worker

abbrev HeaderMap := List (String × String)

def named (name : String) (entry : String × String) : Bool := asciiLower entry.1.toList = asciiLower name.toList

/-- Whether a header's value is the one of a rule; one of them, if the header was repeated. -/
def accepts (expected : Option String) (value : String) : Bool :=
  match expected with
  | none => true
  | some expected => (value.toList.splitOn '\n').any fun v =>
      asciiLower (Text.trim v) = asciiLower (Text.trim expected.toList)

structure HeaderChallengeDetector where
  rules : List (String × Option String)

def HeaderChallengeDetector.isChallenge (detector : HeaderChallengeDetector) : ChallengeDetector := fun doc =>
  detector.rules.any fun (name,expected) => (doc.header name).any (accepts expected)

namespace HeaderChallengeDetector

variable {detector : HeaderChallengeDetector} {doc : MainDocument} {entries order : HeaderMap}

/-- What the rule is about: its header, with its value if it has one. -/
def flags (rule : String × Option String) (entry : String × String) : Bool :=
  named rule.1 entry && accepts rule.2 entry.2

def Carries (detector : HeaderChallengeDetector) (entries : HeaderMap) : Prop :=
  ∃ rule ∈ detector.rules, ∃ entry ∈ entries, flags rule entry = true

/-- Whichever entry is read for a rule's header, one of the rules for that header is met. -/
def Agreed (detector : HeaderChallengeDetector) (entries : HeaderMap) (name : String) : Prop :=
  (∃ entry ∈ entries, named name entry = true) ∧
  ∀ entry ∈ entries, named name entry = true → ∃ rule ∈ detector.rules, flags rule entry = true

theorem isChallenge_iff : detector.isChallenge doc = true ↔
    ∃ rule ∈ detector.rules, ∃ entry, doc.headers.find? (named rule.1) = some entry ∧ accepts rule.2 entry.2 = true := by
  have read (rule : String × Option String) : (doc.header rule.1).any (accepts rule.2) = true ↔
      ∃ entry, doc.headers.find? (named rule.1) = some entry ∧ accepts rule.2 entry.2 = true := by
    change ((doc.headers.find? (named rule.1)).map Prod.snd).any (accepts rule.2) = true ↔ _
    cases doc.headers.find? (named rule.1) <;> simp
  simp only [isChallenge,List.any_eq_true]
  exact exists_congr fun rule => and_congr_right fun _ => read rule

/-- A document is only flagged for what it carries. -/
theorem carries_of_isChallenge (flagged : detector.isChallenge doc = true) : detector.Carries doc.headers := by
  obtain ⟨rule,member,entry,found,accepted⟩ := isChallenge_iff.mp flagged
  refine ⟨rule,member,entry,List.mem_of_find?_eq_some found,?_⟩
  rw [flags,List.find?_some found,accepted]
  rfl

theorem named_trans (first : named name entry = true) (second : named other entry = true) :
    ∀ e, named name e = named other e := by
  intro e
  simp only [named,decide_eq_true_eq] at first second
  simp only [named,← first,← second]

/-- The entry read for a header the rules agree on meets one of them. -/
theorem isChallenge_of_agreed (agreed : detector.Agreed doc.headers name) : detector.isChallenge doc = true := by
  obtain ⟨⟨held,listed,named_⟩,all⟩ := agreed
  cases found : doc.headers.find? (named name) with
  | none => exact absurd named_ (List.find?_eq_none.mp found held listed)
  | some entry =>
    obtain ⟨rule,member,met⟩ := all entry (List.mem_of_find?_eq_some found) (List.find?_some found)
    obtain ⟨other,accepted⟩ := Bool.and_eq_true_iff.mp met
    have same : named name = named rule.1 := funext (named_trans (List.find?_some found) other)
    exact isChallenge_iff.mpr ⟨rule,member,entry,same ▸ found,accepted⟩

def misleading (detector : HeaderChallengeDetector) (entries : HeaderMap) : HeaderMap :=
  let met := fun entry => detector.rules.any fun rule => flags rule entry
  entries.filter (fun entry => !met entry) ++ entries.filter met

theorem misleading_perm : (detector.misleading entries).Perm entries :=
  (List.perm_append_comm ..).trans (List.filter_append_perm ..)

/-- Where the rules agree on no header that is there, an order hides all that are met. -/
theorem misleading_unflagged (same : doc.headers = detector.misleading entries)
    (split_ : ∀ rule ∈ detector.rules, ¬detector.Agreed entries rule.1) : detector.isChallenge doc = false := by
  rw [Bool.eq_false_iff]
  intro flagged
  obtain ⟨rule,member,entry,found,accepted⟩ := isChallenge_iff.mp flagged
  have name : named rule.1 entry = true := List.find?_some found
  have met : flags rule entry = true := by rw [flags,name,accepted]; rfl
  have listed : entry ∈ entries := misleading_perm.mem_iff.mp (same ▸ List.mem_of_find?_eq_some found)
  refine split_ rule member ⟨⟨entry,listed,name⟩,fun other there named_ => ?_⟩
  by_contra unmet
  -- such an entry stands in front of all that meet a rule, so one that meets none is found
  have front : other ∈ entries.filter fun entry => !detector.rules.any fun rule => flags rule entry := by
    refine List.mem_filter.mpr ⟨there,?_⟩
    simpa using unmet
  cases first : (entries.filter fun entry => !detector.rules.any fun rule => flags rule entry).find? (named rule.1) with
  | none => exact absurd named_ (List.find?_eq_none.mp first other front)
  | some e =>
    rw [same,misleading,List.find?_append,first,Option.some_or] at found
    obtain rfl := Option.some.inj found
    have none_ := (List.mem_filter.mp (List.mem_of_find?_eq_some first)).2
    rw [Bool.not_eq_true',List.any_eq_false] at none_
    exact none_ rule member met

end HeaderChallengeDetector

/-- Flagged for what it carries, however the map of its headers is ordered. -/
def OrderBlind (detector : HeaderChallengeDetector) (doc : MainDocument) : Prop :=
  (∀ order : HeaderMap, order.Perm doc.headers →
    (detector.isChallenge { doc with headers := order } = true ↔ detector.Carries doc.headers)) ∧
  ∀ order order' : HeaderMap, order.Perm doc.headers → order'.Perm doc.headers →
    detector.isChallenge { doc with headers := order } = detector.isChallenge { doc with headers := order' }

/-- The order does not matter exactly when the document carries nothing the detector looks for,
or the rules agree on a header that it has. -/
theorem header_detection_iff (detector : HeaderChallengeDetector) (doc : MainDocument) :
    OrderBlind detector doc ↔
      (∀ rule ∈ detector.rules, ∀ entry ∈ doc.headers, HeaderChallengeDetector.flags rule entry = false) ∨
      ∃ rule ∈ detector.rules, detector.Agreed doc.headers rule.1 := by
  constructor
  · rintro ⟨exact_,_⟩
    by_contra neither
    obtain ⟨carried,split_⟩ := not_or.mp neither
    have carries : detector.Carries doc.headers := by
      by_contra nothing
      refine carried fun rule member entry listed => ?_
      by_contra met
      exact nothing ⟨rule,member,entry,listed,by simpa using met⟩
    have flagged := (exact_ (detector.misleading doc.headers) HeaderChallengeDetector.misleading_perm).mpr carries
    rw [HeaderChallengeDetector.misleading_unflagged rfl fun rule member agreed => split_ ⟨rule,member,agreed⟩] at flagged
    contradiction
  · intro condition
    have answers (order : HeaderMap) (perm : order.Perm doc.headers) :
        detector.isChallenge { doc with headers := order } = true ↔ detector.Carries doc.headers := by
      constructor
      · intro flagged
        obtain ⟨rule,member,entry,listed,met⟩ := HeaderChallengeDetector.carries_of_isChallenge flagged
        exact ⟨rule,member,entry,perm.mem_iff.mp listed,met⟩
      · rintro ⟨rule,member,entry,listed,met⟩
        rcases condition with nothing | ⟨other,_,⟨held,there,named_⟩,all⟩
        · rw [nothing rule member entry listed] at met
          contradiction
        · exact HeaderChallengeDetector.isChallenge_of_agreed ⟨⟨held,perm.mem_iff.mpr there,named_⟩,
            fun entry listed => all entry (perm.mem_iff.mp listed)⟩
    refine ⟨answers,fun order order' perm perm' => ?_⟩
    rw [Bool.eq_iff_iff,answers order perm,answers order' perm']

def twoSpellings : HeaderMap := [("Server","nginx"),("server","challenge")]

/-- The header of the rule is there with its value, and the other spelling is met first. -/
theorem header_detection_misses :
    let detector : HeaderChallengeDetector := ⟨[("server",some "challenge")]⟩
    detector.isChallenge ⟨403,twoSpellings,""⟩ = false ∧ detector.Carries twoSpellings ∧
      detector.isChallenge ⟨403,twoSpellings.reverse,""⟩ = true ∧ ¬OrderBlind detector ⟨403,twoSpellings,""⟩ := by
  have missed : HeaderChallengeDetector.isChallenge ⟨[("server",some "challenge")]⟩ ⟨403,twoSpellings,""⟩ = false := by
    decide
  have found : HeaderChallengeDetector.isChallenge ⟨[("server",some "challenge")]⟩ ⟨403,twoSpellings.reverse,""⟩ = true := by
    decide
  refine ⟨missed,⟨("server",some "challenge"),by decide,("server","challenge"),by decide,by decide⟩,found,?_⟩
  rintro ⟨_,same⟩
  have equal := same twoSpellings twoSpellings.reverse (List.Perm.refl _) (List.reverse_perm _)
  rw [missed,found] at equal
  contradiction

end BrowserHive.Worker
