import Mathlib.Data.Finset.Card
import Mathlib.Data.Finset.Dedup
import BrowserHive.Context

/-! The origins a context remembers that refused it, over any run of the two calls that work
on them: how long a quarantine is reported, and what makes a context forget one early. -/
namespace BrowserHive

/-- `quarantined_until` with what it does to the map: an expired entry it meets is removed. -/
def BrowserContext.askQuarantine (context : BrowserContext) (now : Nat) (origin : String) :
    Option Nat × BrowserContext :=
  match context.blockedOrigins.find? (fun entry => entry.1 == origin) with
  | some (_,deadline) =>
    if deadline > now then (some deadline,context)
    else (none,{ context with
      blockedOrigins := context.blockedOrigins.filter (fun entry => entry.1 != origin) })
  | none => (none,context)

theorem BrowserContext.askQuarantine_answer (context : BrowserContext) (now : Nat) (origin : String) :
    (context.askQuarantine now origin).1 = context.quarantinedUntil now origin := by
  unfold askQuarantine quarantinedUntil
  cases found : context.blockedOrigins.find? fun entry => entry.1 == origin with
  | none => simp
  | some entry => by_cases live : entry.2 > now <;> simp [live]

namespace Quarantine

inductive Op where
  | quarantine (origin : String)
  | ask (origin : String)
  deriving DecidableEq, Repr

structure Call where
  time : Nat
  op : Op
  deriving DecidableEq, Repr

def replay (cooldown : Nat) (context : BrowserContext) : List Call → BrowserContext
  | [] => context
  | ⟨now,.quarantine origin⟩ :: earlier =>
    (replay cooldown context earlier).quarantineOrigin now origin cooldown
  | ⟨now,.ask origin⟩ :: earlier => ((replay cooldown context earlier).askQuarantine now origin).2

def latest (origin : String) : List Call → Option (Nat × List String)
  | [] => none
  | ⟨now,.quarantine other⟩ :: earlier =>
    if other = origin then some (now,[])
    else (latest origin earlier).map fun (since,others) => (since,other :: others)
  | ⟨_,.ask _⟩ :: earlier => latest origin earlier

def Increasing (calls : List Call) : Prop := calls.Pairwise fun later earlier => earlier.time < later.time

instance : DecidablePred Increasing := fun calls =>
  inferInstanceAs (Decidable (calls.Pairwise fun later earlier => earlier.time < later.time))

section Latest

variable {calls : List Call}

theorem latest_called (last : latest origin calls = some (since,others)) : ∃ call ∈ calls, call.time = since := by
  induction calls generalizing others with
  | nil => contradiction
  | cons call earlier ih =>
    obtain ⟨now,op⟩ := call
    cases op with
    | ask asked =>
      obtain ⟨call,member,same⟩ := ih last
      exact ⟨call,List.mem_cons_of_mem _ member,same⟩
    | quarantine other =>
      rw [latest] at last
      split at last
      · obtain ⟨rfl,_⟩ := Prod.mk.inj (Option.some.inj last)
        exact ⟨_,List.mem_cons_self,rfl⟩
      · obtain ⟨⟨_,before⟩,found,same⟩ := Option.map_eq_some_iff.mp last
        obtain ⟨rfl,_⟩ := Prod.mk.inj same
        obtain ⟨call,member,same⟩ := ih found
        exact ⟨call,List.mem_cons_of_mem _ member,same⟩

/-- An origin quarantined later than another is among those quarantined since. -/
theorem mem_since (increasing : Increasing calls) (first : latest a calls = some (since,others))
    (second : latest b calls = some (later,rest)) (order : since < later) : b ∈ others := by
  induction calls generalizing others rest with
  | nil => contradiction
  | cons call earlier ih =>
    obtain ⟨before,sorted⟩ := List.pairwise_cons.mp increasing
    obtain ⟨now,op⟩ := call
    cases op with
    | ask asked => exact ih sorted first second
    | quarantine other =>
      rw [latest] at first second
      split at first
      · obtain ⟨rfl,_⟩ := Prod.mk.inj (Option.some.inj first)
        split at second
        · obtain ⟨rfl,_⟩ := Prod.mk.inj (Option.some.inj second)
          exact absurd order (Nat.lt_irrefl _)
        · obtain ⟨⟨_,_⟩,found,same⟩ := Option.map_eq_some_iff.mp second
          obtain ⟨rfl,_⟩ := Prod.mk.inj same
          obtain ⟨call,member,rfl⟩ := latest_called found
          exact absurd order (Nat.lt_asymm (before call member))
      · obtain ⟨⟨_,_⟩,found,same⟩ := Option.map_eq_some_iff.mp first
        obtain ⟨rfl,rfl⟩ := Prod.mk.inj same
        split at second
        · next here => exact here ▸ List.mem_cons_self
        · obtain ⟨⟨_,_⟩,found',same⟩ := Option.map_eq_some_iff.mp second
          obtain ⟨rfl,_⟩ := Prod.mk.inj same
          exact List.mem_cons_of_mem _ (ih sorted found found')

end Latest

theorem earliestBlock_cons (sorted : (entry :: rest).Pairwise (fun a b : String × Nat => a.2 < b.2)) :
    earliestBlock (entry :: rest) = some entry := by
  have later := (List.pairwise_cons.mp sorted).1
  clear sorted
  induction rest with
  | nil => rfl
  | cons e more ih =>
    obtain ⟨head,tail⟩ := List.forall_mem_cons.mp later
    have stays := ih tail
    simp only [earliestBlock,List.foldl_cons,if_neg (Nat.lt_asymm head)] at stays ⊢
    exact stays

/-- The calls account for the entries: each is the latest quarantine of its origin, and a
latest quarantine without an entry has ended or was followed by enough others. -/
structure Remembers (cooldown : Nat) (calls : List Call) (blocked : List (String × Nat)) : Prop where
  sorted : blocked.Pairwise fun a b => a.2 < b.2
  distinct : (blocked.map Prod.fst).Nodup
  bounded : blocked.length ≤ maxBlockedOrigins
  stamped : ∀ entry ∈ blocked, ∃ since others,
    latest entry.1 calls = some (since,others) ∧ entry.2 = since + cooldown
  kept : ∀ origin since others, latest origin calls = some (since,others) →
    (origin,since + cooldown) ∈ blocked ∨ (∃ call ∈ calls, since + cooldown ≤ call.time) ∨
    maxBlockedOrigins ≤ others.toFinset.card

section Steps

variable {cooldown : Nat} {calls : List Call} {blocked : List (String × Nat)}

theorem Remembers.initial : Remembers cooldown [] [] where
  sorted := List.Pairwise.nil
  distinct := List.nodup_nil
  bounded := Nat.zero_le _
  stamped := by simp
  kept _ _ _ last := by contradiction

theorem Remembers.asked (remembers : Remembers cooldown calls blocked) (now : Nat) (origin : String) :
    Remembers cooldown (⟨now,.ask origin⟩ :: calls) blocked where
  sorted := remembers.sorted
  distinct := remembers.distinct
  bounded := remembers.bounded
  stamped := remembers.stamped
  kept other since others last := by
    rcases remembers.kept other since others last with here | ⟨call,member,over_⟩ | many
    · exact .inl here
    · exact .inr (.inl ⟨call,List.mem_cons_of_mem _ member,over_⟩)
    · exact .inr (.inr many)

/-- Entries may be dropped once they have ended, or when enough others came after them. -/
theorem Remembers.drop (remembers : Remembers cooldown calls blocked) (kept : left.Sublist blocked)
    (dropped : ∀ entry ∈ blocked, entry ∉ left → (∃ call ∈ calls, entry.2 ≤ call.time) ∨
      ∀ since others, latest entry.1 calls = some (since,others) → maxBlockedOrigins ≤ others.toFinset.card) :
    Remembers cooldown calls left where
  sorted := remembers.sorted.sublist kept
  distinct := remembers.distinct.sublist (kept.map Prod.fst)
  bounded := Nat.le_trans kept.length_le remembers.bounded
  stamped entry member := remembers.stamped entry (kept.subset member)
  kept origin since others last := by
    rcases remembers.kept origin since others last with here | gone
    · by_cases stays : (origin,since + cooldown) ∈ left
      · exact .inl stays
      · rcases dropped _ here stays with ended | many
        · exact .inr (.inl ended)
        · exact .inr (.inr (many since others last))
    · exact .inr gone

theorem Remembers.unique (remembers : Remembers cooldown calls blocked) (a : entry ∈ blocked) (b : other ∈ blocked)
    (same : entry.1 = other.1) : entry = other :=
  List.inj_on_of_nodup_map remembers.distinct a b same

/-- The first of some entries was followed by the others, and by a quarantine of a new origin. -/
theorem Remembers.followed (remembers : Remembers cooldown calls blocked) (increasing : Increasing calls)
    (kept : (entry :: rest).Sublist blocked) (last : latest entry.1 calls = some (since,others))
    (unknown : origin ∉ blocked.map Prod.fst) : rest.length + 1 ≤ (origin :: others).toFinset.card := by
  obtain ⟨later,_⟩ := List.pairwise_cons.mp (remembers.sorted.sublist kept)
  obtain ⟨_,distinct⟩ := List.nodup_cons.mp (remembers.distinct.sublist (kept.map Prod.fst))
  have fresh : origin ∉ rest.map Prod.fst := fun inside =>
    unknown ((kept.map Prod.fst).subset (List.mem_cons_of_mem _ inside))
  obtain ⟨_,_,found,ends⟩ := remembers.stamped entry (kept.subset List.mem_cons_self)
  obtain ⟨same,_⟩ := Prod.mk.inj (Option.some.inj (found.symm.trans last))
  have among : (origin :: rest.map Prod.fst).toFinset ⊆ (origin :: others).toFinset := by
    intro o member
    rcases List.mem_cons.mp (List.mem_toFinset.mp member) with rfl | quarantined
    · exact List.mem_toFinset.mpr List.mem_cons_self
    · obtain ⟨e,inside,rfl⟩ := List.mem_map.mp quarantined
      obtain ⟨at_,_,found',ends'⟩ := remembers.stamped e (kept.subset (List.mem_cons_of_mem _ inside))
      have order := later e inside
      have since_ := mem_since increasing last found' (by omega)
      exact List.mem_toFinset.mpr (List.mem_cons_of_mem _ since_)
  have counted : (origin :: rest.map Prod.fst).toFinset.card = rest.length + 1 := by
    rw [List.toFinset_card_of_nodup (List.nodup_cons.mpr ⟨fresh,distinct⟩),List.length_cons,List.length_map]
  exact counted ▸ Finset.card_le_card among

/-- A quarantine makes room for itself and is stamped after all others. -/
theorem Remembers.stamp (remembers : Remembers cooldown calls blocked)
    (increasing : Increasing (⟨now,.quarantine origin⟩ :: calls)) (kept : left.Sublist blocked)
    (room : left.length < maxBlockedOrigins) (apart : ∀ entry ∈ left, entry.1 ≠ origin)
    (dropped : ∀ entry ∈ blocked, entry ∉ left → entry.1 = origin ∨ entry.2 ≤ now ∨
      ∀ since others, latest entry.1 calls = some (since,others) →
        maxBlockedOrigins ≤ (origin :: others).toFinset.card) :
    Remembers cooldown (⟨now,.quarantine origin⟩ :: calls) (left ++ [(origin,now + cooldown)]) := by
  have before : ∀ entry ∈ left, entry.2 < now + cooldown := by
    intro entry member
    obtain ⟨_,_,found,ends⟩ := remembers.stamped entry (kept.subset member)
    obtain ⟨call,called,rfl⟩ := latest_called found
    have earlier := (List.pairwise_cons.mp increasing).1 call called
    dsimp only at earlier
    omega
  constructor
  case sorted =>
    refine List.pairwise_append.mpr ⟨remembers.sorted.sublist kept,List.pairwise_singleton _ _,?_⟩
    intro entry member new same
    rw [List.mem_singleton.mp same]
    exact before entry member
  case distinct =>
    rw [List.map_append]
    refine List.nodup_append.mpr ⟨remembers.distinct.sublist (kept.map Prod.fst),List.nodup_singleton _,?_⟩
    intro o inside new same
    obtain ⟨entry,member,rfl⟩ := List.mem_map.mp inside
    rw [List.mem_singleton.mp same]
    exact apart entry member
  case bounded =>
    rw [List.length_append,List.length_singleton]
    exact room
  case stamped =>
    intro entry member
    rcases List.mem_append.mp member with old | new
    · obtain ⟨since,others,found,ends⟩ := remembers.stamped entry (kept.subset old)
      refine ⟨since,origin :: others,?_,ends⟩
      rw [latest,if_neg (Ne.symm (apart entry old)),found]
      rfl
    · rw [List.mem_singleton.mp new]
      exact ⟨now,[],if_pos rfl,rfl⟩
  case kept =>
    intro other since others last
    rw [latest] at last
    split at last
    · next same =>
      obtain ⟨rfl,_⟩ := Prod.mk.inj (Option.some.inj last)
      exact .inl (List.mem_append_right _ (by simp [same]))
    · next different =>
      obtain ⟨⟨began,others⟩,found,same⟩ := Option.map_eq_some_iff.mp last
      obtain ⟨rfl,rfl⟩ := Prod.mk.inj same
      rcases remembers.kept other began others found with here | ⟨call,member,ended⟩ | many
      · by_cases stays : (other,began + cooldown) ∈ left
        · exact .inl (List.mem_append_left _ stays)
        · rcases dropped _ here stays with same | ended | many
          · exact absurd same.symm different
          · exact .inr (.inl ⟨_,List.mem_cons_self,ended⟩)
          · exact .inr (.inr (many _ others found))
      · exact .inr (.inl ⟨call,List.mem_cons_of_mem _ member,ended⟩)
      · refine .inr (.inr (Nat.le_trans many (Finset.card_le_card ?_)))
        rw [List.toFinset_cons]
        exact Finset.subset_insert _ _

/-- When nothing has expired, room is made at the cost of an origin followed by enough others. -/
theorem Remembers.crowded (remembers : Remembers cooldown calls blocked) (increasing : Increasing calls)
    {live : List (String × Nat)} (still : live.Sublist blocked) (full : maxBlockedOrigins ≤ live.length)
    (unknown : origin ∉ blocked.map Prod.fst) :
    ∃ first, earliestBlock live = some first ∧
      (live.filter (fun entry => entry.1 != first.1)).length < maxBlockedOrigins ∧
      ∀ entry ∈ live, entry ∉ live.filter (fun entry => entry.1 != first.1) →
        ∀ since others, latest entry.1 calls = some (since,others) →
          maxBlockedOrigins ≤ (origin :: others).toFinset.card := by
  cases live with
  | nil => exact absurd full (by decide)
  | cons first rest =>
    refine ⟨first,earliestBlock_cons (remembers.sorted.sublist still),?_,?_⟩
    · have shorter : ((first :: rest).filter (fun entry => entry.1 != first.1)).length < (first :: rest).length :=
        List.length_filter_lt_length_iff_exists.mpr ⟨first,List.mem_cons_self,by simp⟩
      exact Nat.lt_of_lt_of_le shorter (Nat.le_trans still.length_le remembers.bounded)
    · intro entry listed gone since others last
      have same : entry.1 = first.1 := by
        by_contra different
        exact gone (List.mem_filter.mpr ⟨listed,by simpa using different⟩)
      exact Nat.le_trans full (remembers.followed increasing still (same ▸ last) unknown)

/-- Quarantining an origin: the expired make room first, and only if none is the one whose
quarantine ends first. -/
theorem Remembers.quarantined {context : BrowserContext} (remembers : Remembers cooldown calls context.blockedOrigins)
    (increasing : Increasing (⟨now,.quarantine origin⟩ :: calls)) :
    Remembers cooldown (⟨now,.quarantine origin⟩ :: calls)
      (context.quarantineOrigin now origin cooldown).blockedOrigins := by
  have sorted := (List.pairwise_cons.mp increasing).2
  have bounded := remembers.bounded
  have apart (room : List (String × Nat)) : ∀ entry ∈ room.filter (fun entry => entry.1 != origin), entry.1 ≠ origin :=
    fun entry member => by simpa using (List.mem_filter.mp member).2
  have asked (room : List (String × Nat)) : ∀ entry ∈ room,
      entry ∉ room.filter (fun entry => entry.1 != origin) → entry.1 = origin :=
    fun entry here gone => by simpa [here] using gone
  simp only [BrowserContext.quarantineOrigin]
  generalize context.blockedOrigins = blocked at remembers bounded
  by_cases known : blocked.any (fun entry => entry.1 == origin) = true
  · simp only [known,Bool.not_true,Bool.false_and,Bool.false_eq_true,if_false]
    obtain ⟨old,member,same⟩ := List.any_eq_true.mp known
    refine remembers.stamp increasing List.filter_sublist ?_ (apart _) fun entry here gone => .inl (asked _ entry here gone)
    refine Nat.lt_of_lt_of_le (List.length_filter_lt_length_iff_exists.mpr ⟨old,member,?_⟩) bounded
    simpa using same
  have unknown : origin ∉ blocked.map Prod.fst := by
    intro inside
    obtain ⟨entry,member,same⟩ := List.mem_map.mp inside
    exact known (List.any_eq_true.mpr ⟨entry,member,by simpa using same⟩)
  by_cases full : maxBlockedOrigins ≤ blocked.length
  · simp only [known,full,Bool.not_false,Bool.true_and,decide_true,if_true]
    have expired : ∀ entry ∈ blocked, entry ∉ blocked.filter (fun entry => decide (entry.2 > now)) → entry.2 ≤ now :=
      fun entry here gone => by simpa [here] using gone
    have still : (blocked.filter (fun entry => decide (entry.2 > now))).Sublist blocked := List.filter_sublist
    generalize blocked.filter (fun entry => decide (entry.2 > now)) = live at expired still
    by_cases crowded : maxBlockedOrigins ≤ live.length
    · simp only [ge_iff_le,crowded,if_true]
      obtain ⟨first,earliest,room,evicted⟩ := remembers.crowded sorted still crowded unknown
      simp only [earliest]
      refine remembers.stamp increasing (List.filter_sublist.trans (List.filter_sublist.trans still)) ?_ (apart _) ?_
      · exact Nat.lt_of_le_of_lt (List.length_filter_le ..) room
      · intro entry here gone
        by_cases stays : entry ∈ live.filter (fun entry => entry.1 != first.1)
        · exact .inl (asked _ entry stays gone)
        · by_cases listed : entry ∈ live
          · exact .inr (.inr (evicted entry listed stays))
          · exact .inr (.inl (expired entry here listed))
    · simp only [ge_iff_le,crowded,if_false]
      refine remembers.stamp increasing (List.filter_sublist.trans still) ?_ (apart _) ?_
      · exact Nat.lt_of_le_of_lt (List.length_filter_le ..) (Nat.lt_of_not_le crowded)
      · intro entry here gone
        by_cases listed : entry ∈ live
        · exact .inl (asked _ entry listed gone)
        · exact .inr (.inl (expired entry here listed))
  · simp only [known,full,Bool.not_false,Bool.true_and,decide_false,Bool.false_eq_true,if_false]
    refine remembers.stamp increasing List.filter_sublist ?_ (apart _) fun entry here gone => .inl (asked _ entry here gone)
    exact Nat.lt_of_le_of_lt (List.length_filter_le ..) (Nat.lt_of_not_le full)

/-- A question drops at most the entry it is about, and only an expired one. -/
theorem Remembers.answered {context : BrowserContext} (remembers : Remembers cooldown calls context.blockedOrigins)
    (now : Nat) (origin : String) : Remembers cooldown (⟨now,.ask origin⟩ :: calls)
      (context.askQuarantine now origin).2.blockedOrigins := by
  have asked := remembers.asked now origin
  unfold BrowserContext.askQuarantine
  split
  · next key deadline found =>
    split
    · exact asked
    · next ended =>
      refine asked.drop List.filter_sublist fun entry here gone => .inl ⟨_,List.mem_cons_self,?_⟩
      have here' := List.mem_of_find?_eq_some found
      have key_ : key = origin := by simpa using List.find?_some found
      have same : entry.1 = key := by simpa [here,key_] using gone
      rw [remembers.unique here here' same]
      exact Nat.le_of_not_lt ended
  · exact asked

end Steps

variable {cooldown : Nat} {calls : List Call} {context : BrowserContext}

theorem remembers (new : context.blockedOrigins = []) (increasing : Increasing calls) :
    Remembers cooldown calls (replay cooldown context calls).blockedOrigins := by
  induction calls with
  | nil => exact new ▸ Remembers.initial
  | cons call earlier ih =>
    have before := ih (List.pairwise_cons.mp increasing).2
    obtain ⟨now,op⟩ := call
    cases op with
    | quarantine origin => exact before.quarantined increasing
    | ask origin => exact before.answered now origin

/-- What is reported is an entry that has not ended. -/
theorem quarantinedUntil_iff (context : BrowserContext) (distinct : (context.blockedOrigins.map Prod.fst).Nodup) :
    context.quarantinedUntil now origin = some deadline ↔ (origin,deadline) ∈ context.blockedOrigins ∧ now < deadline := by
  unfold BrowserContext.quarantinedUntil
  cases found : context.blockedOrigins.find? fun entry => entry.1 == origin with
  | none =>
    have missing := List.find?_eq_none.mp found
    simp only [reduceCtorEq,false_iff,not_and]
    exact fun here => absurd (by simp) (missing _ here)
  | some entry =>
    have here := List.mem_of_find?_eq_some found
    have same : entry.1 = origin := by simpa using List.find?_some found
    simp only [Option.ite_none_right_eq_some,Option.some.injEq]
    constructor
    · rintro ⟨live,rfl⟩
      exact ⟨same ▸ here,live⟩
    · rintro ⟨listed,live⟩
      obtain rfl := List.inj_on_of_nodup_map distinct here listed same
      exact ⟨live,rfl⟩

/-- Over any run of calls at increasing times a context remembers a bounded number of
origins, reports an origin only while its latest quarantine lasts and until that ends, and
does report it unless as many other origins were quarantined since as it can remember. -/
theorem quarantine_remembered (created : Nat) (tab cdpContextId : Option Nat) (cooldown : Nat) (calls : List Call)
    (increasing : Increasing (⟨now,.ask origin⟩ :: calls)) :
    (replay cooldown (.new created tab cdpContextId) calls).blockedOrigins.length ≤ maxBlockedOrigins ∧
    (∀ deadline, ((replay cooldown (.new created tab cdpContextId) calls).askQuarantine now origin).1 = some deadline →
      ∃ since others, latest origin calls = some (since,others) ∧ deadline = since + cooldown ∧ now < deadline) ∧
    ∀ since others, latest origin calls = some (since,others) → now < since + cooldown →
      others.toFinset.card < maxBlockedOrigins →
      ((replay cooldown (.new created tab cdpContextId) calls).askQuarantine now origin).1 = some (since + cooldown) := by
  obtain ⟨earlier,sorted⟩ := List.pairwise_cons.mp increasing
  have holds : Remembers cooldown calls (replay cooldown (.new created tab cdpContextId) calls).blockedOrigins :=
    remembers rfl sorted
  simp only [BrowserContext.askQuarantine_answer,quarantinedUntil_iff _ holds.distinct]
  refine ⟨holds.bounded,?_,?_⟩
  · rintro deadline ⟨here,live⟩
    obtain ⟨since,others,last,rfl⟩ := holds.stamped _ here
    exact ⟨since,others,last,rfl,live⟩
  · intro since others last live few
    rcases holds.kept origin since others last with here | ⟨call,called,ended⟩ | many
    · exact ⟨here,live⟩
    · have before := earlier call called
      dsimp only at before
      omega
    · omega

theorem quarantine_remembered_two_origins :
    ((replay 10 (.new 0 none none) [⟨5,.quarantine "b"⟩,⟨3,.quarantine "a"⟩]).askQuarantine 7 "a").1 = some 13 :=
  (quarantine_remembered 0 none none 10 [⟨5,.quarantine "b"⟩,⟨3,.quarantine "a"⟩] (by decide)).2.2 3 ["b"] rfl
    (by decide) (by decide)

end Quarantine

end BrowserHive
