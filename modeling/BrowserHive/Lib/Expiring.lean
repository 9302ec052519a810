import Mathlib.Algebra.GroupWithZero.Nat
import Mathlib.Logic.Function.Basic
import BrowserHive.Lib.Transition

/-! A map whose entries last for a time to live after each use. What has outlived it may be
swept out at any time: until then it can still be found, and used again. -/
namespace Expiring

open Transition

universe u v

abbrev Store (κ : Type u) (ν : Type v) := κ → Option (ν × Nat)

/-- What is done with the map; a `get` with what it found. -/
inductive Event (κ : Type u) (ν : Type v) where
  | wait (elapsed : Nat)
  | put (k : κ) (value : ν)
  | get (k : κ) (found : Option ν)
  | drop (k : κ)
  deriving DecidableEq, Repr

/-- What was put and not taken out since, with its last use. -/
structure Expected (κ : Type u) (ν : Type v) where
  now : Nat
  used : Store κ ν

variable {κ : Type u} {ν : Type v} [DecidableEq κ] [DecidableEq ν]

namespace Expected

def set (s : Expected κ ν) (k : κ) (entry : Option (ν × Nat)) : Expected κ ν :=
  { s with used := Function.update s.used k entry }

/-- What is expected is found, or is gone after its time to live; nothing else is found. -/
def step (ttl : Nat) (s : Expected κ ν) : Event κ ν → Option (Expected κ ν)
  | .wait elapsed => some { s with now := s.now + elapsed }
  | .put k value => some (s.set k (some (value,s.now)))
  | .drop k => some (s.set k none)
  | .get k found =>
    match s.used k,found with
    | none,none => some s
    | none,some _ => none
    | some (_,used),none => if ttl ≤ s.now - used then some (s.set k none) else none
    | some (value,_),some other => if value = other then some (s.set k (some (value,s.now))) else none

end Expected

def machine (κ : Type u) (ν : Type v) [DecidableEq κ] [DecidableEq ν] (ttl : Nat) :
    Machine (Expected κ ν) (Event κ ν) := ⟨⟨0,fun _ => none⟩,Expected.step ttl⟩

namespace Event

def elapsed : Event κ ν → Nat
  | .wait elapsed => elapsed
  | _ => 0

def key : Event κ ν → Option κ
  | .wait _ => none
  | .put k _ | .get k _ | .drop k => some k

/-- The event leaves this value in use under this key. -/
def Uses (k : κ) (value : ν) (e : Event κ ν) : Prop := e = .put k value ∨ e = .get k (some value)

end Event

def elapsed (events : List (Event κ ν)) : Nat := (events.map Event.elapsed).sum

/-- A store that holds what is expected, but for entries that have outlived their time. -/
structure Held (ttl : Nat) (s : Expected κ ν) (m : Store κ ν) : Prop where
  sound : ∀ k entry, m k = some entry → s.used k = some entry
  live : ∀ k value used, s.used k = some (value,used) → s.now - used < ttl → m k = some (value,used)

namespace Held

variable {ttl : Nat} {s : Expected κ ν} {m : Store κ ν} {k : κ} {value : ν}

omit [DecidableEq κ] [DecidableEq ν] in
theorem wait (held : Held ttl s m) (elapsed : Nat) : Held ttl { s with now := s.now + elapsed } m := by
  refine ⟨held.sound,fun k value used found recent => held.live k value used found ?_⟩
  simp only at recent
  omega

omit [DecidableEq ν] in
theorem set (held : Held ttl s m) (k : κ) (entry : Option (ν × Nat)) :
    Held ttl (s.set k entry) (Function.update m k entry) := by
  refine ⟨fun other found stored => ?_,fun other value used found recent => ?_⟩
  · by_cases same : other = k
    · subst same
      simpa [Expected.set] using stored
    · simpa [Expected.set,same] using held.sound other found (by simpa [same] using stored)
  · by_cases same : other = k
    · subst same
      simpa [Expected.set] using found
    · simpa [same] using held.live other value used (by simpa [Expected.set,same] using found) recent

theorem hit (held : Held ttl s m) (stored : m k = some (value,used)) :
    Expected.step ttl s (.get k (some value)) = some (s.set k (some (value,s.now))) := by
  simp [Expected.step,held.sound k _ stored]

theorem miss (held : Held ttl s m) (missing : m k = none) :
    ∃ s', Expected.step ttl s (.get k none) = some s' ∧ Held ttl s' m := by
  cases expected : s.used k with
  | none => exact ⟨s,by simp [Expected.step,expected],held⟩
  | some entry =>
    obtain ⟨value,used⟩ := entry
    have outlived : ttl ≤ s.now - used := by
      refine Nat.le_of_not_lt fun recent => ?_
      rw [held.live k value used expected recent] at missing
      cases missing
    refine ⟨s.set k none,by simp [Expected.step,expected,outlived],?_⟩
    have dropped := held.set k none
    rwa [Function.update_eq_self_iff.mpr missing.symm] at dropped

omit [DecidableEq κ] [DecidableEq ν] in
theorem sweep (held : Held ttl s m) (stays : ∀ k value used, m k = some (value,used) → s.now - used < ttl →
    swept k = some (value,used)) (old : ∀ k entry, swept k = some entry → m k = some entry) : Held ttl s swept :=
  ⟨fun k entry stored => held.sound k entry (old k entry stored),
    fun k value used found recent => stays k value used (held.live k value used found recent) recent⟩

end Held

section Recent

variable {ttl : Nat} {s t : Expected κ ν} {k : κ} {value : ν} {e : Event κ ν}

theorem step_now (taken : Expected.step ttl s e = some t) : t.now = s.now + e.elapsed := by
  cases e with
  | wait | put | drop => exact Option.some.inj taken ▸ rfl
  | get k found =>
    simp only [Expected.step] at taken
    split at taken
    · exact Option.some.inj taken ▸ rfl
    · contradiction
    · split at taken
      · exact Option.some.inj taken ▸ rfl
      · contradiction
    · split at taken
      · exact Option.some.inj taken ▸ rfl
      · contradiction

theorem step_other (other : e.key ≠ some k) (taken : Expected.step ttl s e = some t) : t.used k = s.used k := by
  have apart (name : κ) (same : e.key = some name) : k ≠ name := fun equal => other (equal ▸ same)
  cases e with
  | wait => exact Option.some.inj taken ▸ rfl
  | put name | drop name =>
    obtain rfl := Option.some.inj taken
    exact Function.update_of_ne (apart name rfl) _ _
  | get name found =>
    simp only [Expected.step] at taken
    split at taken
    · exact Option.some.inj taken ▸ rfl
    · contradiction
    · split at taken
      · obtain rfl := Option.some.inj taken
        exact Function.update_of_ne (apart name rfl) _ _
      · contradiction
    · split at taken
      · obtain rfl := Option.some.inj taken
        exact Function.update_of_ne (apart name rfl) _ _
      · contradiction

theorem step_uses (uses : e.Uses k value) (taken : Expected.step ttl s e = some t) : t.used k = some (value,t.now) := by
  rcases uses with rfl | rfl
  · obtain rfl := Option.some.inj taken
    exact Function.update_self ..
  · simp only [Expected.step] at taken
    split at taken
    · next absurd_ => cases absurd_
    · contradiction
    · next absurd_ => cases absurd_
    · next name used other found same =>
      split at taken
      · obtain rfl := Option.some.inj taken
        obtain rfl := Option.some.inj same
        next equal => exact equal ▸ Function.update_self ..
      · contradiction

theorem exec_other (other : ∀ e ∈ events, Event.key e ≠ some k)
    (ran : (machine κ ν ttl).exec events s = some t) : t.used k = s.used k ∧ t.now = s.now + elapsed events := by
  induction events generalizing s with
  | nil => exact Option.some.inj ran ▸ ⟨rfl,rfl⟩
  | cons e rest ih =>
    obtain ⟨mid,taken,later⟩ := Option.bind_eq_some_iff.mp ran
    obtain ⟨same,now⟩ := ih (fun e member => other e (List.mem_cons_of_mem _ member)) later
    refine ⟨same.trans (step_other (other e List.mem_cons_self) taken),?_⟩
    rw [now,step_now taken,elapsed,elapsed,List.map_cons,List.sum_cons]
    omega

/-- What was used less than its time to live ago is found, whatever was done to other keys. -/
theorem found_of_recent {before between after : List (Event κ ν)}
    (ran : (machine κ ν ttl).exec (before ++ e :: between ++ .get k found :: after) s = some t)
    (uses : e.Uses k value) (other : ∀ e ∈ between, Event.key e ≠ some k) (recent : elapsed between < ttl) :
    found = some value := by
  rw [Machine.exec_append,Machine.exec_append] at ran
  obtain ⟨s₁,ran₁,later⟩ := Option.bind_eq_some_iff.mp ran
  obtain ⟨s₀,_,first⟩ := Option.bind_eq_some_iff.mp ran₁
  obtain ⟨mid,used,waits⟩ := Option.bind_eq_some_iff.mp first
  obtain ⟨last,got,_⟩ := Option.bind_eq_some_iff.mp later
  obtain ⟨same,now⟩ := exec_other other waits
  rw [step_uses uses used] at same
  simp only [machine,Expected.step,same,now] at got
  cases found with
  | none => simp [Nat.not_le.mpr recent] at got
  | some other =>
    simp only at got
    split at got
    · next equal => exact congrArg some equal.symm
    · contradiction

end Recent

end Expiring
