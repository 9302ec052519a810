import Mathlib.Data.List.Sort
import BrowserHive.Coordinator.InFlight

/-! Which worker a request is routed to: the one with the most free slots, ties broken by
a counter that advances with every routing decision. -/
namespace BrowserHive.Coordinator

structure SelectedWorker where
  worker : WorkerEndpoint
  freeSlots : Nat
  usedFallback : Bool
  deriving DecidableEq, Repr

/-- The pod order ties are rotated in; discovery does not keep one of its own. -/
def byPodName (a b : WorkerEndpoint × Nat) : Prop := a.1.podName ≤ b.1.podName

instance : DecidableRel byPodName := fun a b => inferInstanceAs (Decidable (a.1.podName ≤ b.1.podName))

/-- Of `candidates`, the worker with the most free slots, ties broken by `rotation`. -/
def pickMostFree (candidates : List WorkerEndpoint) (freeSlots : WorkerEndpoint → Nat)
    (rotation : Nat) : Option (WorkerEndpoint × Nat) := do
  let ranked := candidates.map (fun w => (w,freeSlots w))
  let bestSlots ← (ranked.map Prod.snd).max?
  let tied := (ranked.filter (fun entry => entry.2 == bestSlots)).insertionSort byPodName
  tied[rotation % tied.length]?

def selectBestWorker (scopeWorkers : List WorkerEndpoint) (healthy : List String)
    (freeSlots : WorkerEndpoint → Nat) (rotation : Nat) : Option SelectedWorker :=
  let alive := scopeWorkers.filter (fun w => w.podName ∈ healthy)
  let candidates := if alive.isEmpty then scopeWorkers else alive
  (pickMostFree candidates freeSlots rotation).map
    (fun picked => ⟨picked.1,picked.2,alive.isEmpty⟩)

/-- The pick is one of the candidates, with the free slots it was ranked by. -/
theorem pickMostFree_mem {rotation : Nat} (picked : pickMostFree candidates freeSlots rotation = some (w,slots)) :
    w ∈ candidates ∧ slots = freeSlots w := by
  simp only [pickMostFree,Option.bind_eq_bind,Option.bind_eq_some_iff] at picked
  obtain ⟨best,_,chosen⟩ := picked
  have listed := (List.mem_insertionSort _).mp (List.mem_of_getElem? chosen)
  obtain ⟨v,member,same⟩ := List.mem_map.mp (List.mem_filter.mp listed).1
  obtain ⟨rfl,rfl⟩ := Prod.mk.injEq .. ▸ same
  exact ⟨member,rfl⟩

theorem selectBestWorker_mem {rotation : Nat}
    (picked : selectBestWorker scopeWorkers healthy freeSlots rotation = some selected) :
    selected.worker ∈ scopeWorkers := by
  simp only [selectBestWorker,Option.map_eq_some_iff] at picked
  obtain ⟨⟨w,slots⟩,picked,rfl⟩ := picked
  have member := (pickMostFree_mem picked).1
  split at member
  · exact member
  · exact (List.mem_filter.mp member).1

end BrowserHive.Coordinator
