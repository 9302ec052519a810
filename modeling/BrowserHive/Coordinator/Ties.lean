import Mathlib.Order.Interval.Finset.Nat
import BrowserHive.Coordinator.RoundRobin

/-! One choice among the workers of a scope: it depends on which workers are listed, not on
their order, and consecutive values of the counter go round all that tie. -/
namespace BrowserHive.Coordinator

def eligible (scopeWorkers : List WorkerEndpoint) (healthy : List String) : List WorkerEndpoint :=
  let alive := scopeWorkers.filter fun w => w.podName ∈ healthy
  if alive.isEmpty then scopeWorkers else alive

def ties (candidates : List WorkerEndpoint) (freeSlots : WorkerEndpoint → Nat) : List WorkerEndpoint :=
  candidates.filter fun w => candidates.all fun v => freeSlots v ≤ freeSlots w

section Choice

variable {candidates permuted scopeWorkers : List WorkerEndpoint} {freeSlots : WorkerEndpoint → Nat}
  {healthy : List String} {w : WorkerEndpoint}

theorem mem_ties : w ∈ ties candidates freeSlots ↔ w ∈ candidates ∧ ∀ v ∈ candidates, freeSlots v ≤ freeSlots w := by
  simp [ties]

theorem ties_perm (perm : permuted.Perm candidates) : (ties permuted freeSlots).Perm (ties candidates freeSlots) := by
  have same : (fun w => permuted.all fun v => decide (freeSlots v ≤ freeSlots w)) =
      fun w => candidates.all fun v => decide (freeSlots v ≤ freeSlots w) := by
    funext w
    exact perm.all_eq
  unfold ties
  rw [same]
  exact perm.filter _

theorem eligible_perm (healthy : List String) (perm : permuted.Perm scopeWorkers) :
    (eligible permuted healthy).Perm (eligible scopeWorkers healthy) := by
  have alive := perm.filter fun w => decide (w.podName ∈ healthy)
  unfold eligible
  simp only [alive.isEmpty_eq]
  split
  · exact perm
  · exact alive

theorem eligible_nil (healthy : List String) : eligible scopeWorkers healthy = [] ↔ scopeWorkers = [] := by
  dsimp only [eligible]
  split
  · rfl
  · next some_ =>
    have listed : (scopeWorkers.filter fun w => decide (w.podName ∈ healthy)) ≠ [] := by simpa using some_
    refine ⟨fun none_ => absurd none_ listed,?_⟩
    rintro rfl
    exact absurd rfl listed

theorem eligible_sublist : (eligible scopeWorkers healthy).Sublist scopeWorkers := by
  dsimp only [eligible]
  split
  · exact List.Sublist.refl _
  · exact List.filter_sublist

theorem ties_nil (freeSlots : WorkerEndpoint → Nat) : ties candidates freeSlots = [] ↔ candidates = [] := by
  constructor
  · intro none_
    by_contra listed
    obtain ⟨w,member,most⟩ := candidates.toFinset.exists_max_image freeSlots (List.toFinset_nonempty_iff _ |>.mpr listed)
    have tied : w ∈ ties candidates freeSlots :=
      mem_ties.mpr ⟨List.mem_toFinset.mp member,fun v other => most v (List.mem_toFinset.mpr other)⟩
    rw [none_] at tied
    contradiction
  · rintro rfl
    rfl

end Choice

def rotated (candidates : List WorkerEndpoint) (freeSlots : WorkerEndpoint → Nat) : List (WorkerEndpoint × Nat) :=
  ((ties candidates freeSlots).map fun w => (w,freeSlots w)).insertionSort byPodName

section Rotation

variable {candidates permuted scopeWorkers : List WorkerEndpoint} {freeSlots : WorkerEndpoint → Nat}
  {healthy : List String} {w : WorkerEndpoint}

theorem rotated_perm_ties (candidates : List WorkerEndpoint) (freeSlots : WorkerEndpoint → Nat) :
    (rotated candidates freeSlots).Perm ((ties candidates freeSlots).map fun w => (w,freeSlots w)) :=
  List.perm_insertionSort ..

theorem rotated_length : (rotated candidates freeSlots).length = (ties candidates freeSlots).length := by
  rw [(rotated_perm_ties candidates freeSlots).length_eq,List.length_map]

theorem pickMostFree_eq (rotation : Nat) : pickMostFree candidates freeSlots rotation =
    (rotated candidates freeSlots)[rotation % (ties candidates freeSlots).length]? := by
  unfold pickMostFree
  cases max : ((candidates.map fun w => (w,freeSlots w)).map Prod.snd).max? with
  | none =>
    obtain rfl : candidates = [] := by simpa using max
    rfl
  | some best =>
    have tied : ((candidates.map fun w => (w,freeSlots w)).filter fun entry => entry.2 == best) =
        (ties candidates freeSlots).map fun w => (w,freeSlots w) := by
      rw [List.filter_map]
      exact congrArg _ (List.filter_congr fun w => best_eq_all max)
    simp only [max,Option.bind_eq_bind,Option.bind_some,tied]
    rw [← rotated_length]
    rfl

theorem rotated_perm (perm : permuted.Perm candidates) (distinct : (candidates.map WorkerEndpoint.podName).Nodup) :
    rotated permuted freeSlots = rotated candidates freeSlots := by
  have both : (rotated permuted freeSlots).Perm (rotated candidates freeSlots) :=
    (rotated_perm_ties permuted freeSlots).trans
      (((ties_perm perm).map _).trans (rotated_perm_ties candidates freeSlots).symm)
  have listed : ∀ entry ∈ rotated candidates freeSlots, entry.1 ∈ candidates ∧ entry.2 = freeSlots entry.1 := by
    intro entry member
    obtain ⟨w,tied,rfl⟩ := List.mem_map.mp ((rotated_perm_ties candidates freeSlots).mem_iff.mp member)
    exact ⟨(mem_ties.mp tied).1,rfl⟩
  refine both.eq_of_pairwise ?_ (List.pairwise_insertionSort ..) (List.pairwise_insertionSort ..)
  intro a b before after below above
  obtain ⟨a_listed,a_slots⟩ := listed a (both.mem_iff.mp before)
  obtain ⟨b_listed,b_slots⟩ := listed b after
  have same : a.1 = b.1 := List.inj_on_of_nodup_map distinct a_listed b_listed (String.le_antisymm below above)
  exact Prod.ext same (by rw [a_slots,b_slots,same])

theorem selectBestWorker_eq (rotation : Nat) : selectBestWorker scopeWorkers healthy freeSlots rotation =
    ((rotated (eligible scopeWorkers healthy) freeSlots)[rotation %
        (ties (eligible scopeWorkers healthy) freeSlots).length]?).map fun picked =>
      ⟨picked.1,picked.2,(scopeWorkers.filter fun w => w.podName ∈ healthy).isEmpty⟩ := by
  rw [← pickMostFree_eq]
  rfl

/-- The places of `n` consecutive counters are all the places there are. -/
theorem consecutive_places (start n : Nat) : ((List.range' start n).map (· % n)).Perm (List.range n) := by
  apply Multiset.coe_eq_coe.mp
  have places : Multiset.map (· % n) (List.range' start (start + n - start) : Multiset Nat) = Multiset.range n :=
    Nat.multiset_Ico_map_mod start n
  rw [Nat.add_sub_cancel_left] at places
  exact places

theorem picks_perm (candidates : List WorkerEndpoint) (freeSlots : WorkerEndpoint → Nat) (start : Nat) :
    ((List.range' start (ties candidates freeSlots).length).map fun rotation =>
      (rotated candidates freeSlots)[rotation % (ties candidates freeSlots).length]?).Perm
      ((rotated candidates freeSlots).map some) := by
  have places := (consecutive_places start (ties candidates freeSlots).length).map
    fun place => (rotated candidates freeSlots)[place]?
  rw [List.map_map] at places
  refine places.trans (List.Perm.of_eq ?_)
  apply List.ext_getElem
  · rw [List.length_map,List.length_range,List.length_map,rotated_length]
  · intro i _ bound
    rw [List.length_map] at bound
    simp [List.getElem?_eq_getElem bound]

theorem selectBestWorker_none (rotation : Nat) :
    selectBestWorker scopeWorkers healthy freeSlots rotation = none ↔ scopeWorkers = [] := by
  rw [selectBestWorker_eq,Option.map_eq_none_iff,List.getElem?_eq_none_iff,rotated_length]
  constructor
  · intro past
    apply (eligible_nil healthy).mp
    apply (ties_nil freeSlots).mp
    by_contra some_
    have places := Nat.mod_lt rotation (List.length_pos_iff.mpr some_)
    omega
  · intro empty
    rw [(ties_nil freeSlots).mpr ((eligible_nil healthy).mpr empty)]
    exact Nat.zero_le _

theorem selectBestWorker_ties {rotation : Nat}
    (picked : selectBestWorker scopeWorkers healthy freeSlots rotation = some selected) :
    selected.worker ∈ ties (eligible scopeWorkers healthy) freeSlots ∧
    selected.freeSlots = freeSlots selected.worker ∧
    selected.usedFallback = (scopeWorkers.filter fun w => w.podName ∈ healthy).isEmpty := by
  rw [selectBestWorker_eq] at picked
  obtain ⟨entry,found,rfl⟩ := Option.map_eq_some_iff.mp picked
  obtain ⟨w,tied,rfl⟩ := List.mem_map.mp ((rotated_perm_ties _ _).mem_iff.mp (List.mem_of_getElem? found))
  exact ⟨tied,rfl,rfl⟩

theorem selectBestWorker_perm (rotation : Nat) (perm : permuted.Perm scopeWorkers)
    (distinct : (scopeWorkers.map WorkerEndpoint.podName).Nodup) :
    selectBestWorker permuted healthy freeSlots rotation = selectBestWorker scopeWorkers healthy freeSlots rotation := by
  have candidates := eligible_perm healthy perm
  rw [selectBestWorker_eq,selectBestWorker_eq,rotated_perm candidates (distinct.sublist (eligible_sublist.map _)),
    (ties_perm candidates).length_eq,(perm.filter _).isEmpty_eq]

/-- As many turns as there are ties pick each of them once. -/
theorem selectBestWorker_turns (start : Nat) (distinct : (scopeWorkers.map WorkerEndpoint.podName).Nodup)
    (tied : w ∈ ties (eligible scopeWorkers healthy) freeSlots) :
    ((List.range' start (ties (eligible scopeWorkers healthy) freeSlots).length).map fun rotation =>
      (selectBestWorker scopeWorkers healthy freeSlots rotation).map SelectedWorker.worker).count (some w) = 1 := by
  have chosen (rotation : Nat) : (selectBestWorker scopeWorkers healthy freeSlots rotation).map SelectedWorker.worker =
      ((rotated (eligible scopeWorkers healthy) freeSlots)[rotation %
        (ties (eligible scopeWorkers healthy) freeSlots).length]?).map Prod.fst := by
    rw [selectBestWorker_eq,Option.map_map]
    rfl
  have picks : ((List.range' start (ties (eligible scopeWorkers healthy) freeSlots).length).map fun rotation =>
      (selectBestWorker scopeWorkers healthy freeSlots rotation).map SelectedWorker.worker).Perm
      ((ties (eligible scopeWorkers healthy) freeSlots).map some) := by
    have turns := (picks_perm (eligible scopeWorkers healthy) freeSlots start).map (Option.map Prod.fst)
    have workers := (rotated_perm_ties (eligible scopeWorkers healthy) freeSlots).map fun entry => some entry.1
    simp only [List.map_map] at turns workers
    simp only [chosen]
    exact turns.trans workers
  have once : (ties (eligible scopeWorkers healthy) freeSlots).Nodup :=
    (distinct.of_map _).sublist (List.filter_sublist.trans eligible_sublist)
  rw [picks.count_eq]
  exact List.count_eq_one_of_mem (once.map (Option.some_injective _)) (List.mem_map_of_mem tied)

end Rotation

/-- The choice of a worker: one of those with the most free slots among the healthy, the same
whatever order the scope's workers are listed in, each of `n` that tie once in `n` turns. -/
theorem select_best_worker_chooses (scopeWorkers : List WorkerEndpoint) (healthy : List String)
    (freeSlots : WorkerEndpoint → Nat) (distinct : (scopeWorkers.map WorkerEndpoint.podName).Nodup) :
    (∀ rotation, selectBestWorker scopeWorkers healthy freeSlots rotation = none ↔ scopeWorkers = []) ∧
    (∀ rotation selected, selectBestWorker scopeWorkers healthy freeSlots rotation = some selected →
      selected.worker ∈ scopeWorkers ∧ selected.freeSlots = freeSlots selected.worker ∧
      (selected.usedFallback = true ↔ ∀ v ∈ scopeWorkers, v.podName ∉ healthy) ∧
      (selected.usedFallback = false → selected.worker.podName ∈ healthy) ∧
      ∀ v ∈ scopeWorkers, (selected.usedFallback = true ∨ v.podName ∈ healthy) →
        freeSlots v ≤ selected.freeSlots) ∧
    (∀ rotation permuted, permuted.Perm scopeWorkers →
      selectBestWorker permuted healthy freeSlots rotation = selectBestWorker scopeWorkers healthy freeSlots rotation) ∧
    ∀ start, ∀ w ∈ ties (eligible scopeWorkers healthy) freeSlots,
      ((List.range' start (ties (eligible scopeWorkers healthy) freeSlots).length).map fun rotation =>
        (selectBestWorker scopeWorkers healthy freeSlots rotation).map SelectedWorker.worker).count (some w) = 1 := by
  refine ⟨fun rotation => selectBestWorker_none rotation,?_,
    fun rotation permuted perm => selectBestWorker_perm rotation perm distinct,
    fun start w tied => selectBestWorker_turns start distinct tied⟩
  intro rotation selected picked
  obtain ⟨tied,slots,fallback⟩ := selectBestWorker_ties picked
  obtain ⟨listed,most⟩ := mem_ties.mp tied
  refine ⟨eligible_sublist.subset listed,slots,?_,?_,?_⟩
  · rw [fallback]
    simp
  · intro healthy_
    have some_ := fallback.symm.trans healthy_
    simp only [eligible,some_] at listed
    exact of_decide_eq_true (List.mem_filter.mp listed).2
  · intro v member candidate
    rw [slots]
    apply most v
    cases alive : (scopeWorkers.filter fun w => decide (w.podName ∈ healthy)).isEmpty with
    | true => simpa [eligible,alive] using member
    | false =>
      have named : v.podName ∈ healthy := candidate.resolve_left (by simp [fallback,alive])
      simp only [eligible,alive]
      exact List.mem_filter.mpr ⟨member,decide_eq_true named⟩

def idlePod (name : String) (slots : Nat) : WorkerEndpoint := ⟨name,"10.0.0.1",50051,"a",⟨slots,slots,0,0⟩,0,false⟩

/-- Of three pods two tie: in two turns the second of them is picked once. -/
theorem select_best_worker_chooses_in_turn :
    ((List.range' 7 2).map fun rotation =>
      (selectBestWorker [idlePod "a-2" 5,idlePod "a-0" 3,idlePod "a-1" 5] ["a-0","a-1","a-2"]
        InFlight.empty.freeSlots rotation).map SelectedWorker.worker).count (some (idlePod "a-2" 5)) = 1 :=
  (select_best_worker_chooses [idlePod "a-2" 5,idlePod "a-0" 3,idlePod "a-1" 5] ["a-0","a-1","a-2"]
    InFlight.empty.freeSlots (by decide)).2.2.2 7 (idlePod "a-2" 5) (by decide)

end BrowserHive.Coordinator
