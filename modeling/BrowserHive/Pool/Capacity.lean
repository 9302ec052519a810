import BrowserHive.Pool.Locking

/-! The pool never holds more than `max_contexts` slots, built and promised together, and
a promise lives exactly as long as the build it was made for. -/
namespace BrowserHive.Pool

open BrowserHive Transition

variable {cfg : Config}

structure CapacityInvariant (cfg : Config) (s : State) : Prop where
  counted : s.pool.pendingCreations = Tasks.weigh Pc.reserves s.tasks
  bounded : s.pool.occupiedSlots ≤ cfg.scope.maxContexts

theorem populate_contexts_length (cfg : Config) (n : Nat) (p : PoolState) :
    (populateInitialContexts cfg n p).contexts.length = p.contexts.length + n ∧
    (populateInitialContexts cfg n p).pendingCreations = p.pendingCreations := by
  induction n generalizing p with
  | zero => exact ⟨rfl,rfl⟩
  | succ n ih =>
    obtain ⟨length,pending⟩ := ih { createNewContext cfg p with contexts := p.contexts ++ [p.fresh] }
    refine ⟨?_,pending⟩
    rw [populateInitialContexts,length]
    simp only [List.length_append,List.length_singleton]
    omega

theorem CapacityInvariant.initial : CapacityInvariant cfg (initial cfg) := by
  cases mode : cfg.scope.sessionMode with
  | reusable =>
    obtain ⟨length,pending⟩ := populate_contexts_length cfg cfg.scope.minContexts PoolState.empty
    have fits := cfg.scope.min_le_max
    simp only [PoolState.empty_contexts,PoolState.empty_pending,List.length_nil] at length pending
    constructor
    · simp [Pool.initial,mode,pending]
    · simp only [Pool.initial,mode,PoolState.occupiedSlots,length,pending]
      omega
  | alwaysNew | dedicated => constructor <;> simp [Pool.initial,mode]

theorem CapacityInvariant.step (locked : LockInvariant s) (valid : CapacityInvariant cfg s)
    (taken : step cfg s action = some t) : CapacityInvariant cfg t := by
  have moves : ∀ (i : Nat) pc pool pc' spawned, s.tasks[i]? = some pc →
      Orderly cfg s.pool s.tasks pc pool pc' spawned →
      CapacityInvariant cfg ⟨pool,s.tasks.set i pc' ++ spawned⟩ := by
    intro i pc pool pc' spawned at_ orderly
    have known := locked.sections i pc at_
    have reserved : pc.reserves ≤ s.pool.pendingCreations :=
      valid.counted ▸ Tasks.weight_le at_
    have total := weigh_moved Pc.reserves at_ pc' spawned
    have none_ : Tasks.weigh Pc.reserves spawned = 0 := by
      refine Tasks.weigh_eq_zero_iff.mpr fun j x atJ => ?_
      exact (orderly.outside x (List.mem_of_getElem? atJ)).2.2
    have counted := orderly.counted reserved
    have before := valid.counted
    exact ⟨by dsimp only; omega,orderly.bounded known reserved valid.bounded⟩
  rcases step_cases taken with ⟨_,_,rfl⟩ | ⟨pc,arrives,rfl⟩ | ⟨i,_,pc,pool,pc',spawned,_,at_,moved,rfl⟩ |
    ⟨i,pc,pool,pc',_,at_,dropped,rfl⟩
  · exact ⟨valid.counted,valid.bounded⟩
  · have free := (arrival_unlocked arrives).2.2
    refine ⟨?_,valid.bounded⟩
    rw [Tasks.weigh_append,Tasks.weigh_cons,Tasks.weigh_nil,free]
    exact valid.counted
  · exact moves i pc pool pc' spawned at_ (next_orderly moved)
  · simpa using moves i pc pool pc' [] at_ (orderly_of_cancelled cfg dropped)

theorem capacity_invariant (run : (machine cfg).Reachable s) : CapacityInvariant cfg s :=
  run.invariant CapacityInvariant.initial
    (fun _ _ _ before valid taken => valid.step (lock_invariant before) taken)

/-- In every reachable state of a pool, whatever the mode, the order of the steps and the
builds that succeed, fail or are dropped: the slots in use and the slots promised never
exceed `max_contexts`, and the pending counter is the number of builds in progress. -/
theorem capacity_respected (cfg : Config) (s : State) (run : (machine cfg).Reachable s) :
    s.pool.contexts.length + s.pool.pendingCreations ≤ cfg.scope.maxContexts ∧
    s.pool.pendingCreations = Tasks.weigh Pc.reserves s.tasks :=
  ⟨(capacity_invariant run).bounded,(capacity_invariant run).counted⟩

theorem capacity_respected_building :
    ∃ s, (machine (Config.small .dedicated)).exec [.call .createDedicatedContext,.run 1 .go]
        (machine (Config.small .dedicated)).initial = some s ∧ s.pool.pendingCreations = 1 ∧
      s.pool.contexts.length + s.pool.pendingCreations ≤ (Config.small .dedicated).scope.maxContexts ∧
      s.pool.pendingCreations = Tasks.weigh Pc.reserves s.tasks := by
  have ran : (machine (Config.small .dedicated)).exec [.call .createDedicatedContext,.run 1 .go]
    (machine (Config.small .dedicated)).initial = some _ := rfl
  exact ⟨_,ran,rfl,capacity_respected _ _ (Machine.reachable_of_exec ran)⟩

end BrowserHive.Pool
