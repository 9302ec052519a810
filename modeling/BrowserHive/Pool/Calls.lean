import BrowserHive.Pool.Lease

/-! The CDP calls of a pool: which task waits for a call and which thread answers it. A
step creates one call, takes one step of one call, or leaves all calls alone. -/
namespace BrowserHive.Pool

open BrowserHive Transition

variable {cfg : Config} {p pool : PoolState} {tasks : List Pc} {pc pc' : Pc} {spawned : List Pc}

def Pc.caller : Pc → Option Nat
  | .waiting j | .rebuilding j _ _ => some j
  | _ => none

def Pc.thread : Pc → Option Nat
  | .closure j _ | .answering j => some j
  | _ => none

inductive Calling (p : PoolState) (pc : Pc) (pool : PoolState) (pc' : Pc) (spawned : List Pc) : Prop where
  | quiet (calls : pool.calls = p.calls) (next : pool.nextCall = p.nextCall)
      (spawns : ∀ x ∈ spawned, x.caller = none ∧ x.thread = none)
      (thread : pc'.thread = pc.thread ∨ pc'.thread = none)
      (caller : pc'.caller = pc.caller ∨
        (pc'.caller = none ∧ ∀ j, pc.caller = some j → (p.calls j).caller.receiving = false))
  | spawn (stage : Closure)
      (calls : pool.calls = Function.update p.calls p.nextCall CdpCall.State.initial)
      (next : pool.nextCall = p.nextCall + 1) (spawns : spawned = [.closure p.nextCall stage])
      (former : pc.caller = none) (thread : pc'.thread = none) (caller : pc'.caller = some p.nextCall)
  | event (j : Nat) (name : String) (event : CdpCall.Event Slot Unit) (call : CdpCall.State Slot Unit)
      (stepped : CdpCall.step CdpCall.callTimeout name (p.calls j) event = some call)
      (calls : pool.calls = Function.update p.calls j call) (next : pool.nextCall = p.nextCall)
      (spawns : spawned = []) (party : pc.caller = some j ∨ pc.thread = some j)
      (thread : pc'.thread = pc.thread ∨ pc'.thread = none)
      (caller : pc'.caller = pc.caller ∨ event = .dropCaller)
      (drops : event = .dropCaller → pc.caller = some j ∧ pc'.caller = none)
      (cleans : event = .cleanup → pc = .answering j)

theorem received (waits : pc.caller = some j) (returned : (p.calls j).caller = .returned result) (k : Nat)
    (own : pc.caller = some k) : (p.calls k).caller.receiving = false := by
  obtain rfl := Option.some.inj (waits.symm.trans own)
  rw [returned]
  rfl

theorem Walk.calling (walks : Walk cfg p tasks choice pc pc') : Calling p pc p pc' [] := by
  cases walks with
  | answered => exact .quiet rfl rfl (by simp) (.inr rfl) (.inl rfl)
  | _ => exact .quiet rfl rfl (by simp) (.inl rfl) (.inl rfl)

/-- What a caller is told while it waits is not its own end, nor the thread's. -/
theorem caller_event {choice : Choice} (chosen : choice.event = some event) :
    event ≠ .dropCaller ∧ event ≠ .cleanup := by
  cases choice <;> simp_all [Choice.event] <;> subst chosen <;> simp

theorem await_calling {choice : Choice} (chosen : choice.event = some event) (stepped : Steps name p j event call)
    (waits : pc.caller = some j) : Calling p pc (p.setCall j call) pc [] := by
  have own := caller_event chosen
  exact .event j name event call stepped rfl rfl rfl (.inl waits) (.inl rfl) (.inl rfl)
    (fun drops => absurd drops own.1) (fun cleans => absurd cleans own.2)

theorem Move.calling (move : Move cfg p tasks choice pc pool pc' spawned) : Calling p pc pool pc' spawned := by
  cases move with
  | walk walks => exact walks.calling
  | rebuilt returned | built returned | unbuilt returned =>
    exact .quiet rfl rfl (by simp) (.inl rfl) (.inr ⟨rfl,received rfl returned⟩)
  | recycle | build => exact .spawn _ rfl rfl rfl rfl rfl rfl
  | awaitRebuild chosen stepped | awaitBuild chosen stepped => exact await_calling chosen stepped rfl
  | clearAlwaysNew => exact .quiet rfl rfl (by simp [Pc.caller,Pc.thread]) (.inl rfl) (.inl rfl)
  | @released after => cases after <;> exact .quiet rfl rfl (by simp) (.inl rfl) (.inl rfl)
  | returns made stepped =>
    cases made <;> exact .event _ _ _ _ stepped rfl rfl rfl (.inr rfl) (.inl rfl) (.inl rfl) (by simp) (by simp)
  | send _ stepped => exact .event _ _ _ _ stepped rfl rfl rfl (.inr rfl) (.inl rfl) (.inl rfl) (by simp) (by simp)
  | discard _ stepped => exact .event _ _ _ _ stepped rfl rfl rfl (.inr rfl) (.inr rfl) (.inl rfl) (by simp) (by simp)
  | _ => exact .quiet rfl rfl (by simp) (.inl rfl) (.inl rfl)

theorem next_calling (moved : next cfg p tasks choice pc = some (pool,pc',spawned)) :
    Calling p pc pool pc' spawned := (next_move moved).calling

theorem cancelled_calling (dropped : cancelled p pc = some (pool,pc')) : Calling p pc pool pc' [] := by
  cases cancelled_drop dropped with
  | waiting stepped =>
    exact .event _ _ _ _ stepped rfl rfl rfl (.inl rfl) (.inl rfl) (.inr rfl) (fun _ => ⟨rfl,rfl⟩) (by simp)
  | _ => exact .quiet rfl rfl (by simp) (.inl rfl) (.inl rfl)

/-- Every call runs as `bounded_with_cleanup` does, and while its channel is open some
task owns the receiver. -/
structure CallInvariant (s : State) : Prop where
  valid : ∀ j, CdpCall.Invariant (s.pool.calls j)
  known : ∀ (i : Nat) (pc : Pc) (j : Nat), s.tasks[i]? = some pc → pc.caller = some j ∨ pc.thread = some j →
    j < s.pool.nextCall
  owned : ∀ j, j < s.pool.nextCall → (s.pool.calls j).channel.closed = false →
    ∃ (i : Nat) (pc : Pc), s.tasks[i]? = some pc ∧ pc.caller = some j

theorem Calling.valid (calling : Calling p pc pool pc' spawned) (valid : ∀ j, CdpCall.Invariant (p.calls j))
    (j : Nat) : CdpCall.Invariant (pool.calls j) := by
  cases calling with
  | quiet calls => exact calls ▸ valid j
  | spawn stage calls =>
    rw [calls]
    by_cases same : j = p.nextCall
    · rw [same,Function.update_self]
      exact CdpCall.initial_invariant
    · rw [Function.update_of_ne same]
      exact valid j
  | event k name event call stepped calls =>
    rw [calls]
    by_cases same : j = k
    · rw [same,Function.update_self]
      exact CdpCall.step_invariant _ _ event (valid k) stepped
    · rw [Function.update_of_ne same]
      exact valid j

theorem Calling.nextCall_le (calling : Calling p pc pool pc' spawned) : p.nextCall ≤ pool.nextCall := by
  cases calling with
  | quiet calls next => exact Nat.le_of_eq next.symm
  | spawn stage calls next => exact next ▸ Nat.le_succ _
  | event j name event call stepped calls next => exact Nat.le_of_eq next.symm

/-- The tasks a step leaves behind know no call but their own and the one just created. -/
theorem Calling.known (calling : Calling p pc pool pc' spawned)
    (known : ∀ j, pc.caller = some j ∨ pc.thread = some j → j < p.nextCall) (x : Pc)
    (moved : x = pc' ∨ x ∈ spawned) (j : Nat) (knows : x.caller = some j ∨ x.thread = some j) :
    j < pool.nextCall := by
  have former : (pc'.caller = pc.caller ∨ pc'.caller = none) → (pc'.thread = pc.thread ∨ pc'.thread = none) →
      pc'.caller = some j ∨ pc'.thread = some j → j < p.nextCall := by
    rintro caller thread (mine | mine)
    · exact known j (.inl (caller.elim (fun same => same ▸ mine) (fun none_ => by simp [none_] at mine)))
    · exact known j (.inr (thread.elim (fun same => same ▸ mine) (fun none_ => by simp [none_] at mine)))
  cases calling with
  | quiet calls next spawns thread caller =>
    rw [next]
    rcases moved with rfl | born
    · exact former (caller.imp_right And.left) thread knows
    · simp [spawns x born] at knows
  | spawn stage calls next spawns _ thread caller =>
    rw [next]
    rcases moved with rfl | born
    · simp only [caller,thread,Option.some.injEq,reduceCtorEq,or_false] at knows
      exact knows ▸ Nat.lt_succ_self _
    · obtain rfl := List.mem_singleton.mp (spawns ▸ born)
      simp only [Pc.caller,Pc.thread,Option.some.injEq,reduceCtorEq,false_or] at knows
      exact knows ▸ Nat.lt_succ_self _
  | event k name event call stepped calls next spawns party thread caller drops =>
    rw [next]
    rcases moved with rfl | born
    · exact former (caller.imp_right fun dropped => (drops dropped).2) thread knows
    · rw [spawns] at born
      contradiction

/-- A channel that is open after a step was open before it, and its receiver has not left
the task, or the step created it. -/
theorem Calling.opened (calling : Calling p pc pool pc' spawned) (valid : ∀ j, CdpCall.Invariant (p.calls j))
    (j : Nat) (known : j < pool.nextCall) (open_ : (pool.calls j).channel.closed = false) :
    pc'.caller = some j ∨
    (j < p.nextCall ∧ (p.calls j).channel.closed = false ∧ pc.caller ≠ some j) := by
  have stays : ∀ call : CdpCall.State Slot Unit, CdpCall.Invariant call → call.channel.closed = false →
      call.caller.receiving ≠ false := by
    intro call valid open_ gone
    exact absurd (valid.received gone).2 (by simp [open_])
  cases calling with
  | quiet calls next spawns thread caller =>
    rw [calls] at open_
    by_cases mine : pc.caller = some j
    · rcases caller with same | ⟨_,ended⟩
      · exact .inl (same ▸ mine)
      · exact absurd (ended j mine) (stays _ (valid j) open_)
    · exact .inr ⟨next ▸ known,open_,mine⟩
  | spawn stage calls next spawns former thread caller =>
    by_cases same : j = p.nextCall
    · exact .inl (same ▸ caller)
    · rw [calls,Function.update_of_ne same] at open_
      have below : j < p.nextCall + 1 := next ▸ known
      exact .inr ⟨Nat.lt_of_le_of_ne (Nat.le_of_lt_succ below) same,open_,by simp [former]⟩
  | event k name event call stepped calls next spawns party thread caller drops =>
    have before : (p.calls j).channel.closed = false := by
      by_cases same : j = k
      · rw [same,calls,Function.update_self] at open_
        exact same ▸ CdpCall.step_open stepped open_
      · rwa [calls,Function.update_of_ne same] at open_
    by_cases mine : pc.caller = some j
    · rcases caller with same | rfl
      · exact .inl (same ▸ mine)
      · obtain rfl := Option.some.inj (mine.symm.trans (drops rfl).1)
        rw [calls,Function.update_self] at open_
        exact absurd (CdpCall.dropped_receiving stepped)
          (stays _ (CdpCall.step_invariant _ _ _ (valid j) stepped) open_)
    · exact .inr ⟨next ▸ known,before,mine⟩

theorem CallInvariant.move {s : State} {i : Nat} (valid : CallInvariant s) (at_ : s.tasks[i]? = some pc)
    (calling : Calling s.pool pc pool pc' spawned) : CallInvariant ⟨pool,s.tasks.set i pc' ++ spawned⟩ := by
  have bound : i < s.tasks.length := (List.getElem?_eq_some_iff.mp at_).1
  constructor
  case valid => exact calling.valid valid.valid
  case known =>
    intro k x j atK knows
    rcases Tasks.getElem?_set_append at_ pc' spawned atK with ⟨_,rfl⟩ | ⟨_,atK⟩ | ⟨_,born⟩
    · exact calling.known (fun j => valid.known i pc j at_) x (.inl rfl) j knows
    · exact Nat.lt_of_lt_of_le (valid.known k x j atK knows) calling.nextCall_le
    · exact calling.known (fun j => valid.known i pc j at_) x (.inr born) j knows
  case owned =>
    intro j known open_
    rcases calling.opened valid.valid j known open_ with mine | ⟨known,open_,other⟩
    · exact ⟨i,pc',by simp [List.getElem?_append,bound],mine⟩
    · obtain ⟨k,x,atK,own⟩ := valid.owned j known open_
      have apart : i ≠ k := by
        rintro rfl
        obtain rfl := Option.some.inj (at_.symm.trans atK)
        exact other own
      have bound : k < s.tasks.length := (List.getElem?_eq_some_iff.mp atK).1
      refine ⟨k,x,?_,own⟩
      rw [List.getElem?_append_left (by simpa using bound),List.getElem?_set_ne apart]
      exact atK

theorem CallInvariant.step {s t : State} (valid : CallInvariant s) (taken : step cfg s action = some t) :
    CallInvariant t := by
  rcases step_cases taken with ⟨_,_,rfl⟩ | ⟨pc,arrives,rfl⟩ | ⟨i,_,pc,pool,pc',spawned,_,at_,moved,rfl⟩ |
    ⟨i,pc,pool,pc',_,at_,dropped,rfl⟩
  · exact ⟨valid.valid,valid.known,valid.owned⟩
  · have stranger : pc.caller = none ∧ pc.thread = none := by
      rcases arrival_cases arrives with ⟨_,rfl⟩ | ⟨_,rfl⟩ | ⟨_,rfl⟩ <;> exact ⟨rfl,rfl⟩
    refine ⟨valid.valid,?_,?_⟩
    · intro k x j atK knows
      rcases List.mem_append.mp (List.mem_of_getElem? atK) with old | new
      · obtain ⟨k,atK⟩ := List.mem_iff_getElem?.mp old
        exact valid.known k x j atK knows
      · obtain rfl := List.mem_singleton.mp new
        simp [stranger] at knows
    · intro j known open_
      obtain ⟨k,x,atK,own⟩ := valid.owned j known open_
      have bound : k < s.tasks.length := (List.getElem?_eq_some_iff.mp atK).1
      exact ⟨k,x,(List.getElem?_append_left bound).trans atK,own⟩
  · exact valid.move at_ (next_calling moved)
  · simpa using valid.move at_ (cancelled_calling dropped)

theorem populate_calls (cfg : Config) (n : Nat) (p : PoolState) :
    (populateInitialContexts cfg n p).calls = p.calls ∧
    (populateInitialContexts cfg n p).nextCall = p.nextCall := by
  induction n generalizing p with
  | zero => exact ⟨rfl,rfl⟩
  | succ n ih => exact ih { createNewContext cfg p with contexts := p.contexts ++ [p.fresh] }

theorem initial_calls (cfg : Config) : (Pool.initial cfg).pool.calls = PoolState.empty.calls ∧
    (Pool.initial cfg).pool.nextCall = 0 := by
  cases mode : cfg.scope.sessionMode with
  | reusable =>
    simp only [Pool.initial,mode]
    exact populate_calls cfg _ PoolState.empty
  | alwaysNew | dedicated => simp [Pool.initial,mode,PoolState.empty]

theorem CallInvariant.initial : CallInvariant (initial cfg) := by
  obtain ⟨calls,next⟩ := initial_calls cfg
  refine ⟨fun j => ?_,?_,?_⟩
  · rw [calls]
    exact CdpCall.initial_invariant
  · intro i pc j at_ knows
    rw [initial_task at_] at knows
    simp [Pc.caller,Pc.thread] at knows
  · intro j known
    rw [next] at known
    contradiction

theorem call_invariant (run : (machine cfg).Reachable s) : CallInvariant s :=
  run.invariant CallInvariant.initial (fun _ _ _ _ valid taken => valid.step taken)

end BrowserHive.Pool
