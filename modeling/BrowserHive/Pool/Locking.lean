import BrowserHive.Pool.Moves

/-! What a step of the pool does to the list of tasks, and the discipline of the
`contexts` lock: a writer excludes everyone, and whoever is inside a section works on
the list as it is, because nobody else can change it. -/
namespace BrowserHive.Pool

open BrowserHive Transition

variable {cfg : Config} {p pool : PoolState} {tasks : List Pc} {pc pc' : Pc} {spawned : List Pc}

/-- Where the weight of the tasks goes when one moves on. -/
theorem weigh_moved (w : Pc → Nat) {tasks : List Pc} (at_ : tasks[i]? = some pc) (pc' : Pc) (spawned : List Pc) :
    Tasks.weigh w (tasks.set i pc' ++ spawned) + w pc =
      Tasks.weigh w tasks + w pc' + Tasks.weigh w spawned := by
  have moved := Tasks.weigh_set (w := w) at_ pc'
  rw [Tasks.weigh_append]
  omega

/-- A sweep over `contexts` has dealt every context out to `kept`, `todo` or `gone`. -/
structure Dealt (contexts kept todo gone : List ContextId) : Prop where
  ordered : (kept ++ todo).Sublist contexts
  complete : ∀ c ∈ contexts, c ∈ kept ++ todo ∨ c ∈ gone

theorem Dealt.start (contexts : List ContextId) : Dealt contexts [] contexts [] :=
  ⟨.refl _,fun _ inside => Or.inl inside⟩

theorem Dealt.keep {contexts kept todo gone : List ContextId} (dealt : Dealt contexts kept (c :: todo) gone) :
    Dealt contexts (kept ++ [c]) todo gone := by
  obtain ⟨ordered,complete⟩ := dealt
  exact ⟨by simpa using ordered,by simpa using complete⟩

theorem Dealt.drop {contexts kept todo gone : List ContextId} (dealt : Dealt contexts kept (c :: todo) gone) :
    Dealt contexts kept todo (gone ++ [c]) := by
  refine ⟨((List.sublist_cons_self c todo).append_left kept).trans dealt.ordered,fun d inside => ?_⟩
  have := dealt.complete d inside
  grind

theorem Dealt.sublist {contexts kept gone : List ContextId} (dealt : Dealt contexts kept [] gone) :
    kept.Sublist contexts := by
  simpa using dealt.ordered

/-- What a task inside a section of the lock remembers of `contexts` is still there. -/
@[simp] def Section (contexts : List ContextId) : Pc → Prop
  | .purging _ todo kept leaked => Dealt contexts kept todo leaked
  | .draining todo alive expired => Dealt contexts alive todo expired
  | .judging todo alive expired c => Dealt contexts alive (c :: todo) expired
  | .picking todo _ => todo ⊆ contexts
  | .pickingExpired todo _ c => c :: todo ⊆ contexts
  | .selecting _ _ todo found _ => todo ⊆ contexts ∧ found ⊆ contexts
  | .claiming _ _ candidates _ => candidates ⊆ contexts
  | .replacing c => c ∈ contexts
  | _ => True

theorem section_of_unlocked {pc : Pc} (read : pc.holdsRead = false) (write : pc.holdsWrite = false) :
    Section contexts pc := by
  cases pc with
  | selecting access | claiming access => cases access <;> simp_all [Pc.holdsRead,Pc.holdsWrite]
  | _ => simp_all [Pc.holdsWrite,Section]

@[simp] def After.reserves : After → Nat
  | .build | .replace => 1
  | _ => 0

/-- Builds in progress: the tasks that own a `SlotReservation`. -/
@[simp] def Pc.reserves : Pc → Nat
  | .building | .waiting _ | .pushing _ => 1
  | .releasing _ after => after.reserves
  | _ => 0

/-- What a step keeps of the lock discipline and of the slot count. -/
structure Orderly (cfg : Config) (p : PoolState) (tasks : List Pc) (pc : Pc) (pool : PoolState)
    (pc' : Pc) (spawned : List Pc) : Prop where
  write : pc'.holdsWrite = true → pc.holdsWrite = true ∨ canWrite tasks = true
  read : pc'.holdsRead = true → pc.holdsRead = true ∨ canRead tasks = true
  outside : ∀ x ∈ spawned, x.holdsWrite = false ∧ x.holdsRead = false ∧ x.reserves = 0
  stable : pool.contexts = p.contexts ∨ pc.holdsWrite = true ∨ canWrite tasks = true
  remembers : Section p.contexts pc → Section pool.contexts pc'
  counted : pc.reserves ≤ p.pendingCreations →
    pool.pendingCreations + pc.reserves = p.pendingCreations + pc'.reserves
  bounded : Section p.contexts pc → pc.reserves ≤ p.pendingCreations →
    p.occupiedSlots ≤ cfg.scope.maxContexts → pool.occupiedSlots ≤ cfg.scope.maxContexts

theorem filter_ne_length_lt {c : ContextId} {contexts : List ContextId} (member : c ∈ contexts) :
    (contexts.filter (· ≠ c)).length < contexts.length := by
  refine Nat.lt_of_le_of_ne (List.length_filter_le _ _) fun same => ?_
  have all := List.filter_eq_self.mp (List.filter_sublist.eq_of_length same)
  simpa using all c member

theorem removeContext_bounded (c : ContextId) (bound : p.occupiedSlots ≤ limit) :
    (removeContext p c).1.occupiedSlots ≤ limit := by
  have removed := p.contexts.length_filter_le (· ≠ c)
  change (p.contexts.filter (· ≠ c)).length + p.pendingCreations ≤ limit
  simp only [PoolState.occupiedSlots] at bound
  omega

theorem Walk.orderly (walks : Walk cfg p tasks choice pc pc') : Orderly cfg p tasks pc p pc' [] := by
  cases walks with
  | purgeBusy | drainBusy | spare =>
    constructor
    case remembers => exact Dealt.keep
    all_goals simp
  | purgeIdle | expire =>
    constructor
    case remembers => exact Dealt.drop
    all_goals simp
  | drainIdle =>
    constructor
    case remembers => exact id
    all_goals simp
  | selected =>
    constructor
    case remembers => exact fun known c sorted => known.2 (Selection.mem_sort.mp sorted)
    all_goals simp +contextual
  | purge | drain | reclaim => constructor <;> simp_all [Dealt.start]
  | _ => constructor <;> simp_all

/-- A sweep never grows the list, so a check against `max_contexts` counts all of it. -/
theorem swept_bounded {contexts kept gone : List ContextId} (dealt : Dealt contexts kept [] gone)
    (bound : contexts.length + pending ≤ limit) : kept.length + pending ≤ limit := by
  have shorter := dealt.sublist.length_le
  omega

theorem Move.orderly (move : Move cfg p tasks choice pc pool pc' spawned) :
    Orderly cfg p tasks pc pool pc' spawned := by
  cases move with
  | walk walks => exact walks.orderly
  | purged | purgedFull | drained =>
    constructor
    case bounded => exact fun dealt _ bound => swept_bounded dealt bound
    all_goals simp
  | purgedRoom room =>
    constructor
    case bounded => exact fun _ _ _ => room
    all_goals simp
  | replace =>
    constructor
    case bounded =>
      intro member _ bound
      have removed := filter_ne_length_lt member
      simp only [PoolState.occupiedSlots,reserve_contexts,reserve_pending] at bound ⊢
      omega
    all_goals simp
  | @endSession c =>
    constructor
    case bounded =>
      intro _ _ bound
      have removed : (p.contexts.erase c).length ≤ p.contexts.length := List.length_erase_le
      simp only [PoolState.occupiedSlots,PoolState.setBusy_pending] at bound ⊢
      omega
    all_goals simp_all
  | remove | cleanUp =>
    constructor
    case bounded => exact fun _ _ bound => removeContext_bounded _ bound
    all_goals simp_all [removeContext]
  | reserveDedicated _ room | room room =>
    constructor
    case bounded => exact fun _ _ _ => room
    all_goals simp_all
  | unbuilt =>
    constructor <;> simp
    all_goals omega
  | push =>
    constructor
    case bounded =>
      intro _ inFlight bound
      simp [PoolState.occupiedSlots] at inFlight bound ⊢
      omega
    all_goals simp_all
  | @released after =>
    cases after <;> constructor <;> simp_all [After.next]
  | returns made =>
    cases made <;> constructor <;> simp
  | _ => constructor <;> simp_all

theorem next_orderly (moved : next cfg p tasks choice pc = some (pool,pc',spawned)) :
    Orderly cfg p tasks pc pool pc' spawned :=
  (next_move moved).orderly

/-- Dropping a future gives back the reservation it owned and touches nothing else of the
slot count. -/
theorem cancelled_orderly (dropped : cancelled p pc = some (pool,pc')) :
    pc'.holdsWrite = false ∧ pc'.holdsRead = false ∧ pool.contexts = p.contexts ∧ pc'.reserves = 0 ∧
    pool.pendingCreations = p.pendingCreations - pc.reserves := by
  cases cancelled_drop dropped <;> simp

theorem unlocked_of_canWrite {i : Nat} (free : canWrite tasks = true) (at_ : tasks[i]? = some pc) :
    pc.holdsWrite = false ∧ pc.holdsRead = false := by
  have free := List.all_eq_true.mp free pc (List.mem_of_getElem? at_)
  simpa only [Bool.and_eq_true,Bool.not_eq_true'] using free

theorem unlocked_of_canRead {i : Nat} (free : canRead tasks = true) (at_ : tasks[i]? = some pc) :
    pc.holdsWrite = false := by
  have free := List.all_eq_true.mp free pc (List.mem_of_getElem? at_)
  simpa only [Bool.not_eq_true'] using free

/-- A writer is alone, and every section still describes the list it works on. -/
structure LockInvariant (s : State) : Prop where
  exclusive : ∀ (i j : Nat) (a b : Pc), s.tasks[i]? = some a → s.tasks[j]? = some b → i ≠ j →
    a.holdsWrite = true → b.holdsWrite = false ∧ b.holdsRead = false
  sections : ∀ (i : Nat) (a : Pc), s.tasks[i]? = some a → Section s.pool.contexts a

theorem LockInvariant.run {i : Nat} (valid : LockInvariant s) (at_ : s.tasks[i]? = some pc)
    (orderly : Orderly cfg s.pool s.tasks pc pool pc' spawned) :
    LockInvariant ⟨pool,s.tasks.set i pc' ++ spawned⟩ := by
  constructor
  · intro j k a b atJ atK apart writes
    rcases Tasks.getElem?_set_append at_ pc' spawned atK with ⟨rfl,rfl⟩ | ⟨otherK,oldK⟩ | ⟨_,born⟩
    · rcases Tasks.getElem?_set_append at_ b spawned atJ with ⟨same,_⟩ | ⟨_,atJ⟩ | ⟨_,born⟩
      · exact absurd same apart
      · constructor
        · refine Bool.eq_false_iff.mpr fun holds => ?_
          rcases orderly.write holds with held | free
          · exact absurd held (by rw [(valid.exclusive j k a pc atJ at_ apart writes).1]; decide)
          · exact absurd writes (by rw [(unlocked_of_canWrite free atJ).1]; decide)
        · refine Bool.eq_false_iff.mpr fun holds => ?_
          rcases orderly.read holds with held | free
          · exact absurd held (by rw [(valid.exclusive j k a pc atJ at_ apart writes).2]; decide)
          · exact absurd writes (by rw [unlocked_of_canRead free atJ]; decide)
      · exact absurd writes (by rw [(orderly.outside a born).1]; decide)
    · rcases Tasks.getElem?_set_append at_ pc' spawned atJ with ⟨rfl,rfl⟩ | ⟨_,atJ⟩ | ⟨_,born⟩
      · rcases orderly.write writes with held | free
        · exact valid.exclusive j k pc b at_ oldK apart held
        · exact unlocked_of_canWrite free oldK
      · exact valid.exclusive j k a b atJ oldK apart writes
      · exact absurd writes (by rw [(orderly.outside a born).1]; decide)
    · exact ⟨(orderly.outside b born).1,(orderly.outside b born).2.1⟩
  · intro j a atJ
    rcases Tasks.getElem?_set_append at_ pc' spawned atJ with ⟨rfl,rfl⟩ | ⟨other,atJ⟩ | ⟨_,born⟩
    · exact orderly.remembers (valid.sections _ _ at_)
    · have unlocked : pool.contexts = s.pool.contexts ∨ (a.holdsWrite = false ∧ a.holdsRead = false) := by
        rcases orderly.stable with same | held | free
        · exact Or.inl same
        · exact Or.inr (valid.exclusive i j pc a at_ atJ (Ne.symm other) held)
        · exact Or.inr (unlocked_of_canWrite free atJ)
      rcases unlocked with same | ⟨write,read⟩
      · simpa only [same] using valid.sections j a atJ
      · exact section_of_unlocked read write
    · exact section_of_unlocked (orderly.outside a born).2.1 (orderly.outside a born).1

/-- A task that holds no lock may be added anywhere. -/
theorem LockInvariant.arrive (valid : LockInvariant s) (write : pc.holdsWrite = false)
    (read : pc.holdsRead = false) : LockInvariant { s with tasks := s.tasks ++ [pc] } := by
  constructor
  · intro j k a b atJ atK apart writes
    rcases Tasks.getElem?_append_cases atJ with atJ | ⟨_,rfl⟩
    · rcases Tasks.getElem?_append_cases atK with atK | ⟨_,rfl⟩
      · exact valid.exclusive j k a b atJ atK apart writes
      · exact ⟨write,read⟩
    · exact absurd writes (by rw [write]; decide)
  · intro j a atJ
    rcases Tasks.getElem?_append_cases atJ with atJ | ⟨_,rfl⟩
    · exact valid.sections j a atJ
    · exact section_of_unlocked read write

theorem arrival_unlocked {action : Action} (arrives : action.arrival = some pc) :
    pc.holdsWrite = false ∧ pc.holdsRead = false ∧ pc.reserves = 0 := by
  rcases arrival_cases arrives with ⟨_,rfl⟩ | ⟨_,rfl⟩ | ⟨_,rfl⟩ <;> simp

/-- A future's drop, seen as a move of its task. -/
theorem orderly_of_cancelled (cfg : Config) (dropped : cancelled p pc = some (pool,pc')) :
    Orderly cfg p tasks pc pool pc' [] := by
  obtain ⟨write,read,same,free,pending⟩ := cancelled_orderly dropped
  constructor
  case write => exact fun holds => absurd holds (by rw [write]; decide)
  case read => exact fun holds => absurd holds (by rw [read]; decide)
  case stable => exact Or.inl same
  case remembers => exact fun _ => section_of_unlocked read write
  case counted => omega
  case bounded =>
    intro _ _ bound
    simp only [PoolState.occupiedSlots,same,pending] at bound ⊢
    omega
  case outside => simp

theorem LockInvariant.initial : LockInvariant (initial cfg) := by
  constructor
  · intro i j a b ati atj apart
    cases i <;> cases j <;> simp_all [Pool.initial]
  · intro i a ati
    cases i with
    | zero => obtain rfl : Pc.sleeping = a := by simpa [Pool.initial] using ati
              trivial
    | succ i => simp [Pool.initial] at ati

theorem LockInvariant.step (valid : LockInvariant s) (taken : step cfg s action = some t) :
    LockInvariant t := by
  rcases step_cases taken with ⟨_,_,rfl⟩ | ⟨pc,arrives,rfl⟩ | ⟨i,_,pc,pool,pc',spawned,_,at_,moved,rfl⟩ |
    ⟨i,pc,pool,pc',_,at_,dropped,rfl⟩
  · exact ⟨valid.exclusive,valid.sections⟩
  · obtain ⟨write,read,_⟩ := arrival_unlocked arrives
    exact valid.arrive write read
  · exact valid.run at_ (next_orderly moved)
  · simpa using valid.run at_ (orderly_of_cancelled cfg dropped)

theorem lock_invariant (run : (machine cfg).Reachable s) : LockInvariant s :=
  run.invariant LockInvariant.initial (fun _ _ _ _ valid taken => valid.step taken)

end BrowserHive.Pool
