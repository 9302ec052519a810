import BrowserHive.Pool.Locking

/-! Every busy flag in the pool has exactly one owner: the request that runs in the
context, the request it is being handed to, or the monitor that is recycling it. A task
only ever touches flags of contexts it knows, and a context that is not yet in the pool
is known to its creator alone. -/
namespace BrowserHive.Pool

open BrowserHive Transition

variable {cfg : Config} {p pool : PoolState} {tasks : List Pc} {pc pc' : Pc} {spawned : List Pc}

def After.mentions : After → List ContextId
  | .recycle todo => todo
  | .serve c => [c]
  | _ => []

/-- The contexts a task holds a handle to. An id a client sent is not one. -/
def Pc.mentions : Pc → List ContextId
  | .purging _ todo kept leaked => todo ++ kept ++ leaked
  | .draining todo alive expired => todo ++ alive ++ expired
  | .judging todo alive expired c => c :: todo ++ alive ++ expired
  | .picking todo claimed => todo ++ claimed
  | .pickingExpired todo claimed c => c :: todo ++ claimed
  | .recycling todo => todo
  | .rebuilding _ old todo => old :: todo
  | .swapping new old todo => new :: old :: todo
  | .selecting _ _ todo chosen _ => todo ++ chosen
  | .claiming _ _ candidates _ => candidates
  | .replacing c | .pushing c | .handover c | .found c | .ending c | .continuing c | .serving c
  | .destroying c | .stamping c | .clearing c => [c]
  | .releasing todo after => todo ++ after.mentions
  | _ => []

def After.owns (c : ContextId) : After → Nat
  | .recycle todo => todo.count c
  | .serve d => [d].count c
  | _ => 0

/-- How many times a task owns the busy flag of `c`. -/
def Pc.owns (c : ContextId) : Pc → Nat
  | .picking _ claimed | .pickingExpired _ claimed _ => claimed.count c
  | .recycling todo => todo.count c
  | .rebuilding _ old todo | .swapping _ old todo => (old :: todo).count c
  | .replacing d | .pushing d | .handover d | .serving d | .destroying d | .stamping d
  | .clearing d => [d].count c
  | .releasing _ after => after.owns c
  | _ => 0

def Pc.incoming : Pc → Option ContextId
  | .pushing c | .swapping c _ _ => some c
  | _ => none

theorem mentions_of_owns (h : 0 < pc.owns c) : c ∈ pc.mentions := by
  cases pc with
  | releasing todo after =>
    cases after <;> simp_all [Pc.owns,After.owns,Pc.mentions,After.mentions,List.count_pos_iff]
  | _ => simp_all [Pc.owns,Pc.mentions,List.count_pos_iff]

theorem mentions_of_incoming (h : pc.incoming = some c) : c ∈ pc.mentions := by
  cases pc <;> simp_all [Pc.incoming,Pc.mentions]

def Pc.claims (c : ContextId) : Pc → Bool
  | .continuing d => c = d
  | .claiming _ _ candidates _ => c ∈ candidates
  | .pickingExpired _ _ d => c = d
  | _ => false

abbrev busyCount (p : PoolState) (c : ContextId) : Nat := (p.isBusy c).toNat

structure Leased (p : PoolState) (pc : Pc) (pool : PoolState) (pc' : Pc) (spawned : List Pc) : Prop where
  fresh : pool.fresh = p.fresh ∨ (pool.fresh = p.fresh + 1 ∧ pc'.incoming = some p.fresh)
  mentions : ∀ c ∈ pc'.mentions, c ∈ pc.mentions ∨ c ∈ p.contexts ∨
    (c = p.fresh ∧ pool.fresh = p.fresh + 1)
  untouched : ∀ c, c ∉ pc.mentions → c ≠ p.fresh → pool.isBusy c = p.isBusy c
  contexts : ∀ c ∈ pool.contexts, c ∈ p.contexts ∨ pc.incoming = some c
  nodup : p.contexts.Nodup → (∀ c, pc.incoming = some c → c ∉ p.contexts) → pool.contexts.Nodup
  incoming : ∀ c, pc'.incoming = some c → c = p.fresh ∧ pool.fresh = p.fresh + 1 ∧
    pool.contexts = p.contexts ∧ pc'.owns c = busyCount pool c
  newborn : ∀ x ∈ spawned, x.mentions = []
  claimed : ∀ c, pc.owns c < pc'.owns c → c = p.fresh ∨ pc.claims c = true
  held : ∀ c, c ≠ p.fresh → busyCount p c + pc'.owns c ≤ busyCount pool c + pc.owns c
  balanced : p.contexts.Nodup → (∀ c, pc.incoming = some c → c ∉ p.contexts) →
    ∀ c, c ≠ p.fresh → c ∈ pool.contexts → busyCount p c + pc'.owns c = busyCount pool c + pc.owns c

/-- A step that moves no flag; what ownership it gives up is of contexts outside the pool. -/
theorem Leased.pass (fresh : pool.fresh = p.fresh)
    (contexts : ∀ c ∈ pool.contexts, c ∈ p.contexts ∨ pc.incoming = some c)
    (nodup : p.contexts.Nodup → (∀ c, pc.incoming = some c → c ∉ p.contexts) → pool.contexts.Nodup)
    (busy : ∀ c, pool.isBusy c = p.isBusy c) (owns : ∀ c, pc'.owns c ≤ pc.owns c)
    (kept : p.contexts.Nodup → (∀ c, pc.incoming = some c → c ∉ p.contexts) →
      ∀ c ∈ pool.contexts, pc'.owns c = pc.owns c)
    (mentions : ∀ c ∈ pc'.mentions, c ∈ pc.mentions ∨ c ∈ p.contexts)
    (incoming : pc'.incoming = none) (newborn : ∀ x ∈ spawned, x.mentions = []) :
    Leased p pc pool pc' spawned where
  fresh := Or.inl fresh
  mentions c member := (mentions c member).imp_right Or.inl
  untouched c _ _ := busy c
  contexts := contexts
  nodup := nodup
  incoming c known := by simp [incoming] at known
  newborn := newborn
  claimed c more := absurd (owns c) (Nat.not_le_of_lt more)
  held c _ := by
    have := owns c
    simp [busyCount,busy,this]
  balanced distinct apart c _ inside := by simp [busyCount,busy,kept distinct apart c inside]

theorem Leased.counted (leased : Leased p pc pool pc' spawned) (fresh : other.fresh = pool.fresh)
    (contexts : other.contexts = pool.contexts) (busy : ∀ c, other.isBusy c = pool.isBusy c) :
    Leased p pc other pc' spawned where
  fresh := by simpa only [fresh] using leased.fresh
  mentions := by simpa only [fresh] using leased.mentions
  untouched c unknown apart := (busy c).trans (leased.untouched c unknown apart)
  contexts := by simpa only [contexts] using leased.contexts
  nodup := by simpa only [contexts] using leased.nodup
  incoming := by simpa only [contexts,fresh,busyCount,busy] using leased.incoming
  newborn := leased.newborn
  claimed := leased.claimed
  held := by simpa only [busyCount,busy] using leased.held
  balanced := by simpa only [contexts,busyCount,busy] using leased.balanced

/-- A step that moves no flag and no ownership, and at most removes contexts. -/
theorem Leased.quiet (fresh : pool.fresh = p.fresh) (contexts : pool.contexts.Sublist p.contexts)
    (busy : ∀ c, pool.isBusy c = p.isBusy c) (owns : ∀ c, pc'.owns c = pc.owns c)
    (mentions : ∀ c ∈ pc'.mentions, c ∈ pc.mentions ∨ c ∈ p.contexts)
    (incoming : pc'.incoming = none) (newborn : ∀ x ∈ spawned, x.mentions = []) :
    Leased p pc pool pc' spawned :=
  .pass fresh (fun _ inside => Or.inl (contexts.subset inside)) (fun distinct _ => distinct.sublist contexts)
    busy (fun c => Nat.le_of_eq (owns c)) (fun _ _ c _ => owns c) mentions incoming newborn

/-- A won compare-exchange: the flag and its owner appear together. -/
theorem Leased.claim (idle : p.isBusy d = false) (claims : pc.claims d = true) (member : d ∈ pc.mentions)
    (owns : ∀ c, pc'.owns c = pc.owns c + [d].count c) (mentions : ∀ c ∈ pc'.mentions, c ∈ pc.mentions)
    (incoming : pc'.incoming = none) : Leased p pc (p.setBusy d true) pc' [] where
  fresh := Or.inl rfl
  mentions c known := Or.inl (mentions c known)
  untouched c unknown _ := by
    have apart : c ≠ d := fun same => unknown (same ▸ member)
    simp [apart]
  contexts c known := Or.inl known
  nodup distinct _ := distinct
  incoming c known := by simp [incoming] at known
  newborn := by simp
  claimed c more := by
    refine Or.inr (Classical.byContradiction fun never => ?_)
    have apart : c ≠ d := fun same => never (same ▸ claims)
    simp [owns,Ne.symm apart] at more
  held c _ := by
    rw [owns]
    by_cases same : c = d
    · subst same
      simp [busyCount,idle,Nat.add_comm]
    · simp [busyCount,same,Ne.symm same]
  balanced _ _ c _ _ := by
    rw [owns]
    by_cases same : c = d
    · subst same
      simp [busyCount,idle,Nat.add_comm]
    · simp [busyCount,same,Ne.symm same]

/-- A context is created: the only task that knows it decides whether it starts out busy. -/
theorem Leased.create (slot : Slot) (busy : Bool)
    (mentions : ∀ c ∈ pc'.mentions, c ∈ pc.mentions ∨ c = p.fresh)
    (incoming : pc'.incoming = some p.fresh) (born : pc'.owns p.fresh = busy.toNat)
    (owns : ∀ c, c ≠ p.fresh → pc'.owns c = pc.owns c) :
    Leased p pc (p.addContext slot busy) pc' [] where
  fresh := Or.inr ⟨rfl,incoming⟩
  mentions c member := (mentions c member).imp_right fun same => Or.inr ⟨same,rfl⟩
  untouched c _ other := by simp [other]
  contexts c member := Or.inl member
  nodup distinct _ := distinct
  incoming c created := by
    obtain rfl : p.fresh = c := by simpa [incoming] using created
    exact ⟨rfl,rfl,rfl,by simp [busyCount,born]⟩
  newborn := by simp
  claimed c more := Or.inl (Classical.byContradiction fun other => by simp [owns c other] at more)
  held c other := by simp [busyCount,other,owns]
  balanced _ _ c other _ := by simp [busyCount,other,owns]

attribute [simp] After.mentions Pc.mentions After.owns Pc.owns Pc.incoming Pc.claims

theorem set_idxOf {contexts : List ContextId} (member : old ∈ contexts) (new : ContextId) :
    ∃ left right, contexts = left ++ old :: right ∧
      contexts.set (contexts.idxOf old) new = left ++ new :: right := by
  obtain ⟨left,right,rfl,first⟩ := List.eq_append_cons_of_mem member
  refine ⟨left,right,rfl,?_⟩
  rw [List.idxOf_append,if_neg first]
  simp

theorem Walk.leased (walks : Walk cfg p tasks choice pc pc') : Leased p pc p pc' [] := by
  cases walks with
  | @gone old new todo _ outside =>
    refine .pass rfl (fun _ inside => Or.inl inside) (fun distinct _ => distinct) (fun _ => rfl)
      (by simp [List.count_cons]) ?_ (by simp; grind) rfl (by simp)
    intro _ _ c inside
    have apart : old ≠ c := fun same => outside (same ▸ inside)
    simp [apart]
  | selected =>
    exact .quiet rfl (.refl _) (fun _ => rfl) (by simp)
      (fun c sorted => Or.inl (by simpa using Selection.mem_sort.mp sorted)) rfl (by simp)
  | _ => exact .quiet rfl (.refl _) (fun _ => rfl) (by simp) (by simp <;> grind) rfl (by simp)

/-- The monitor puts a fresh context where the recycled one was: the old one gives its place
away. -/
theorem swap_leased (inside : old ∈ p.contexts) (contexts : pool.contexts = p.contexts.set (p.contexts.idxOf old) new)
    (fresh : pool.fresh = p.fresh) (busy : ∀ c, pool.isBusy c = p.isBusy c) :
    Leased p (.swapping new old todo) pool (.recycling todo) [] := by
  obtain ⟨left,right,split,swapped⟩ := set_idxOf inside new
  refine .pass fresh ?_ ?_ busy (by simp [List.count_cons]) ?_ (by simp +contextual) rfl (by simp)
  · intro c inside
    rw [contexts] at inside
    exact (List.mem_or_eq_of_mem_set inside).imp_right fun same => congrArg some same.symm
  · intro distinct apart
    have outside := apart new rfl
    rw [contexts,swapped]
    rw [split] at distinct outside
    grind
  · intro distinct apart c inside
    have outside := apart new rfl
    rw [contexts,swapped] at inside
    rw [split] at distinct outside
    have gone : old ≠ c := by grind
    simp [gone]

/-- A used-up session's flag is set for good: the context leaves the pool in the same section. -/
theorem endSession_leased : Leased p (.ending c) { p.setBusy c true with contexts := p.contexts.erase c }
    (.releasing [c] .sessionEnded) [] := by
  have others : ∀ d, d ≠ c → busyCount (p.setBusy c true) d = busyCount p d := by
    intro d other
    simp [busyCount,other]
  constructor
  case untouched =>
    intro d unknown _
    have other : d ≠ c := by simpa using unknown
    exact (PoolState.setBusy_isBusy p c d true).trans (if_neg other)
  case contexts => exact fun d inside => Or.inl (List.mem_of_mem_erase inside)
  case nodup => exact fun distinct _ => distinct.erase c
  case held =>
    intro d _
    change busyCount p d + 0 ≤ busyCount (p.setBusy c true) d + 0
    by_cases same : d = c
    · simp [busyCount,same,Bool.toNat_le]
    · rw [others d same]
  case balanced =>
    intro distinct _ d _ inside
    have other : d ≠ c := (distinct.mem_erase_iff.mp inside).1
    exact congrArg (· + 0) (others d other).symm
  all_goals simp

/-- The guard's drop: the flag goes with its owner. -/
theorem clear_leased (owned : ∀ d, (Pc.clearing c).owns d ≤ busyCount p d) (newborn : ∀ x ∈ spawned, x.mentions = []) :
    Leased p (.clearing c) (p.setBusy c false) .finished spawned := by
  have busy : busyCount p c = 1 := by
    have least := owned c
    have most : busyCount p c ≤ 1 := Bool.toNat_le _
    simp only [Pc.owns,List.count_singleton_self] at least
    omega
  have moves : ∀ d, busyCount p d + Pc.finished.owns d =
      busyCount (p.setBusy c false) d + (Pc.clearing c).owns d := by
    intro d
    by_cases same : d = c
    · subst same
      rw [busy]
      simp [busyCount]
    · simp [busyCount,same,Ne.symm same]
  constructor
  case untouched =>
    intro d unknown _
    have other : d ≠ c := by simpa using unknown
    exact (PoolState.setBusy_isBusy p c d false).trans (if_neg other)
  case nodup => exact fun distinct _ => distinct
  case newborn => exact newborn
  case held => exact fun d _ => Nat.le_of_eq (moves d)
  case balanced => exact fun _ _ d _ _ => moves d
  all_goals simp

theorem Move.leased (known : Section p.contexts pc) (bounded : ∀ c ∈ pc.mentions, c < p.fresh)
    (owned : ∀ c, pc.owns c ≤ busyCount p c) (move : Move cfg p tasks choice pc pool pc' spawned) :
    Leased p pc pool pc' spawned := by
  cases move with
  | walk walks => exact walks.leased
  | purged | purgedRoom | purgedFull | drained =>
    exact .quiet rfl (Dealt.sublist known) (fun _ => rfl) (by simp) (by simp; grind) rfl (by simp)
  | pickClaim idle => exact .claim idle (by simp) (by simp) (by simp) (by simp; grind) rfl
  | claim idle | claimUsedUp idle | continues idle =>
    exact .claim idle (by simp) (by simp) (by simp) (by simp) rfl
  | rebuilt =>
    refine .create _ false (by simp; grind) rfl ?_ (by simp)
    refine List.count_eq_zero.mpr fun member => ?_
    exact Nat.lt_irrefl _ (bounded p.fresh (by simpa using member))
  | swap _ inside => exact swap_leased inside rfl rfl (fun _ => rfl)
  | @replace c =>
    refine .pass rfl (fun d inside => Or.inl (List.mem_of_mem_filter inside))
      (fun distinct _ => distinct.filter _) (fun _ => rfl) (by simp) ?_ (by simp) rfl (by simp)
    intro _ _ d inside
    have other : d ≠ c := by simpa using (List.mem_filter.mp inside).2
    simp [other.symm]
  | built =>
    exact .counted (.create _ true (by simp) rfl (by simp) (by simp +contextual [eq_comm])) rfl rfl (fun _ => rfl)
  | @push c =>
    refine .pass rfl ?_ ?_ (fun _ => rfl) (by simp) (by simp) (by simp) rfl (by simp)
    · intro d inside
      rcases List.mem_append.mp inside with old | new
      · exact Or.inl old
      · exact Or.inr (by simpa using Eq.symm (List.mem_singleton.mp new))
    · intro distinct apart
      have outside := apart c rfl
      change (p.contexts ++ [c]).Nodup
      grind
  | endSession => exact endSession_leased
  | @touch c | @block _ c | @stamp c =>
    exact .quiet rfl (.refl _) (fun d => PoolState.modify_isBusy p c d _ rfl) (by simp) (by simp) rfl (by simp)
  | remove | cleanUp =>
    exact .quiet rfl List.filter_sublist (fun _ => rfl) (by simp) (by simp [removeContext]; grind) rfl (by simp)
  | clear | clearAlwaysNew => exact clear_leased owned (by simp)
  | @released after =>
    cases after <;> exact .quiet rfl (.refl _) (fun _ => rfl) (by simp [After.next])
      (by simp +contextual [After.next]) rfl (by simp)
  | returns made =>
    cases made <;> exact .quiet rfl (.refl _) (fun _ => rfl) (by simp) (by simp) rfl (by simp)
  | recycle | release => exact .quiet rfl (.refl _) (by simp) (by simp) (by simp +contextual) rfl (by simp)
  | _ => exact .quiet rfl (.refl _) (fun _ => rfl) (by simp) (by simp +contextual) rfl (by simp)

theorem next_leased (known : Section p.contexts pc) (bounded : ∀ c ∈ pc.mentions, c < p.fresh)
    (owned : ∀ c, pc.owns c ≤ busyCount p c)
    (moved : next cfg p tasks choice pc = some (pool,pc',spawned)) : Leased p pc pool pc' spawned :=
  (next_move moved).leased known bounded owned

/-- A dropped future keeps its guard alive until the guard's own drop has run. -/
theorem cancelled_leased (dropped : cancelled p pc = some (pool,pc')) : Leased p pc pool pc' [] := by
  cases cancelled_drop dropped with
  | @pushing c =>
    refine .pass rfl (fun _ inside => Or.inl inside) (fun distinct _ => distinct) (fun _ => rfl)
      (by simp) ?_ (by simp) rfl (by simp)
    intro _ apart d inside
    have other : c ≠ d := fun same => apart c rfl (same ▸ inside)
    simp [other]
  | _ => exact .quiet rfl (.refl _) (fun _ => rfl) (by simp) (by simp) rfl (by simp)

structure LeaseInvariant (s : State) : Prop where
  distinct : s.pool.contexts.Nodup
  known : ∀ c ∈ s.pool.contexts, c < s.pool.fresh
  mentioned : ∀ (i : Nat) (pc : Pc), s.tasks[i]? = some pc → ∀ c ∈ pc.mentions, c < s.pool.fresh
  secret : ∀ (i : Nat) (pc : Pc) (c : ContextId), s.tasks[i]? = some pc → pc.incoming = some c →
    c ∉ s.pool.contexts ∧ pc.owns c = busyCount s.pool c ∧
    ∀ (j : Nat) (other : Pc), s.tasks[j]? = some other → j ≠ i → c ∉ other.mentions
  held : ∀ c, Tasks.weigh (Pc.owns c) s.tasks ≤ busyCount s.pool c
  exact : ∀ c ∈ s.pool.contexts, Tasks.weigh (Pc.owns c) s.tasks = busyCount s.pool c

theorem owns_eq_zero (unknown : c ∉ pc.mentions) : pc.owns c = 0 :=
  Nat.eq_zero_of_not_pos fun owns => unknown (mentions_of_owns owns)

/-- Nobody owns a context that has not been created. -/
theorem LeaseInvariant.unborn (valid : LeaseInvariant s) : Tasks.weigh (Pc.owns s.pool.fresh) s.tasks = 0 := by
  refine Tasks.weigh_eq_zero_iff.mpr fun i pc at_ => owns_eq_zero fun member => ?_
  exact Nat.lt_irrefl _ (valid.mentioned i pc at_ _ member)

/-- While its creator holds a context back, the creator is the only possible owner. -/
theorem LeaseInvariant.creator (valid : LeaseInvariant s) {i : Nat} (at_ : s.tasks[i]? = some pc)
    (incoming : pc.incoming = some c) : Tasks.weigh (Pc.owns c) s.tasks = pc.owns c := by
  obtain ⟨_,_,others⟩ := valid.secret i pc c at_ incoming
  have rest := Tasks.weigh_set (w := Pc.owns c) at_ .finished
  have none_ : Tasks.weigh (Pc.owns c) (s.tasks.set i .finished) = 0 := by
    refine Tasks.weigh_eq_zero_iff.mpr fun j other atJ => ?_
    rw [List.getElem?_set] at atJ
    split at atJ
    · split at atJ
      · obtain rfl := Option.some.inj atJ
        rfl
      · contradiction
    · next apart => exact owns_eq_zero (others j other atJ (Ne.symm apart))
  rw [none_] at rest
  simpa using rest.symm

theorem Leased.grows (leased : Leased p pc pool pc' spawned) : p.fresh ≤ pool.fresh := by
  rcases leased.fresh with same | ⟨more,_⟩
  · exact Nat.le_of_eq same.symm
  · exact more ▸ Nat.le_succ _

/-- Only the task that moved owns more or less than before. -/
theorem Leased.weigh {s : State} {i : Nat} (leased : Leased s.pool pc pool pc' spawned) (at_ : s.tasks[i]? = some pc)
    (c : ContextId) : Tasks.weigh (Pc.owns c) (s.tasks.set i pc' ++ spawned) + pc.owns c =
      Tasks.weigh (Pc.owns c) s.tasks + pc'.owns c := by
  have total := weigh_moved (Pc.owns c) at_ pc' spawned
  have none_ : Tasks.weigh (Pc.owns c) spawned = 0 := by
    refine Tasks.weigh_eq_zero_iff.mpr fun j x atJ => owns_eq_zero ?_
    rw [leased.newborn x (List.mem_of_getElem? atJ)]
    exact List.not_mem_nil
  omega

section Move

variable {s : State} {i : Nat} (valid : LeaseInvariant s) (at_ : s.tasks[i]? = some pc)
  (leased : Leased s.pool pc pool pc' spawned)

include valid at_ leased

theorem LeaseInvariant.mentioned_move {j : Nat} {x : Pc} (atJ : (s.tasks.set i pc' ++ spawned)[j]? = some x)
    {c : ContextId} (member : c ∈ x.mentions) : c < pool.fresh := by
  rcases Tasks.getElem?_set_append at_ pc' spawned atJ with ⟨_,rfl⟩ | ⟨_,atJ⟩ | ⟨_,born⟩
  · rcases leased.mentions c member with own | inside | ⟨rfl,more⟩
    · exact Nat.lt_of_lt_of_le (valid.mentioned i pc at_ c own) leased.grows
    · exact Nat.lt_of_lt_of_le (valid.known c inside) leased.grows
    · exact more ▸ Nat.lt_succ_self _
  · exact Nat.lt_of_lt_of_le (valid.mentioned j x atJ c member) leased.grows
  · rw [leased.newborn x born] at member
    contradiction

/-- What the task that moved has just created, nobody has heard of. -/
theorem LeaseInvariant.secret_created {c : ContextId} (incoming : pc'.incoming = some c) :
    c ∉ pool.contexts ∧ pc'.owns c = busyCount pool c ∧
      ∀ (k : Nat) (y : Pc), (s.tasks.set i pc' ++ spawned)[k]? = some y → k ≠ i → c ∉ y.mentions := by
  obtain ⟨rfl,_,same,owner⟩ := leased.incoming c incoming
  refine ⟨?_,owner,?_⟩
  · rw [same]
    exact fun inside => Nat.lt_irrefl _ (valid.known _ inside)
  · intro k y atK otherK member
    rcases Tasks.getElem?_set_append at_ _ spawned atK with ⟨same,_⟩ | ⟨_,atK⟩ | ⟨_,born⟩
    · exact otherK same
    · exact Nat.lt_irrefl _ (valid.mentioned k y atK _ member)
    · rw [leased.newborn y born] at member
      contradiction

/-- What another task has created stays its own. -/
theorem LeaseInvariant.secret_other {j : Nat} {x : Pc} {c : ContextId} (other : j ≠ i) (atJ : s.tasks[j]? = some x)
    (incoming : x.incoming = some c) : c ∉ pool.contexts ∧ x.owns c = busyCount pool c ∧
      ∀ (k : Nat) (y : Pc), (s.tasks.set i pc' ++ spawned)[k]? = some y → k ≠ j → c ∉ y.mentions := by
  obtain ⟨outside,owner,others⟩ := valid.secret j x c atJ incoming
  have unknown : c ∉ pc.mentions := others i pc at_ (Ne.symm other)
  have older : c ≠ s.pool.fresh :=
    Nat.ne_of_lt (valid.mentioned j x atJ c (mentions_of_incoming incoming))
  refine ⟨?_,?_,?_⟩
  · intro inside
    rcases leased.contexts c inside with old | created
    · exact outside old
    · exact unknown (mentions_of_incoming created)
  · rw [owner,busyCount,busyCount,leased.untouched c unknown older]
  · intro k y atK otherK member
    rcases Tasks.getElem?_set_append at_ pc' spawned atK with ⟨rfl,rfl⟩ | ⟨_,atK⟩ | ⟨_,born⟩
    · rcases leased.mentions c member with own | inside | ⟨new,_⟩
      · exact unknown own
      · exact outside inside
      · exact older new
    · exact others k y atK otherK member
    · rw [leased.newborn y born] at member
      contradiction

theorem LeaseInvariant.move : LeaseInvariant ⟨pool,s.tasks.set i pc' ++ spawned⟩ := by
  have bound : i < s.tasks.length := (List.getElem?_eq_some_iff.mp at_).1
  have apart : ∀ c, pc.incoming = some c → c ∉ s.pool.contexts := fun c incoming =>
    (valid.secret i pc c at_ incoming).1
  constructor
  case distinct => exact leased.nodup valid.distinct apart
  case known =>
    intro c inside
    rcases leased.contexts c inside with old | created
    · exact Nat.lt_of_lt_of_le (valid.known c old) leased.grows
    · exact Nat.lt_of_lt_of_le (valid.mentioned i pc at_ c (mentions_of_incoming created)) leased.grows
  case mentioned => exact fun j x atJ c member => valid.mentioned_move at_ leased atJ member
  case secret =>
    intro j x c atJ incoming
    rcases Tasks.getElem?_set_append at_ pc' spawned atJ with ⟨rfl,rfl⟩ | ⟨other,atJ⟩ | ⟨_,born⟩
    · exact valid.secret_created at_ leased incoming
    · exact valid.secret_other at_ leased other atJ incoming
    · have member := mentions_of_incoming incoming
      rw [leased.newborn x born] at member
      contradiction
  case held =>
    intro c
    have total := leased.weigh at_ c
    by_cases new : c = s.pool.fresh
    · subst new
      rw [valid.unborn,Nat.zero_add] at total
      have owner : pc'.owns s.pool.fresh ≤ busyCount pool s.pool.fresh := by
        rcases leased.fresh with same | ⟨_,created⟩
        · rw [owns_eq_zero fun member => ?_]
          · exact Nat.zero_le _
          · have below := valid.mentioned_move at_ leased (j := i) (by simp [List.getElem?_append,bound]) member
            exact Nat.lt_irrefl _ (same ▸ below)
        · exact Nat.le_of_eq (leased.incoming _ created).2.2.2
      dsimp only
      omega
    · have := leased.held c new
      have := valid.held c
      dsimp only
      omega
  case exact =>
    intro c inside
    have total := leased.weigh at_ c
    by_cases new : c = s.pool.fresh
    · subst new
      rcases leased.contexts _ inside with old | created
      · exact absurd (valid.known _ old) (Nat.lt_irrefl _)
      · exact absurd (valid.mentioned i pc at_ _ (mentions_of_incoming created)) (Nat.lt_irrefl _)
    · have balance := leased.balanced valid.distinct apart c new inside
      have before : Tasks.weigh (Pc.owns c) s.tasks = busyCount s.pool c := by
        rcases leased.contexts c inside with old | created
        · exact valid.exact c old
        · rw [valid.creator at_ created]
          exact (valid.secret i pc c at_ created).2.1
      dsimp only
      omega

end Move

/-- A task that knows no context owns none. -/
theorem weigh_arrived (unaware : pc.mentions = []) (tasks : List Pc) (c : ContextId) :
    Tasks.weigh (Pc.owns c) (tasks ++ [pc]) = Tasks.weigh (Pc.owns c) tasks := by
  have unknown : c ∉ pc.mentions := unaware ▸ List.not_mem_nil
  rw [Tasks.weigh_append,Tasks.weigh_cons,Tasks.weigh_nil,owns_eq_zero unknown]
  rfl

theorem LeaseInvariant.arrive (valid : LeaseInvariant s) (unaware : pc.mentions = []) :
    LeaseInvariant { s with tasks := s.tasks ++ [pc] } := by
  have weighs := weigh_arrived unaware s.tasks
  constructor
  case distinct => exact valid.distinct
  case known => exact valid.known
  case mentioned =>
    intro j x atJ c member
    rcases Tasks.getElem?_append_cases atJ with atJ | ⟨_,rfl⟩
    · exact valid.mentioned j x atJ c member
    · rw [unaware] at member
      contradiction
  case secret =>
    intro j x c atJ incoming
    rcases Tasks.getElem?_append_cases atJ with atJ | ⟨_,rfl⟩
    · obtain ⟨outside,owner,others⟩ := valid.secret j x c atJ incoming
      refine ⟨outside,owner,fun k y atK otherK member => ?_⟩
      rcases Tasks.getElem?_append_cases atK with atK | ⟨_,rfl⟩
      · exact others k y atK otherK member
      · rw [unaware] at member
        contradiction
    · have member := mentions_of_incoming incoming
      rw [unaware] at member
      contradiction
  case held => exact fun c => (weighs c).symm ▸ valid.held c
  case exact => exact fun c inside => (weighs c).trans (valid.exact c inside)

theorem populate_idle (cfg : Config) (n : Nat) (p : PoolState) (distinct : p.contexts.Nodup)
    (known : ∀ c ∈ p.contexts, c < p.fresh) (idle : ∀ c, p.isBusy c = false) :
    (populateInitialContexts cfg n p).contexts.Nodup ∧
    (∀ c ∈ (populateInitialContexts cfg n p).contexts, c < (populateInitialContexts cfg n p).fresh) ∧
    ∀ c, (populateInitialContexts cfg n p).isBusy c = false := by
  induction n generalizing p with
  | zero => exact ⟨distinct,known,idle⟩
  | succ n ih =>
    have outside : p.fresh ∉ p.contexts := fun inside => Nat.lt_irrefl _ (known _ inside)
    refine ih { createNewContext cfg p with contexts := p.contexts ++ [p.fresh] } ?_ ?_ ?_
    · change (p.contexts ++ [p.fresh]).Nodup
      grind
    · intro c inside
      change c ∈ p.contexts ++ [p.fresh] at inside
      change c < p.fresh + 1
      rcases List.mem_append.mp inside with old | new
      · exact Nat.lt_succ_of_lt (known c old)
      · exact (List.mem_singleton.mp new) ▸ Nat.lt_succ_self _
    · intro c
      change (p.addContext ⟨some p.nextTab,_⟩ false).isBusy c = false
      rw [PoolState.addContext_isBusy]
      split
      · rfl
      · exact idle c

theorem LeaseInvariant.initial : LeaseInvariant (initial cfg) := by
  have start : (Pool.initial cfg).pool.contexts.Nodup ∧
      (∀ c ∈ (Pool.initial cfg).pool.contexts, c < (Pool.initial cfg).pool.fresh) ∧
      ∀ c, (Pool.initial cfg).pool.isBusy c = false := by
    cases mode : cfg.scope.sessionMode with
    | reusable =>
      simp only [Pool.initial,mode]
      exact populate_idle cfg _ PoolState.empty List.nodup_nil (by simp) (fun _ => rfl)
    | alwaysNew | dedicated =>
      simp only [Pool.initial,mode]
      exact ⟨List.nodup_nil,by simp,fun _ => rfl⟩
  obtain ⟨distinct,known,idle⟩ := start
  have unowned : ∀ c, Tasks.weigh (Pc.owns c) (Pool.initial cfg).tasks = 0 := fun _ => rfl
  refine ⟨distinct,known,?_,?_,?_,?_⟩
  · intro i pc at_ c member
    rw [initial_task at_] at member
    contradiction
  · intro i pc c at_ incoming
    rw [initial_task at_] at incoming
    contradiction
  · exact fun c => (unowned c).symm ▸ Nat.zero_le _
  · intro c _
    rw [unowned,busyCount,idle]
    rfl

theorem LeaseInvariant.step (locked : LockInvariant s) (valid : LeaseInvariant s)
    (taken : step cfg s action = some t) : LeaseInvariant t := by
  rcases step_cases taken with ⟨_,_,rfl⟩ | ⟨pc,arrives,rfl⟩ | ⟨i,_,pc,pool,pc',spawned,_,at_,moved,rfl⟩ |
    ⟨i,pc,pool,pc',_,at_,dropped,rfl⟩
  · exact ⟨valid.distinct,valid.known,valid.mentioned,valid.secret,valid.held,valid.exact⟩
  · apply valid.arrive
    rcases arrival_cases arrives with ⟨_,rfl⟩ | ⟨_,rfl⟩ | ⟨_,rfl⟩ <;> rfl
  · have owned : ∀ c, pc.owns c ≤ busyCount s.pool c := fun c =>
      Nat.le_trans (Tasks.weight_le at_) (valid.held c)
    exact valid.move at_ (next_leased (locked.sections i pc at_) (valid.mentioned i pc at_) owned moved)
  · simpa using valid.move at_ (cancelled_leased dropped)

theorem lease_invariant (run : (machine cfg).Reachable s) : LeaseInvariant s :=
  run.invariant LeaseInvariant.initial
    (fun _ _ _ before valid taken => valid.step (lock_invariant before) taken)

/-- The request's `ContextBusyGuard` on `c` is alive. -/
def Pc.guards (c : ContextId) : Pc → Bool
  | .serving d | .destroying d | .stamping d | .clearing d | .releasing _ (.serve d) => c = d
  | _ => false

def Pc.handsOver (c : ContextId) : Pc → Bool
  | .replacing d | .pushing d | .handover d => c = d
  | _ => false

def Pc.recycles (c : ContextId) : Pc → Bool
  | .picking _ claimed | .pickingExpired _ claimed _ => c ∈ claimed
  | .recycling todo | .releasing _ (.recycle todo) => c ∈ todo
  | .rebuilding _ old todo | .swapping _ old todo => c ∈ old :: todo
  | _ => false

theorem owns_pos_iff : 0 < pc.owns c ↔
    pc.guards c = true ∨ pc.handsOver c = true ∨ pc.recycles c = true := by
  cases pc with
  | releasing todo after =>
    cases after <;> simp [Pc.guards,Pc.handsOver,Pc.recycles,List.count_pos_iff]
  | _ => simp [Pc.guards,Pc.handsOver,Pc.recycles,List.count_pos_iff]

theorem LeaseInvariant.single {i j : Nat} (valid : LeaseInvariant s) (ati : s.tasks[i]? = some a)
    (atj : s.tasks[j]? = some b) (ownsA : 0 < a.owns c) (ownsB : 0 < b.owns c) : i = j := by
  refine Classical.byContradiction fun apart => ?_
  have both := Tasks.weight_pair_le (w := Pc.owns c) ati atj apart
  have most := valid.held c
  have flag : busyCount s.pool c ≤ 1 := Bool.toNat_le _
  omega

/-- In every reachable state: while one request runs in a context no other request runs in
it and the monitor does not recycle it, and every busy context of the pool has exactly one
owner, which is a request's guard, a hand-over to a request, or the monitor's recycling. -/
theorem exclusive_lease (cfg : Config) (s : State) (run : (machine cfg).Reachable s) :
    (∀ (i j : Nat) (a b : Pc) (c : ContextId), s.tasks[i]? = some a → s.tasks[j]? = some b → i ≠ j →
      a.guards c = true → b.guards c = false ∧ b.recycles c = false) ∧
    (∀ c ∈ s.pool.contexts, s.pool.isBusy c = true →
      ∃! i : Nat, ∃ pc : Pc, s.tasks[i]? = some pc ∧
        (pc.guards c = true ∨ pc.handsOver c = true ∨ pc.recycles c = true)) := by
  have valid := lease_invariant run
  constructor
  · intro i j a b c ati atj apart guarded
    have ownsA : 0 < a.owns c := owns_pos_iff.mpr (Or.inl guarded)
    constructor
    · refine Bool.eq_false_iff.mpr fun also => apart ?_
      exact valid.single ati atj ownsA (owns_pos_iff.mpr (Or.inl also))
    · refine Bool.eq_false_iff.mpr fun also => apart ?_
      exact valid.single ati atj ownsA (owns_pos_iff.mpr (Or.inr (Or.inr also)))
  · intro c inside busy
    have total := valid.exact c inside
    rw [busyCount,busy] at total
    have some_ : 0 < Tasks.weigh (Pc.owns c) s.tasks := by rw [total]; decide
    obtain ⟨i,pc,at_,owns⟩ := Tasks.exists_of_weigh_pos some_
    refine ⟨i,⟨pc,at_,owns_pos_iff.mp owns⟩,?_⟩
    rintro j ⟨other,atj,also⟩
    exact valid.single atj at_ (owns_pos_iff.mpr also) owns

theorem exclusive_lease_first_request :
    ∃ s, (machine (Config.small .dedicated)).exec (firstRequest .createDedicatedContext)
        (machine (Config.small .dedicated)).initial = some s ∧
      s.pool.contexts = [0] ∧ s.pool.isBusy 0 = true ∧
      ∃! i : Nat, ∃ pc : Pc, s.tasks[i]? = some pc ∧
        (pc.guards 0 = true ∨ pc.handsOver 0 = true ∨ pc.recycles 0 = true) := by
  have ran : (machine (Config.small .dedicated)).exec (firstRequest .createDedicatedContext)
    (machine (Config.small .dedicated)).initial = some _ := rfl
  exact ⟨_,ran,rfl,rfl,
    (exclusive_lease _ _ (Machine.reachable_of_exec ran)).2 0 (List.mem_singleton.mpr rfl) rfl⟩

end BrowserHive.Pool
