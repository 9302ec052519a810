import BrowserHive.Pool.Lease

/-! Who takes a context away from the pool while a request runs in it. In `dedicated` mode
the monitor reads a busy flag and acts on it later, without claiming the context; a session
continuation can claim it in between. Without such a claim no context is ever removed or
released under a live request. -/
namespace BrowserHive.Pool

open BrowserHive Transition

variable {cfg : Config} {p pool : PoolState} {tasks : List Pc} {pc pc' : Pc} {spawned : List Pc}

/-- The monitor has loaded the flag of `c` clear, and has neither spared nor released `c` since. -/
def Pc.dooms (c : ContextId) : Pc → Bool
  | .draining _ _ expired => c ∈ expired
  | .judging _ _ expired d => c ∈ expired ∨ c = d
  | .releasing todo .sleep => c ∈ todo
  | _ => false

def Pc.releases (c : ContextId) : Pc → Bool
  | .releasing (d :: _) _ => c = d
  | _ => false

/-- A step of task `i` takes `c` out of the pool, or passes it to `release_context`, while
the busy guard of another request on `c` is alive. -/
def Evicts (s : State) (action : Action) (t : State) (c : ContextId) : Prop :=
  ∃ (i : Nat) (choice : Choice) (pc : Pc), action = .run i choice ∧ s.tasks[i]? = some pc ∧
    ((c ∈ s.pool.contexts ∧ c ∉ t.pool.contexts) ∨ pc.releases c = true) ∧
    ∃ (j : Nat) (other : Pc), j ≠ i ∧ s.tasks[j]? = some other ∧ other.guards c = true

/-- What a `dedicated` worker starts: requests that create a session or continue one. Only
the guards of `AlwaysNew` spawn a `destroy_context` of its own. -/
def Action.ofDedicated : Action → Bool
  | .call request => request = .createDedicatedContext
  | .destroy _ => false
  | _ => true

/-- No continuation wins its compare-exchange on a context between the monitor's load of the flag
and the release. -/
def undisturbed (s : State) : Action → Bool
  | .run i _ =>
    match s.tasks[i]? with
    | some (.continuing c) => s.pool.isBusy c || s.tasks.all (fun other => !other.dooms c)
    | _ => true
  | _ => true

/-- The steps of a `dedicated` worker in which the continuations stay out of the monitor's way. -/
def Permitted (s : State) (action : Action) : Prop := action.ofDedicated = true ∧ undisturbed s action = true

instance : Decidable (Permitted s action) := inferInstanceAs (Decidable (_ ∧ _))

def Pc.dedicated : Pc → Prop
  | .sleeping | .draining .. | .judging .. | .acquiring .createDedicatedContext | .building | .waiting _
  | .pushing _ | .handover _ | .session _ | .found _ | .ending _ | .continuing _ | .serving _
  | .destroying _ | .stamping _ | .clearing _ | .closure .. | .answering _ | .finished => True
  | .releasing _ .sleep | .releasing _ .sessionEnded => True
  | .releasing todo (.serve c) => ∀ d ∈ todo, d = c
  | _ => False

def Pc.ends (c : ContextId) : Pc → Bool
  | .releasing todo .sessionEnded => c ∈ todo
  | _ => false

attribute [simp] Pc.dooms Pc.ends Pc.dedicated

structure Careful (cfg : Config) (p : PoolState) (pc : Pc) (pool : PoolState) (pc' : Pc)
    (spawned : List Pc) : Prop where
  dedicated : pc'.dedicated
  spawns : ∀ x ∈ spawned, x.dedicated ∧ ∀ c, x.dooms c = false ∧ x.ends c = false
  dooms : ∀ c, pc'.dooms c = true → pc.dooms c = true ∨ (c ∈ pc.mentions ∧ p.isBusy c = false)
  ends : ∀ c, pc'.ends c = true → pc.ends c = true ∨
    (pc = .ending c ∧ p.isBusy c = false ∧ pool.isBusy c = true)
  removes : Section p.contexts pc → ∀ c ∈ p.contexts, c ∉ pool.contexts →
    pc.dooms c = true ∨ (pc = .ending c ∧ p.isBusy c = false) ∨ pc = .destroying c

/-- One more released by a task, with others of the same context left to release. -/
theorem release_careful (at_ : (Pc.releasing (c :: todo) after).dedicated) (contexts : pool.contexts = p.contexts) :
    Careful cfg p (.releasing (c :: todo) after) pool (.releasing todo after) [] := by
  cases after with
  | serve d =>
    have rest : ∀ e ∈ todo, e = d := fun e member => at_ e (List.mem_cons_of_mem c member)
    constructor <;> simp +contextual [contexts]
    exact rest
  | sleep | sessionEnded => constructor <;> simp +contextual [contexts]
  | _ => exact False.elim at_

theorem Walk.careful (mode : cfg.scope.sessionMode = .dedicated) (at_ : pc.dedicated)
    (walks : Walk cfg p tasks choice pc pc') : Careful cfg p pc p pc' [] := by
  cases walks with
  | purge _ other | pick _ other => simp [mode] at other
  | @drainIdle c todo alive expired idle =>
    constructor
    case dooms =>
      intro d doomed
      rcases (by simpa using doomed : d ∈ expired ∨ d = c) with old | rfl
      · exact Or.inl (by simpa using old)
      · exact Or.inr ⟨by simp,idle⟩
    all_goals simp +contextual
  | tabLockTimeout => exact release_careful at_ rfl
  | drain | drainBusy | expire | spare | refuse | handover | find | miss | usedUp | usable | spareSession | taken
  | destroy | finish | answered => constructor <;> simp +contextual
  | _ => exact False.elim at_

/-- A session that is ended takes its context out of the pool, its flag set for good. -/
theorem endSession_careful (idle : p.isBusy c = false) : Careful cfg p (.ending c)
    { p.setBusy c true with contexts := p.contexts.erase c } (.releasing [c] .sessionEnded) [] := by
  constructor
  case ends =>
    intro d ended
    obtain rfl : d = c := by simpa using ended
    exact Or.inr ⟨rfl,idle,(PoolState.setBusy_isBusy p d d true).trans (if_pos rfl)⟩
  case removes =>
    intro _ d inside outside
    have same : d = c := Classical.byContradiction fun other =>
      outside ((List.mem_erase_of_ne other).mpr inside)
    exact Or.inr (Or.inl ⟨same ▸ rfl,same ▸ idle⟩)
  all_goals simp +contextual

theorem Move.careful (mode : cfg.scope.sessionMode = .dedicated) (at_ : pc.dedicated)
    (move : Move cfg p tasks choice pc pool pc' spawned) : Careful cfg p pc pool pc' spawned := by
  cases move with
  | walk walks => exact walks.careful mode at_
  | drained =>
    constructor
    case removes =>
      intro dealt c inside outside
      exact Or.inl (by simpa [outside] using dealt.complete c inside)
    all_goals simp +contextual
  | endSession _ _ idle => exact endSession_careful idle
  | @remove c =>
    constructor
    case removes =>
      intro _ d inside outside
      have same : d = c := Classical.byContradiction fun other =>
        outside (List.mem_filter.mpr ⟨inside,by simpa using other⟩)
      exact Or.inr (Or.inr (same ▸ rfl))
    all_goals simp [removeContext]
  | clearAlwaysNew other => simp [mode] at other
  | release => exact release_careful at_ rfl
  | @released after => cases after <;> first | exact False.elim at_ | (constructor <;> simp [After.next])
  | returns made => cases made <;> constructor <;> simp +contextual
  | push => constructor <;> simp_all
  | reserveDedicated | build | built | unbuilt | awaitBuild | continues | touch | block | stamp | clear | cdpContext
  | send | discard => constructor <;> simp +contextual
  | _ => exact False.elim at_

theorem next_careful (mode : cfg.scope.sessionMode = .dedicated) (at_ : pc.dedicated)
    (moved : next cfg p tasks choice pc = some (pool,pc',spawned)) :
    Careful cfg p pc pool pc' spawned := (next_move moved).careful mode at_

theorem cancelled_careful (dropped : cancelled p pc = some (pool,pc')) :
    Careful cfg p pc pool pc' [] ∧ ∀ c, pc'.owns c ≤ pc.owns c := by
  cases cancelled_drop dropped <;> exact ⟨by constructor <;> simp +contextual,by simp⟩

/-- Nobody owns a context that is being evicted, or whose session was ended; the flag of
the latter stays set, so nobody ever will. -/
structure EvictionInvariant (s : State) : Prop where
  points : ∀ (i : Nat) (pc : Pc), s.tasks[i]? = some pc → pc.dedicated
  doomed : ∀ (i : Nat) (pc : Pc) (c : ContextId), s.tasks[i]? = some pc → pc.dooms c = true →
    Tasks.weigh (Pc.owns c) s.tasks = 0
  ended : ∀ (i : Nat) (pc : Pc) (c : ContextId), s.tasks[i]? = some pc → pc.ends c = true →
    s.pool.isBusy c = true ∧ Tasks.weigh (Pc.owns c) s.tasks = 0

theorem mentions_of_dooms (dooms : pc.dooms c = true) : c ∈ pc.mentions := by
  cases pc with
  | releasing todo after => cases after <;> simp_all
  | judging =>
    have doomed := by simpa using dooms
    rcases doomed with gone | same
    · simp [gone]
    · simp [same]
  | _ => simp_all

theorem mentions_of_ends (ends : pc.ends c = true) : c ∈ pc.mentions := by
  cases pc with
  | releasing todo after => cases after <;> simp_all
  | _ => simp_all

theorem owns_of_dooms (dooms : pc.dooms c = true) : pc.owns c = 0 := by
  cases pc with
  | releasing todo after => cases after <;> first | rfl | contradiction
  | _ => first | rfl | contradiction

theorem owns_of_ends (ends : pc.ends c = true) : pc.owns c = 0 := by
  cases pc with
  | releasing todo after => cases after <;> first | rfl | contradiction
  | _ => first | rfl | contradiction

theorem LeaseInvariant.unowned {s : State} (leases : LeaseInvariant s) (idle : s.pool.isBusy c = false) :
    Tasks.weigh (Pc.owns c) s.tasks = 0 := by
  have most := leases.held c
  rw [busyCount,idle] at most
  exact Nat.eq_zero_of_le_zero most

/-- A context nobody owns stays unowned across a step that cannot claim it, and a set flag
that nobody owns stays set. -/
theorem unowned_moved {s : State} {i : Nat} (at_ : s.tasks[i]? = some pc) (leased : Leased s.pool pc pool pc' spawned)
    (older : c ≠ s.pool.fresh) (unowned : Tasks.weigh (Pc.owns c) s.tasks = 0)
    (shut : s.pool.isBusy c = true ∨ pc'.owns c ≤ pc.owns c) :
    Tasks.weigh (Pc.owns c) (s.tasks.set i pc' ++ spawned) = 0 ∧
    (s.pool.isBusy c = true → pool.isBusy c = true) := by
  have before : pc.owns c = 0 := Tasks.weigh_eq_zero_iff.mp unowned i pc at_
  have held := leased.held c older
  have most : busyCount pool c ≤ 1 := Bool.toNat_le _
  have stays : s.pool.isBusy c = true → pool.isBusy c = true := by
    intro busy
    rw [busyCount,busy,before] at held
    refine Bool.eq_true_of_not_eq_false fun flag => ?_
    rw [busyCount,flag] at held
    exact absurd (Nat.le_trans (Nat.le_add_right _ _) held) (by decide)
  have after : pc'.owns c = 0 := by
    rcases shut with busy | fewer
    · rw [busyCount,busy] at held
      simp only [Bool.toNat_true,before] at held
      omega
    · omega
  refine ⟨?_,stays⟩
  have total := weigh_moved (Pc.owns c) at_ pc' spawned
  have none_ : Tasks.weigh (Pc.owns c) spawned = 0 := by
    refine Tasks.weigh_eq_zero_iff.mpr fun j x atJ => owns_eq_zero ?_
    rw [leased.newborn x (List.mem_of_getElem? atJ)]
    exact List.not_mem_nil
  omega

theorem EvictionInvariant.move {s : State} {i : Nat} (leases : LeaseInvariant s) (valid : EvictionInvariant s)
    (at_ : s.tasks[i]? = some pc) (leased : Leased s.pool pc pool pc' spawned)
    (careful : Careful cfg s.pool pc pool pc' spawned)
    (shut : ∀ (j : Nat) (other : Pc) (c : ContextId), s.tasks[j]? = some other → other.dooms c = true →
      s.pool.isBusy c = true ∨ pc'.owns c ≤ pc.owns c) :
    EvictionInvariant ⟨pool,s.tasks.set i pc' ++ spawned⟩ := by
  have older : ∀ (j : Nat) (other : Pc) (c : ContextId), s.tasks[j]? = some other → c ∈ other.mentions →
      c ≠ s.pool.fresh := fun j other c atJ member => Nat.ne_of_lt (leases.mentioned j other atJ c member)
  constructor
  case points =>
    intro j x atJ
    rcases Tasks.getElem?_set_append at_ pc' spawned atJ with ⟨_,rfl⟩ | ⟨_,atJ⟩ | ⟨_,born⟩
    · exact careful.dedicated
    · exact valid.points j x atJ
    · exact (careful.spawns x born).1
  case doomed =>
    intro j x c atJ dooms
    rcases Tasks.getElem?_set_append at_ pc' spawned atJ with ⟨_,rfl⟩ | ⟨_,atJ⟩ | ⟨_,born⟩
    · rcases careful.dooms c dooms with old | ⟨known,idle⟩
      · exact (unowned_moved at_ leased (older i pc c at_ (mentions_of_dooms old)) (valid.doomed i pc c at_ old)
          (shut i pc c at_ old)).1
      · exact (unowned_moved at_ leased (older i pc c at_ known) (leases.unowned idle)
          (Or.inr (owns_of_dooms dooms ▸ Nat.zero_le _))).1
    · exact (unowned_moved at_ leased (older j x c atJ (mentions_of_dooms dooms)) (valid.doomed j x c atJ dooms)
        (shut j x c atJ dooms)).1
    · exact absurd dooms (by rw [((careful.spawns x born).2 c).1]; decide)
  case ended =>
    intro j x c atJ ends
    have stays : ∀ (k : Nat) (y : Pc), s.tasks[k]? = some y → y.ends c = true →
        pool.isBusy c = true ∧ Tasks.weigh (Pc.owns c) (s.tasks.set i pc' ++ spawned) = 0 := by
      intro k y atK ended
      obtain ⟨busy,unowned⟩ := valid.ended k y c atK ended
      obtain ⟨none_,flag⟩ := unowned_moved at_ leased (older k y c atK (mentions_of_ends ended)) unowned
        (Or.inl busy)
      exact ⟨flag busy,none_⟩
    rcases Tasks.getElem?_set_append at_ pc' spawned atJ with ⟨_,rfl⟩ | ⟨_,atJ⟩ | ⟨_,born⟩
    · rcases careful.ends c ends with old | ⟨rfl,idle,busy⟩
      · exact stays i pc at_ old
      · exact ⟨busy,(unowned_moved at_ leased (older i _ c at_ (by simp)) (leases.unowned idle)
          (Or.inr (owns_of_ends ends ▸ Nat.zero_le _))).1⟩
    · exact stays j x atJ ends
    · exact absurd ends (by rw [((careful.spawns x born).2 c).2]; decide)

theorem EvictionInvariant.initial : EvictionInvariant (initial cfg) := by
  refine ⟨?_,?_,?_⟩
  · intro i pc at_
    rw [initial_task at_]
    trivial
  · intro i pc c at_ dooms
    rw [initial_task at_] at dooms
    contradiction
  · intro i pc c at_ ends
    rw [initial_task at_] at ends
    contradiction

theorem EvictionInvariant.arrive {s : State} (valid : EvictionInvariant s) (here : pc.dedicated)
    (unaware : pc.mentions = []) : EvictionInvariant { s with tasks := s.tasks ++ [pc] } := by
  have none_ : ∀ c, c ∉ pc.mentions := fun c => unaware ▸ List.not_mem_nil
  have weighs := weigh_arrived unaware s.tasks
  constructor
  case points =>
    intro j x atJ
    rcases Tasks.getElem?_append_cases atJ with atJ | ⟨_,rfl⟩
    · exact valid.points j x atJ
    · exact here
  case doomed =>
    intro j x c atJ dooms
    rcases Tasks.getElem?_append_cases atJ with atJ | ⟨_,rfl⟩
    · exact (weighs c).trans (valid.doomed j x c atJ dooms)
    · exact absurd (mentions_of_dooms dooms) (none_ c)
  case ended =>
    intro j x c atJ ends
    rcases Tasks.getElem?_append_cases atJ with atJ | ⟨_,rfl⟩
    · exact ⟨(valid.ended j x c atJ ends).1,(weighs c).trans (valid.ended j x c atJ ends).2⟩
    · exact absurd (mentions_of_ends ends) (none_ c)

theorem EvictionInvariant.step {s t : State} (mode : cfg.scope.sessionMode = .dedicated) (locked : LockInvariant s)
    (leases : LeaseInvariant s) (valid : EvictionInvariant s) (met : Permitted s action)
    (taken : step cfg s action = some t) : EvictionInvariant t := by
  rcases step_cases taken with ⟨_,_,rfl⟩ | ⟨pc,arrives,rfl⟩ | ⟨i,choice,pc,pool,pc',spawned,rfl,at_,moved,rfl⟩ |
    ⟨i,pc,pool,pc',_,at_,dropped,rfl⟩
  · exact ⟨valid.points,valid.doomed,valid.ended⟩
  · cases action <;> simp only [Action.arrival,Option.some.injEq] at arrives
    case call call =>
      obtain rfl : call = .createDedicatedContext := by simpa [Action.ofDedicated] using met.1
      subst arrives
      exact valid.arrive trivial rfl
    case session c =>
      subst arrives
      exact valid.arrive trivial rfl
    case destroy c => exact Bool.noConfusion met.1
    all_goals contradiction
  · have owned : ∀ c, pc.owns c ≤ busyCount s.pool c := fun c =>
      Nat.le_trans (Tasks.weight_le at_) (leases.held c)
    have leased := next_leased (locked.sections i pc at_) (leases.mentioned i pc at_) owned moved
    have here := valid.points i pc at_
    refine valid.move leases at_ leased (next_careful mode here moved) fun j other c atJ dooms => ?_
    refine Classical.byContradiction fun open_ => ?_
    simp only [not_or,Bool.not_eq_true,Nat.not_le] at open_
    obtain ⟨idle,more⟩ := open_
    rcases leased.claimed c more with fresh | claims
    · exact Nat.ne_of_lt (leases.mentioned j other atJ c (mentions_of_dooms dooms)) fresh
    · cases pc with
      | continuing d =>
        obtain rfl : c = d := by simpa using claims
        have clear : s.pool.isBusy c = true ∨ ∀ other ∈ s.tasks, other.dooms c = false := by
          simpa [undisturbed,at_] using met.2
        have safe := clear.resolve_left (by simp [idle]) other (List.mem_of_getElem? atJ)
        exact absurd dooms (by rw [safe]; decide)
      | claiming | pickingExpired => exact here
      | _ => simp at claims
  · obtain ⟨careful,fewer⟩ := @cancelled_careful cfg _ _ _ _ dropped
    simpa using valid.move leases at_ (cancelled_leased dropped) careful (fun _ _ c _ _ => Or.inr (fewer c))

theorem eviction_invariant (mode : cfg.scope.sessionMode = .dedicated) {s : State}
    (run : (machine cfg).Reach Permitted s) : EvictionInvariant s :=
  run.invariant EvictionInvariant.initial
    (fun _ _ _ before valid met taken => valid.step mode (lock_invariant before.reachable)
      (lease_invariant before.reachable) met taken)

theorem owns_of_guards (guards : pc.guards c = true) : 0 < pc.owns c :=
  owns_pos_iff.mpr (Or.inl guards)

/-- A task of a `dedicated` pool that releases a context has judged it expired, has ended
its session, or holds its guard. -/
theorem releases_cases (here : pc.dedicated) (releases : pc.releases c = true) :
    pc.dooms c = true ∨ pc.ends c = true ∨ pc.guards c = true := by
  cases pc with
  | releasing todo after =>
    cases todo with
    | nil => simp [Pc.releases] at releases
    | cons d todo =>
      obtain rfl : c = d := by simpa [Pc.releases] using releases
      cases after with
      | sleep => exact Or.inl (by simp)
      | sessionEnded => exact Or.inr (Or.inl (by simp))
      | serve e => exact Or.inr (Or.inr (by simpa [Pc.guards] using here c List.mem_cons_self))
      | _ => exact False.elim here
  | _ => simp [Pc.releases] at releases

/-- In a run of a `dedicated` pool in which no continuation claims a context between the monitor's
load of its flag and the release, no step removes a context from the pool or passes it to
`release_context` while another request's guard on it is alive. -/
theorem no_eviction (cfg : Config) (mode : cfg.scope.sessionMode = .dedicated) (s t : State)
    (action : Action) (run : (machine cfg).Reach Permitted s)
    (taken : step cfg s action = some t) (c : ContextId) : ¬Evicts s action t c := by
  have valid := eviction_invariant mode run
  have leases := lease_invariant run.reachable
  rintro ⟨i,choice,pc,rfl,at_,gone,j,other,apart,atJ,guarded⟩
  have guards : 0 < other.owns c := owns_of_guards guarded
  have present : 0 < Tasks.weigh (Pc.owns c) s.tasks :=
    Nat.lt_of_lt_of_le guards (Tasks.weight_le atJ)
  have free : ∀ d, pc.dooms d = true → d ≠ c := by
    rintro d dooms rfl
    exact Nat.ne_of_gt present (valid.doomed i pc d at_ dooms)
  have own : pc.guards c = false := by
    refine Bool.eq_false_iff.mpr fun also => apart ?_
    exact leases.single atJ at_ guards (owns_of_guards also)
  rcases gone with ⟨inside,outside⟩ | releases
  · rcases step_cases taken with ⟨_,same,_⟩ | ⟨_,arrives,_⟩ | ⟨_,_,_,pool,pc',spawned,same,at_',moved,rfl⟩ |
      ⟨_,_,_,_,same,_⟩
    · contradiction
    · contradiction
    · obtain ⟨rfl,rfl⟩ := by simpa using same
      obtain rfl := Option.some.inj (at_.symm.trans at_')
      have careful := next_careful mode (valid.points i pc at_) moved
      rcases careful.removes ((lock_invariant run.reachable).sections i pc at_) c inside outside with
        dooms | ⟨rfl,idle⟩ | rfl
      · exact free c dooms rfl
      · exact Nat.ne_of_gt present (leases.unowned idle)
      · simp [Pc.guards] at own
    · contradiction
  · rcases releases_cases (valid.points i pc at_) releases with dooms | ends | also
    · exact free c dooms rfl
    · exact Nat.ne_of_gt present (valid.ended i pc c at_ ends).2
    · simp [also] at own

/-- The first request of a small pool is served while the monitor ticks past it. -/
theorem no_eviction_first_request :
    ∃ s t, (machine (Config.small .dedicated)).exec
        (firstRequest .createDedicatedContext ++ [.tick 61,.run 0 .go,.run 0 .go])
        (machine (Config.small .dedicated)).initial = some s ∧
      (machine (Config.small .dedicated)).step s (.run 0 .go) = some t ∧
      s.tasks[1]? = some (.serving 0) ∧ ∀ c, ¬Evicts s (.run 0 .go) t c := by
  have ran : (machine (Config.small .dedicated)).exec
      (firstRequest .createDedicatedContext ++ [.tick 61,.run 0 .go,.run 0 .go])
      (machine (Config.small .dedicated)).initial = some _ := rfl
  have met : (machine (Config.small .dedicated)).Meets Permitted
      (firstRequest .createDedicatedContext ++ [.tick 61,.run 0 .go,.run 0 .go])
      (machine (Config.small .dedicated)).initial := by decide +kernel
  exact ⟨_,_,ran,rfl,rfl,
    no_eviction (Config.small .dedicated) rfl _ _ (.run 0 .go) (Machine.Reach.exec_meets .initial ran met) rfl⟩

/-- A continuation finds its context, the monitor judges it idle and expired, and the
continuation claims it before the monitor has dropped it: the monitor closes the tab the
request runs in. -/
def disturbed : List Action :=
  firstRequest .createDedicatedContext ++
    [.run 1 .finish,.run 1 .go,.run 1 .go,.session 0,.run 3 .go,.tick 61,.run 3 .go,.run 0 .go,.run 0 .go,
      .run 0 .go,.run 3 .go]

theorem monitor_evicts_claimed :
    ¬∀ (cfg : Config), cfg.scope.sessionMode = .dedicated → ∀ (s t : State) (action : Action),
      (machine cfg).Reach (fun _ action => action.ofDedicated = true) s → step cfg s action = some t →
      ∀ c, ¬Evicts s action t c := by
  intro never
  have ran : (machine (Config.small .dedicated)).exec disturbed (machine (Config.small .dedicated)).initial =
      some _ := rfl
  have met : (machine (Config.small .dedicated)).Meets (fun _ action => action.ofDedicated = true) disturbed
      (machine (Config.small .dedicated)).initial := by decide +kernel
  apply never _ rfl _ _ (.run 0 .go) (Machine.Reach.exec_meets .initial ran met) rfl 0
  exact ⟨0,.go,_,rfl,rfl,Or.inl ⟨by decide +kernel,by decide +kernel⟩,3,.serving 0,by decide,rfl,rfl⟩

end BrowserHive.Pool
