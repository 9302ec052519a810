import BrowserHive.Lib.Record
import BrowserHive.Pool.Lease

/-! How often a context is used. A request counts itself on its context once, after it has
claimed it; whether the context is used up was read before. No count passes
`max_requests` in runs where nobody counts itself between that reading and the claim. -/
namespace BrowserHive.Pool

open BrowserHive Transition

variable {cfg : Config} {p pool : PoolState} {tasks : List Pc} {pc pc' : Pc} {spawned : List Pc}

def PoolState.requests (p : PoolState) (c : ContextId) : Nat := (p.ctx c).totalRequests

def Pc.serves (c : ContextId) : Pc → Bool
  | .pushing d | .handover d | .serving d | .destroying d | .releasing _ (.serve d) => c = d
  | _ => false

def Pc.takes : Pc → Option ContextId
  | .claiming .write .usedUp _ _ => none
  | .claiming _ _ (c :: _) _ => some c
  | .continuing c => some c
  | _ => none

/-- The contexts a request at this point may claim on what it has read of them. -/
def Pc.offers : Pc → List ContextId
  | .selecting _ selection _ taken _ => if selection = .usedUp then [] else taken
  | .claiming _ selection candidates _ => if selection = .usedUp then [] else candidates
  | .continuing c => [c]
  | _ => []

/-- The context a step reads as one that is not used up. -/
def Pc.reads : Pc → Pc → Option ContextId
  | .selecting _ selection (c :: _) before _,.selecting _ _ _ after _ =>
    if selection = .usedUp ∨ after = before then none else some c
  | .found c,.continuing _ => some c
  | _,_ => none

/-- `counted` are the requests that have counted themselves; `current i c` is set while nobody has
counted itself on `c` since the request `i` has read it. -/
structure Served where
  counted : Nat → Bool
  current : Nat → ContextId → Bool

/-- A request increments `total_requests` once. A continuation whose session `end_session_if_used_up`
has left alone goes on with a context that it read as used up. -/
def Served.run (r : Served) (i : Nat) (choice : Choice) (pc pc' : Pc) : Option Served :=
  match pc with
  | .serving c =>
    if choice ≠ .touch then some r
    else if r.counted i then none
    else some ⟨Function.update r.counted i true,fun j d => r.current j d && d ≠ c⟩
  | .ending c => some { r with current := fun j d => r.current j d && (j ≠ i || d ≠ c) }
  | _ => some { r with current := fun j d => r.current j d || (j = i && pc.reads pc' = some d) }

def Served.follow (s : State) (r : Served) (action : Action) (t : State) : Option Served :=
  match action with
  | .run i choice =>
    match s.tasks[i]?,t.tasks[i]? with
    | some pc,some pc' => r.run i choice pc pc'
    | _,_ => none
  | _ => some r

def usage (cfg : Config) : Machine (State × Served) Action :=
  (machine cfg).record ⟨fun _ => false,fun _ _ => false⟩ id Served.follow

/-- Whether the next step gives the task the context that was built for it. -/
def Pc.builds (p : PoolState) : Pc → Bool
  | .waiting j =>
    match (p.calls j).caller with
    | .returned (.ok _) => true
    | _ => false
  | _ => false

/-- A request wins the compare-exchange of a context only when it has read that the context is not
used up, and nobody has counted itself on the context since. -/
def claimsCurrent (s : State × Served) : Action → Bool
  | .run i _ => ((s.1.tasks[i]?).bind Pc.takes).all fun c => s.1.pool.isBusy c || s.2.current i c
  | _ => true

section Frame

variable (p : PoolState) (c d : ContextId) (f : BrowserContext → BrowserContext) (busy : Bool)
  (cfg : Config) (slot : Slot) (j : Nat) (call : CdpCall.State Slot Unit)

theorem PoolState.modify_requests (keeps : (f (p.ctx c)).totalRequests = (p.ctx c).totalRequests) :
    (p.modify c f).requests d = p.requests d := by
  by_cases same : d = c
  · subst same
    simp [requests,modify,keeps]
  · simp [requests,modify,same]

@[simp] theorem PoolState.setBusy_requests : (p.setBusy c busy).requests d = p.requests d :=
  modify_requests p c d _ rfl

@[simp] theorem PoolState.release_requests : (p.release cfg c).requests d = p.requests d :=
  modify_requests p c d (fun context => { context with tab := none }) rfl

@[simp] theorem PoolState.addContext_requests :
    (p.addContext slot busy).requests d = if d = p.fresh then 0 else p.requests d := by
  by_cases same : d = p.fresh <;> simp [requests,addContext,BrowserContext.new,same]

@[simp] theorem PoolState.discard_requests : (p.discard cfg slot).requests d = p.requests d := rfl
@[simp] theorem PoolState.setCall_requests : (p.setCall j call).requests d = p.requests d := rfl

end Frame

@[simp] theorem spawnCall_requests (p : PoolState) : (spawnCall p).requests c = p.requests c := rfl
@[simp] theorem reserve_requests (p : PoolState) : (reserve p).requests c = p.requests c := rfl
@[simp] theorem unreserve_requests (p : PoolState) : (unreserve p).requests c = p.requests c := rfl

structure Metered (p : PoolState) (choice : Choice) (pc : Pc) (pool : PoolState) (pc' : Pc)
    (spawned : List Pc) : Prop where
  requests : ∀ c, pool.requests c = p.requests c ∨ (c = p.fresh ∧ pool.requests c = 0) ∨
    (choice = .touch ∧ pc = .serving c ∧ pool.requests c = p.requests c + 1)
  serves : ∀ c, pc'.serves c = true → pc.serves c = true ∨
    (pc.builds p = true ∧ pc' = .pushing c ∧ c = p.fresh ∧ pool.requests c = 0) ∨
    (pc.takes = some c ∧ p.isBusy c = false ∧ pool.requests c = p.requests c)
  newborn : ∀ x ∈ spawned, ∀ c, x.serves c = false

/-- A step that counts nothing and hands nothing out. -/
theorem Metered.quiet (requests : ∀ c, pool.requests c = p.requests c)
    (serves : ∀ c, pc'.serves c = true → pc.serves c = true)
    (newborn : ∀ x ∈ spawned, ∀ c, x.serves c = false) : Metered p choice pc pool pc' spawned :=
  ⟨fun c => .inl (requests c),fun c given => .inl (serves c given),newborn⟩

attribute [local simp] Pc.serves

theorem Walk.metered (walks : Walk cfg p tasks choice pc pc') : Metered p choice pc p pc' [] := by
  cases walks with
  | @tabLockTimeout c todo after => cases after <;> exact .quiet (fun _ => rfl) (by simp) (by simp)
  | _ => exact .quiet (fun _ => rfl) (by simp) (by simp)

theorem addContext_requests_cases (p : PoolState) (slot : Slot) (busy : Bool) (c : ContextId) :
    (p.addContext slot busy).requests c = p.requests c ∨ c = p.fresh ∧ (p.addContext slot busy).requests c = 0 := by
  rw [PoolState.addContext_requests]
  by_cases same : c = p.fresh
  · exact .inr ⟨same,if_pos same⟩
  · exact .inl (if_neg same)

theorem Metered.claim (takes : pc.takes = some c) (idle : p.isBusy c = false)
    (serves : ∀ d, pc'.serves d = true → d = c) : Metered p choice pc (p.setBusy c true) pc' [] := by
  refine ⟨by simp,fun d given => .inr (.inr ?_),by simp⟩
  obtain rfl := serves d given
  exact ⟨takes,idle,by simp⟩

theorem Move.metered (move : Move cfg p tasks choice pc pool pc' spawned) : Metered p choice pc pool pc' spawned := by
  cases move with
  | walk walks => exact walks.metered
  | rebuilt => exact ⟨fun c => (addContext_requests_cases p _ false c).imp_right .inl,by simp,by simp⟩
  | claim idle ready =>
    refine .claim ?_ idle (by simp)
    rename_i access selection c candidates lookup
    cases access <;> cases selection <;> simp_all [Pc.takes]
  | continues idle => exact .claim rfl idle (by simp)
  | built returned =>
    refine ⟨fun c => (addContext_requests_cases p _ true c).imp_right .inl,fun c given => .inr (.inl ?_),by simp⟩
    obtain rfl : c = p.fresh := by simpa using given
    refine ⟨by simp [Pc.builds,returned],rfl,rfl,?_⟩
    exact (PoolState.addContext_requests p p.fresh true _).trans (if_pos rfl)
  | @touch c touch =>
    refine ⟨fun d => ?_,fun d given => .inl given,by simp⟩
    by_cases same : d = c
    · subst same
      exact .inr (.inr ⟨touch,rfl,by simp [PoolState.requests,PoolState.modify]⟩)
    · exact .inl (by simp [PoolState.requests,PoolState.modify,same])
  | @block _ c | @stamp c =>
    exact .quiet (fun d => PoolState.modify_requests p c d _ rfl) (by simp) (by simp)
  | endSession => exact .quiet (fun d => PoolState.setBusy_requests p _ d true) (by simp) (by simp)
  | @released after => cases after <;> exact .quiet (fun _ => rfl) (by simp [After.next]) (by simp)
  | @release c todo after => exact .quiet (by simp) (by cases after <;> simp) (by simp)
  | returns made => cases made <;> exact .quiet (fun _ => rfl) (by simp) (by simp)
  | recycle => exact .quiet (fun _ => PoolState.release_requests p _ _ cfg) (by simp) (by simp)
  | pickClaim | claimUsedUp | clear | clearAlwaysNew => exact .quiet (by simp) (by simp) (by simp)
  | _ => exact .quiet (fun _ => rfl) (by simp) (by simp)

theorem next_metered (moved : next cfg p tasks choice pc = some (pool,pc',spawned)) :
    Metered p choice pc pool pc' spawned := (next_move moved).metered

theorem Drop.serves (drop : Drop p pc pool pc') (given : pc'.serves c = true) : pc.serves c = true := by
  cases drop <;> simp_all

theorem Drop.metered (drop : Drop p pc pool pc') : Metered p .go pc pool pc' [] := by
  refine .quiet ?_ (fun _ => drop.serves) (by simp)
  cases drop <;> exact fun _ => rfl

theorem Drop.untaken (drop : Drop p pc pool pc') : pc.takes = none := by
  cases drop <;> rfl

/-- A search for used-up contexts under the read lock, which no request makes. -/
def Pc.misled : Pc → Bool
  | .selecting access selection .. | .claiming access selection .. => access = .read && selection = .usedUp
  | _ => false

structure Offered (cfg : Config) (p : PoolState) (pc pc' : Pc) (spawned : List Pc) : Prop where
  offers : ∀ c ∈ pc'.offers, c ∈ pc.offers ∨ pc.reads pc' = some c ∨ (pc = .ending c ∧ pc' = .continuing c)
  reads : ∀ c, pc.reads pc' = some c → (p.ctx c).isUsedUp cfg.scope.lifecycle p.now = false
  misled : pc'.misled = true → pc.misled = true
  newborn : ∀ x ∈ spawned, x.offers = [] ∧ x.misled = false

theorem Offered.nothing (offers : pc'.offers = []) (reads : pc.reads pc' = none) (misled : pc'.misled = false)
    (newborn : ∀ x ∈ spawned, x.offers = [] ∧ x.misled = false) : Offered cfg p pc pc' spawned :=
  ⟨by simp [offers],by simp [reads],by simp [misled],newborn⟩

theorem Selection.admits_unused {selection : Selection} {lifecycle : ContextLifecycleConfig} {now : Nat}
    {context : BrowserContext} (other : selection ≠ .usedUp) (admits : selection.admits lifecycle now context = true) :
    context.isUsedUp lifecycle now = false := by
  cases selection with
  | usedUp => contradiction
  | leastUsed origin => cases origin <;> simp_all [Selection.admits]
  | soonestUnquarantined origin => simp_all [Selection.admits]

theorem Walk.offered (walks : Walk cfg p tasks choice pc pc') : Offered cfg p pc pc' [] := by
  cases walks with
  | @admits access selection c todo found lookup yes =>
    refine ⟨fun d listed => ?_,fun d read => ?_,?_,by simp⟩
    · by_cases used : selection = .usedUp
      · simp [Pc.offers,used] at listed
      · simp only [Pc.offers,used,if_false,List.mem_append,List.mem_singleton] at listed ⊢
        refine listed.imp_right fun same => .inl ?_
        simp [Pc.reads,used,same]
    · simp only [Pc.reads] at read
      split at read
      · contradiction
      · next fresh =>
        obtain rfl := Option.some.inj read
        exact Selection.admits_unused (fun used => fresh (.inl used)) yes
    · simp [Pc.misled]
  | skips => exact ⟨fun d listed => .inl listed,by simp [Pc.reads],id,by simp⟩
  | @selected access selection found lookup =>
    refine ⟨fun d listed => .inl ?_,by simp [Pc.reads],?_,by simp⟩
    · by_cases used : selection = .usedUp
      · simp [Pc.offers,used] at listed
      · simpa [Pc.offers,used,Selection.mem_sort] using listed
    · simp [Pc.misled]
  | @lost c access selection candidates lookup =>
    refine ⟨fun d listed => .inl ?_,by simp [Pc.reads],?_,by simp⟩
    · by_cases used : selection = .usedUp
      · simp [Pc.offers,used] at listed
      · simp only [Pc.offers,used,if_false] at listed ⊢
        exact List.mem_cons_of_mem c listed
    · simp [Pc.misled]
  | usable unused =>
    refine ⟨fun d listed => .inr (.inl ?_),fun d read => ?_,by simp [Pc.misled],by simp⟩
    · simpa [Pc.offers,Pc.reads,eq_comm] using listed
    · obtain rfl := Option.some.inj read
      exact unused
  | spareSession => exact ⟨fun d listed => by simp_all [Pc.offers],by simp [Pc.reads],by simp [Pc.misled],by simp⟩
  | _ => exact .nothing (by simp [Pc.offers]) (by simp [Pc.reads]) (by simp [Pc.misled]) (by simp)

theorem Move.offered (move : Move cfg p tasks choice pc pool pc' spawned) : Offered cfg p pc pc' spawned := by
  cases move with
  | walk walks => exact walks.offered
  | @released after => cases after <;> exact .nothing rfl rfl rfl (by simp)
  | _ => exact .nothing rfl (by simp [Pc.reads]) rfl (by simp [Pc.offers,Pc.misled])

theorem offers_of_takes (directed : pc.misled = false) (takes : pc.takes = some c) : c ∈ pc.offers := by
  cases pc with
  | claiming access selection candidates lookup =>
    cases candidates <;> cases access <;> cases selection <;> simp_all [Pc.takes,Pc.offers,Pc.misled]
  | continuing d => simpa [Pc.takes,Pc.offers,eq_comm] using takes
  | _ => simp [Pc.takes] at takes

theorem Drop.offered (drop : Drop p pc pool pc') : Offered cfg p pc pc' [] := by
  cases drop <;> exact .nothing rfl rfl rfl (by simp)

theorem owns_of_serves (given : pc.serves c = true) : 0 < pc.owns c := by
  cases pc with
  | releasing todo after => cases after <;> simp_all [Pc.serves,Pc.owns,After.owns]
  | _ => simp_all [Pc.serves,Pc.owns]

/-- No count has passed the limit, a request that has yet to count itself runs in a context that has
requests left, and one that may claim a context it has a current reading of finds them left there. -/
structure UsageInvariant (cfg : Config) (s : State) (r : Served) : Prop where
  within : ∀ c, s.pool.requests c ≤ cfg.scope.lifecycle.maxRequests
  left : ∀ (i : Nat) (pc : Pc) (c : ContextId), s.tasks[i]? = some pc → pc.serves c = true → r.counted i = false →
    s.pool.requests c < cfg.scope.lifecycle.maxRequests
  offered : ∀ (i : Nat) (pc : Pc) (c : ContextId), s.tasks[i]? = some pc → c ∈ pc.offers → r.current i c = true →
    s.pool.requests c < cfg.scope.lifecycle.maxRequests
  misled : ∀ (i : Nat) (pc : Pc), s.tasks[i]? = some pc → pc.misled = false

structure Follows (i : Nat) (choice : Choice) (pc pc' : Pc) (r r' : Served) : Prop where
  counted : ∀ j, r'.counted j = false → r.counted j = false
  counts : ∀ c, choice = .touch → pc = .serving c →
    r.counted i = false ∧ r'.counted i = true ∧ ∀ j, r'.current j c = false
  ended : ∀ c, pc = .ending c → pc' = .continuing c → r'.current i c = false
  current : ∀ j c, r'.current j c = true → r.current j c = true ∨ (j = i ∧ pc.reads pc' = some c)

theorem Served.run_follows {i : Nat} {r r' : Served} (ran : r.run i choice pc pc' = some r') :
    Follows i choice pc pc' r r' := by
  cases pc with
  | serving c =>
    simp only [Served.run] at ran
    split at ran
    · next other =>
      obtain rfl := Option.some.inj ran
      exact ⟨fun _ => id,fun _ touch => absurd touch other,by simp,fun _ _ => .inl⟩
    · split at ran
      · contradiction
      · next fresh =>
        obtain rfl := Option.some.inj ran
        refine ⟨fun j uncounted => ?_,fun d _ here => ?_,by simp,fun j d current => .inl (by simp_all)⟩
        · by_cases mine : j = i
          · simp [mine] at uncounted
          · simpa [mine] using uncounted
        · obtain rfl := Pc.serving.inj here
          exact ⟨by simpa using fresh,by simp,by simp⟩
  | ending c =>
    obtain rfl := Option.some.inj ran
    refine ⟨fun _ => id,by simp,fun d here _ => ?_,fun j d current => .inl (by simp_all)⟩
    obtain rfl := Pc.ending.inj here
    simp
  | _ =>
    obtain rfl := Option.some.inj ran
    exact ⟨fun _ => id,by simp,by simp,fun j d current => by simpa using current⟩

theorem Drop.follows {i : Nat} {r : Served} (drop : Drop p pc pool pc') : Follows i .go pc pc' r r := by
  cases drop <;> exact ⟨fun _ => id,by simp,by simp,fun _ _ => .inl⟩

theorem unused_requests {context : BrowserContext} {lifecycle : ContextLifecycleConfig} {now : Nat}
    (consults : lifecycle.rotationStrategy ≠ .timeBasedOnly) (unused : context.isUsedUp lifecycle now = false) :
    context.totalRequests < lifecycle.maxRequests := by
  unfold BrowserContext.isUsedUp ContextLifecycleConfig.isUsedUp at unused
  cases strategy : lifecycle.rotationStrategy <;> simp_all

/-- One step of one task. The other tasks keep what they have: only the task that owns a
context counts itself on it, and then no reading of the context is current any more. -/
theorem UsageInvariant.move {i : Nat} {r r' : Served} (consults : cfg.scope.lifecycle.rotationStrategy ≠ .timeBasedOnly)
    (positive : 0 < cfg.scope.lifecycle.maxRequests) (leases : LeaseInvariant s) (valid : UsageInvariant cfg s r)
    (at_ : s.tasks[i]? = some pc) (metered : Metered s.pool choice pc pool pc' spawned)
    (offered : Offered cfg s.pool pc pc' spawned) (follows : Follows i choice pc pc' r r')
    (met : ∀ c, pc.takes = some c → s.pool.isBusy c = false → r.current i c = true) :
    UsageInvariant cfg ⟨pool,s.tasks.set i pc' ++ spawned⟩ r' := by
  have older : ∀ (j : Nat) (x : Pc) (c : ContextId), s.tasks[j]? = some x → x.serves c = true → c ≠ s.pool.fresh :=
    fun j x c atJ given => Nat.ne_of_lt (leases.mentioned j x atJ c (mentions_of_owns (owns_of_serves given)))
  constructor
  case within =>
    intro c
    rcases metered.requests c with same | ⟨_,zero⟩ | ⟨touch,rfl,more⟩
    · exact same ▸ valid.within c
    · exact zero ▸ Nat.zero_le _
    · have below := valid.left i _ c at_ (by simp [Pc.serves]) (follows.counts c touch rfl).1
      dsimp only
      omega
  case left =>
    intro j x c atJ given uncounted
    rcases Tasks.getElem?_set_append at_ pc' spawned atJ with ⟨rfl,rfl⟩ | ⟨apart,atJ⟩ | ⟨_,born⟩
    · rcases metered.serves c given with before | ⟨builds,_,_,zero⟩ | ⟨takes,idle,same⟩
      · have below := valid.left j pc c at_ before (follows.counted j uncounted)
        rcases metered.requests c with same | ⟨new,_⟩ | ⟨touch,rfl,_⟩
        · exact same ▸ below
        · exact absurd new (older j pc c at_ before)
        · rw [(follows.counts c touch rfl).2.1] at uncounted
          contradiction
      · exact zero ▸ positive
      · exact same ▸ valid.offered j pc c at_ (offers_of_takes (valid.misled j pc at_) takes) (met c takes idle)
    · have below := valid.left j x c atJ given (follows.counted j uncounted)
      rcases metered.requests c with same | ⟨new,_⟩ | ⟨_,rfl,_⟩
      · exact same ▸ below
      · exact absurd new (older j x c atJ given)
      · refine absurd (leases.single atJ at_ (owns_of_serves given) ?_) apart
        simp [Pc.owns]
    · rw [metered.newborn x born c] at given
      contradiction
  case offered =>
    intro j x c atJ listed current
    have kept : s.pool.requests c < cfg.scope.lifecycle.maxRequests → pool.requests c < cfg.scope.lifecycle.maxRequests := by
      intro below
      rcases metered.requests c with same | ⟨_,zero⟩ | ⟨touch,rfl,_⟩
      · exact same ▸ below
      · exact zero ▸ positive
      · rw [(follows.counts c touch rfl).2.2 j] at current
        contradiction
    refine kept ?_
    rcases Tasks.getElem?_set_append at_ pc' spawned atJ with ⟨rfl,rfl⟩ | ⟨apart,atJ⟩ | ⟨_,born⟩
    · rcases offered.offers c listed with before | read | ending
      · rcases follows.current j c current with old | ⟨_,read⟩
        · exact valid.offered j pc c at_ before old
        · exact unused_requests consults (offered.reads c read)
      · exact unused_requests consults (offered.reads c read)
      · rw [follows.ended c ending.1 ending.2] at current
        contradiction
    · rcases follows.current j c current with old | ⟨same,_⟩
      · exact valid.offered j x c atJ listed old
      · exact absurd same apart
    · simp [(offered.newborn x born).1] at listed
  case misled =>
    intro j x atJ
    rcases Tasks.getElem?_set_append at_ pc' spawned atJ with ⟨rfl,rfl⟩ | ⟨_,atJ⟩ | ⟨_,born⟩
    · exact Bool.eq_false_iff.mpr fun led => Bool.eq_false_iff.mp (valid.misled j pc at_) (offered.misled led)
    · exact valid.misled j x atJ
    · exact (offered.newborn x born).2

theorem UsageInvariant.arrive {r : Served} (valid : UsageInvariant cfg s r) (outside : ∀ c, pc.serves c = false)
    (nothing : pc.offers = []) (directed : pc.misled = false) :
    UsageInvariant cfg { s with tasks := s.tasks ++ [pc] } r := by
  refine ⟨valid.within,fun j x c atJ given uncounted => ?_,fun j x c atJ listed current => ?_,fun j x atJ => ?_⟩
  · rcases Tasks.getElem?_append_cases atJ with atJ | ⟨_,rfl⟩
    · exact valid.left j x c atJ given uncounted
    · rw [outside c] at given
      contradiction
  · rcases Tasks.getElem?_append_cases atJ with atJ | ⟨_,rfl⟩
    · exact valid.offered j x c atJ listed current
    · simp [nothing] at listed
  · rcases Tasks.getElem?_append_cases atJ with atJ | ⟨_,rfl⟩
    · exact valid.misled j x atJ
    · exact directed

theorem UsageInvariant.step (consults : cfg.scope.lifecycle.rotationStrategy ≠ .timeBasedOnly)
    (positive : 0 < cfg.scope.lifecycle.maxRequests) (leases : LeaseInvariant s.1) (valid : UsageInvariant cfg s.1 s.2)
    (met : claimsCurrent s action = true) (taken : (usage cfg).step s action = some t) : UsageInvariant cfg t.1 t.2 := by
  obtain ⟨stepped,followed⟩ := Machine.record_step taken
  rcases step_cases stepped with ⟨_,ticks,same⟩ | ⟨pc,arrives,same⟩ | ⟨i,choice,pc,pool,pc',spawned,rfl,at_,moved,same⟩ |
    ⟨i,pc,pool,pc',rfl,at_,dropped,same⟩
  · have kept : t.2 = s.2 := by
      rw [show action = .tick _ from ticks] at followed
      exact (Option.some.inj followed).symm
    rw [same,kept]
    exact ⟨valid.within,valid.left,valid.offered,valid.misled⟩
  · have kept : t.2 = s.2 := by
      cases action <;> simp only [Action.arrival,id,Option.some.injEq] at arrives <;> first
        | contradiction
        | exact (Option.some.inj followed).symm
    rw [same,kept]
    rcases arrival_cases arrives with ⟨_,rfl⟩ | ⟨_,rfl⟩ | ⟨_,rfl⟩ <;> exact valid.arrive (fun _ => rfl) rfl rfl
  · have there : t.1.tasks[i]? = some pc' := by
      have bound := (List.getElem?_eq_some_iff.mp at_).1
      rw [same]
      simp [List.getElem?_append,bound]
    have follows : Follows i choice pc pc' s.2 t.2 := by
      refine Served.run_follows ?_
      simpa only [Served.follow,at_,there] using followed
    have move := next_move moved
    rw [same]
    refine valid.move consults positive leases at_ move.metered move.offered follows fun c takes idle => ?_
    simpa [claimsCurrent,at_,takes,idle] using met
  · have kept : t.2 = s.2 := (Option.some.inj followed).symm
    have drop := cancelled_drop dropped
    rw [same,kept]
    simpa using valid.move consults positive leases at_ drop.metered drop.offered drop.follows
      fun c takes idle => by simp [drop.untaken] at takes

theorem populate_requests (cfg : Config) (n : Nat) (p : PoolState) (unused : ∀ c, p.requests c = 0) (c : ContextId) :
    (populateInitialContexts cfg n p).requests c = 0 := by
  induction n generalizing p with
  | zero => exact unused c
  | succ n ih =>
    refine ih { createNewContext cfg p with contexts := p.contexts ++ [p.fresh] } fun d => ?_
    change (p.addContext _ false).requests d = 0
    rw [PoolState.addContext_requests]
    split
    · rfl
    · exact unused d

theorem UsageInvariant.initial : UsageInvariant cfg (initial cfg) ⟨fun _ => false,fun _ _ => false⟩ := by
  have unused : ∀ c, (Pool.initial cfg).pool.requests c = 0 := by
    intro c
    cases mode : cfg.scope.sessionMode with
    | reusable =>
      simp only [Pool.initial,mode]
      exact populate_requests cfg _ PoolState.empty (fun _ => rfl) c
    | alwaysNew | dedicated =>
      simp only [Pool.initial,mode]
      rfl
  refine ⟨fun c => unused c ▸ Nat.zero_le _,fun i pc c at_ given _ => ?_,by simp,fun i pc at_ => ?_⟩
  · obtain rfl := initial_task at_
    contradiction
  · obtain rfl := initial_task at_
    rfl

/-- Under every strategy that looks at `max_requests`, and a limit of at least one: in every run in
which a request claims a context only while its reading that the context is not used up is current,
no context ever serves more than `max_requests` requests. -/
theorem usage_within_limit (cfg : Config) (consults : cfg.scope.lifecycle.rotationStrategy ≠ .timeBasedOnly)
    (positive : 0 < cfg.scope.lifecycle.maxRequests) (s : State × Served)
    (run : (usage cfg).Reach (fun s action => claimsCurrent s action = true) s) (c : ContextId) :
    (s.1.pool.ctx c).totalRequests ≤ cfg.scope.lifecycle.maxRequests := by
  have valid : UsageInvariant cfg s.1 s.2 :=
    Machine.Reach.invariant (P := fun s => UsageInvariant cfg s.1 s.2) UsageInvariant.initial
      (fun _ _ _ before valid met taken => valid.step consults positive (lease_invariant before.forget) met taken) run
  exact valid.within c

def Config.quota (mode : SessionMode) (maxRequests : Nat) : Config where
  scope :=
    { ValidScope.small mode with
      lifecycle := { (ValidScope.small mode).lifecycle with maxRequests := maxRequests }
      accepted := by cases mode <;> rfl }
  disposer := true

def servedBy (i : Nat) : List Action := [.run i .touch,.run i .finish,.run i .go,.run i .go]

theorem usage_within_limit_first_request :
    ∃ s, (usage (Config.quota .dedicated 1)).exec (firstRequest .createDedicatedContext ++ servedBy 1)
        (usage (Config.quota .dedicated 1)).initial = some s ∧
      (s.1.pool.ctx 0).totalRequests = 1 ∧
      (s.1.pool.ctx 0).totalRequests ≤ (Config.quota .dedicated 1).scope.lifecycle.maxRequests := by
  have ran : (usage (Config.quota .dedicated 1)).exec (firstRequest .createDedicatedContext ++ servedBy 1)
    (usage (Config.quota .dedicated 1)).initial = some _ := rfl
  exact ⟨_,ran,rfl,usage_within_limit _ (by decide) (by decide) _
    (Machine.Reach.exec_meets .initial ran (by decide +kernel)) 0⟩

/-- Two continuations of one session read that its context has one request left, and run
one after the other. -/
def sharedLastRequest : List Action :=
  firstRequest .createDedicatedContext ++ servedBy 1 ++
  [.session 0,.run 3 .go,.run 3 .go,.session 0,.run 4 .go,.run 4 .go,.run 3 .go] ++ servedBy 3 ++
  [.run 4 .go,.run 4 .touch]

theorem stale_claim_exceeds_limit :
    ∃ s, (usage (Config.quota .dedicated 2)).exec sharedLastRequest
        (usage (Config.quota .dedicated 2)).initial = some s ∧
      (Config.quota .dedicated 2).scope.lifecycle.rotationStrategy = .hybrid ∧
      (Config.quota .dedicated 2).scope.lifecycle.maxRequests = 2 ∧ (s.1.pool.ctx 0).totalRequests = 3 :=
  ⟨_,rfl,rfl,rfl,rfl⟩

end BrowserHive.Pool
