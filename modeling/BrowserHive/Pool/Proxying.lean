import BrowserHive.Proxy
import BrowserHive.Pool.Slots
import BrowserHive.Pool.Identity

/-! The proxy a request's traffic leaves through. The provider is asked for a context's
config when its creation starts, the blocking thread creates the CDP context with the
server built from it, and Chrome falls back on the proxy of its launch. What the provider
answered and what each CDP context was created with is recorded beside the run. -/
namespace BrowserHive.Pool

open BrowserHive Transition

variable {cfg : Config} {p pool : PoolState} {tasks : List Pc} {pc pc' : Pc} {spawned : List Pc}
  {provider : ProxyProvider} {launch : Launch} {answers : ContextId → Option ProxyConfig}

structure Exits where
  /-- The config a creation was started with, by call. -/
  configOf : Nat → Option ProxyConfig
  assignedProxyConfig : ContextId → Option ProxyConfig
  /-- The `proxyServer` of `Target.createBrowserContext`, by CDP context. -/
  proxyServer : Nat → Option String

/-- Only a provider with proxies per context is asked for one. -/
def ask (provider : ProxyProvider) (answer : Option ProxyConfig) : Option ProxyConfig :=
  if provider.supportsPerContextProxy then answer else none

/-- `create_cdp_context`: with its own client the host of the config goes to Chrome as it is. -/
def createdWith (launch : Launch) (config : Option ProxyConfig) : Option String :=
  if launch.cdpClient then config.bind ProxyConfig.buildProxyServer else none

/-- `create_new_context` and a recycling ask the provider, whose answer comes with the
action; the thread creates the CDP context; the task assigns the config. -/
def exitsFollow (provider : ProxyProvider) (launch : Launch) (s : State) (r : Exits)
    (move : Action × Option ProxyConfig) (t : State) : Option Exits :=
  match move.1 with
  | .run i _ =>
    match s.tasks[i]? with
    | some .building | some (.recycling (_ :: _)) =>
      some { r with configOf := Function.update r.configOf s.pool.nextCall (ask provider move.2) }
    | some (.closure j (.cdpContext _)) =>
      if t.pool.nextCdpContext = s.pool.nextCdpContext then some r
      else some { r with
        proxyServer := Function.update r.proxyServer s.pool.nextCdpContext (createdWith launch (r.configOf j)) }
    | some (.waiting j) | some (.rebuilding j _ _) =>
      if t.pool.fresh = s.pool.fresh then some r
      else some { r with
        assignedProxyConfig := Function.update r.assignedProxyConfig s.pool.fresh (r.configOf j) }
    | _ => some r
  | _ => some r

/-- Context `c` of the initial population is in CDP context `c`. -/
def initialExits (provider : ProxyProvider) (launch : Launch) (answers : ContextId → Option ProxyConfig) : Exits :=
  ⟨fun _ => none,fun c => ask provider (answers c),fun id => createdWith launch (ask provider (answers id))⟩

/-- The pool that `BrowserPool::new` launched, with the configs and servers of its contexts. -/
def proxied (cfg : Config) (provider : ProxyProvider) (launch : Launch)
    (answers : ContextId → Option ProxyConfig) : Machine (State × Exits) (Action × Option ProxyConfig) :=
  (machine cfg).record (initialExits provider launch answers) Prod.fst (exitsFollow provider launch)

def exit (launch : Launch) (s : State × Exits) (c : ContextId) : Option String :=
  chromeProxy launch.proxyServer ((s.1.pool.ctx c).cdpContextId.bind s.2.proxyServer)

def FailClosed (launch : Launch) (s : State × Exits) : Prop :=
  ∀ (i : Nat) (pc : Pc) (c : ContextId), s.1.tasks[i]? = some pc → pc.serves c = true → (exit launch s c).isSome

/-- The config of the CDP context that the next step of a task hands to its request, if it
hands one out. -/
def givenConfig (s : State × Exits) (pc : Pc) : Option ProxyConfig :=
  match pc.takes with
  | some c =>
    if s.1.pool.isBusy c || (s.1.pool.ctx c).cdpContextId.isNone then none else s.2.assignedProxyConfig c
  | none =>
    match pc with
    | .waiting j =>
      match (s.1.pool.calls j).caller with
      | .returned (.ok slot) => if slot.cdpContextId.isNone then none else s.2.configOf j
      | _ => none
    | _ => none

/-- Where hosts are assigned per context, no request is given a context whose config has a
`proxy_url` that is there but blank. -/
def givesUsableUrl (launch : Launch) (s : State × Exits) (move : Action × Option ProxyConfig) : Bool :=
  match move.1 with
  | .run i _ => !(launch.cdpClient && ((s.1.tasks[i]?).bind (givenConfig s)).any ProxyConfig.hasBlankUrl)
  | _ => true

structure Recorded (provider : ProxyProvider) (launch : Launch) (p : PoolState) (pc : Pc) (pool : PoolState)
    (r r' : Exits) : Prop where
  configOf : ∀ j, j < p.nextCall → r'.configOf j = r.configOf j
  assigned : ∀ c, c < p.fresh → r'.assignedProxyConfig c = r.assignedProxyConfig c
  proxyServer : ∀ id, id < p.nextCdpContext → r'.proxyServer id = r.proxyServer id
  context : ∀ j pipeline, pc = .closure j (.cdpContext pipeline) → pool.nextCdpContext = p.nextCdpContext + 1 →
    r'.proxyServer p.nextCdpContext = createdWith launch (r.configOf j)
  built : ∀ j, pc.caller = some j → pool.fresh = p.fresh + 1 → r'.assignedProxyConfig p.fresh = r.configOf j

theorem exitsFollow_run {i : Nat} {s : State} (at_ : s.tasks[i]? = some pc) (action : move.1 = .run i choice)
    (followed : exitsFollow provider launch s r move t = some r') :
    Recorded provider launch s.pool pc t.pool r r' := by
  simp only [exitsFollow,action,at_] at followed
  split at followed
  · next here =>
    obtain rfl := Option.some.inj here
    obtain rfl := Option.some.inj followed
    exact ⟨fun j known => by simp [Nat.ne_of_lt known],fun _ _ => rfl,fun _ _ => rfl,by simp,by simp [Pc.caller]⟩
  · next here =>
    obtain rfl := Option.some.inj here
    obtain rfl := Option.some.inj followed
    exact ⟨fun j known => by simp [Nat.ne_of_lt known],fun _ _ => rfl,fun _ _ => rfl,by simp,by simp [Pc.caller]⟩
  · next j pipeline here =>
    obtain rfl := Option.some.inj here
    split at followed <;> obtain rfl := Option.some.inj followed
    · next same => exact ⟨fun _ _ => rfl,fun _ _ => rfl,fun _ _ => rfl,by simp [same],by simp [Pc.caller]⟩
    · refine ⟨fun _ _ => rfl,fun _ _ => rfl,fun id known => by simp [Nat.ne_of_lt known],fun k _ same _ => ?_,
        by simp [Pc.caller]⟩
      obtain rfl : j = k := by simpa using And.left (by simpa using same)
      simp
  iterate 2
    · next here =>
      obtain rfl := Option.some.inj here
      split at followed <;> obtain rfl := Option.some.inj followed
      · next same => exact ⟨fun _ _ => rfl,fun _ _ => rfl,fun _ _ => rfl,by simp,by simp [same]⟩
      · refine ⟨fun _ _ => rfl,fun c known => by simp [Nat.ne_of_lt known],fun _ _ => rfl,by simp,fun k same _ => ?_⟩
        obtain rfl := Option.some.inj same
        simp
  · next noContext noWaiting noRebuilding =>
    obtain rfl := Option.some.inj followed
    refine ⟨fun _ _ => rfl,fun _ _ => rfl,fun _ _ => rfl,fun j pipeline same => ?_,fun j waits => ?_⟩
    · exact absurd (congrArg some same) (noContext j pipeline)
    · cases pc with
      | waiting k => exact (noWaiting k rfl).elim
      | rebuilding k old todo => exact (noRebuilding k old todo rfl).elim
      | _ => contradiction

/-- A step that is no run of a task leaves the record alone. -/
theorem exitsFollow_other {s : State} (other : ∀ i choice, move.1 ≠ .run i choice)
    (followed : exitsFollow provider launch s r move t = some r') : r' = r := by
  unfold exitsFollow at followed
  split at followed
  · next i choice same => exact absurd same (other i choice)
  · exact (Option.some.inj followed).symm

/-- Whether the config behind a CDP context would leave it without a proxy. -/
def usable (launch : Launch) (config : Option ProxyConfig) : Bool :=
  !(launch.cdpClient && config.any ProxyConfig.hasBlankUrl)

/-- In a launch that has a proxy, a context goes without one only by a blank `proxy_url` of
its own. -/
theorem chromeProxy_createdWith (proxied : (chromeProxy launch.proxyServer none).isSome)
    (config : Option ProxyConfig) :
    (chromeProxy launch.proxyServer (createdWith launch config)).isSome = usable launch config := by
  have fallback : (chromeProxy launch.proxyServer none).isSome = true := proxied
  cases client : launch.cdpClient with
  | false => simp [createdWith,usable,client,fallback]
  | true =>
    cases config with
    | none => simp [createdWith,usable,client,fallback]
    | some config =>
      have visible := blank_buildProxyServer config
      cases server : config.buildProxyServer with
      | none => simp_all [createdWith,usable]
      | some host =>
        obtain visible : blank host = config.hasBlankUrl := by simpa [server] using visible
        cases blank_ : config.hasBlankUrl <;>
          simp [createdWith,usable,client,server,chromeProxy,Option.filter,visible,blank_]

def CallCreated (launch : Launch) (s : State × Exits) (j : Nat) (slot : Slot) : Prop :=
  ∀ id, slot.cdpContextId = some id → j < s.1.pool.nextCall ∧ id < s.1.pool.nextCdpContext ∧
    s.2.proxyServer id = createdWith launch (s.2.configOf j)

def ContextCreated (launch : Launch) (s : State × Exits) (c : ContextId) (slot : Slot) : Prop :=
  ∀ id, slot.cdpContextId = some id → id < s.1.pool.nextCdpContext ∧
    s.2.proxyServer id = createdWith launch (s.2.assignedProxyConfig c)

structure ExitInvariant (cfg : Config) (launch : Launch) (s : State × Exits) : Prop where
  run : (machine cfg).Reachable s.1
  sourced : Sourced (CallCreated launch s) (ContextCreated launch s) s.1

theorem recorded_sourcing {s t : State × Exits} (slotted : Slotted cfg s.1.pool pc t.1.pool pc' spawned)
    (calling : Calling s.1.pool pc t.1.pool pc' spawned)
    (known : ∀ j, pc.caller = some j ∨ pc.thread = some j → j < s.1.pool.nextCall)
    (recorded : Recorded provider launch s.1.pool pc t.1.pool s.2 t.2) :
    Sourcing (CallCreated launch s) (CallCreated launch t) (ContextCreated launch s) (ContextCreated launch t)
      s.1.pool pc t.1.pool := by
  have contexts := slotted.nextCdpContext_le
  have calls := calling.nextCall_le
  have kept : ∀ j slot, CallCreated launch s j slot → CallCreated launch t j slot := by
    intro j slot created id mine
    obtain ⟨call,opened,server⟩ := created id mine
    refine ⟨Nat.lt_of_lt_of_le call calls,Nat.lt_of_lt_of_le opened contexts,?_⟩
    rw [recorded.proxyServer id opened,recorded.configOf j call,server]
  have placed : ∀ c slot, c < s.1.pool.fresh → ContextCreated launch s c slot → ContextCreated launch t c slot := by
    intro c slot older created id mine
    obtain ⟨opened,server⟩ := created id mine
    refine ⟨Nat.lt_of_lt_of_le opened contexts,?_⟩
    rw [recorded.proxyServer id opened,recorded.assigned c older,server]
  refine ⟨kept,by simp [CallCreated],?_,?_,placed,fun c slot older created => ?_,?_⟩
  · intro j pipeline here grown id mine
    obtain rfl : s.1.pool.nextCdpContext = id := by simpa using mine
    have call := known j (by simp [here,Pc.thread])
    refine ⟨Nat.lt_of_lt_of_le call calls,by omega,?_⟩
    rw [recorded.context j pipeline here grown,recorded.configOf j call]
  · intro j cdp _ _ created
    exact kept j _ created
  · exact placed c _ older created
  · rintro j slot waits grown _ (created | rfl) id mine
    · obtain ⟨call,opened,server⟩ := created id mine
      refine ⟨Nat.lt_of_lt_of_le opened contexts,?_⟩
      rw [recorded.proxyServer id opened,recorded.built j waits grown,server]
    · contradiction

theorem ExitInvariant.step (valid : ExitInvariant cfg launch s)
    (taken : (proxied cfg provider launch answers).step s move = some t) : ExitInvariant cfg launch t := by
  obtain ⟨stepped,followed⟩ := Machine.record_step taken
  refine ⟨valid.run.step trivial stepped,?_⟩
  have calls := call_invariant valid.run
  obtain ⟨t,r⟩ := t
  dsimp only at stepped followed
  rcases step_cases stepped with ⟨_,ran,rfl⟩ | ⟨pc,arrives,rfl⟩ | ⟨i,choice,pc,pool,pc',spawned,ran,at_,moved,rfl⟩ |
    ⟨i,pc,pool,pc',ran,at_,dropped,rfl⟩
  · obtain rfl := exitsFollow_other (by simp [ran]) followed
    exact ⟨valid.sourced.values,valid.sourced.halfway,valid.sourced.contexts⟩
  · have other : ∀ i choice, move.1 ≠ .run i choice := by
      intro i choice same
      simp [same,Action.arrival] at arrives
    have stranger : pc.halfway = none := by
      rcases arrival_cases arrives with ⟨_,rfl⟩ | ⟨_,rfl⟩ | ⟨_,rfl⟩ <;> rfl
    obtain rfl := exitsFollow_other other followed
    exact valid.sourced.arrive stranger
  · exact valid.sourced.move at_ (next_slotted calls.valid moved)
      (recorded_sourcing (t := (_,r)) (next_slotted calls.valid moved) (next_calling moved)
        (fun j => calls.known i pc j at_) (exitsFollow_run at_ ran followed))
  · obtain rfl := exitsFollow_other (by simp [ran]) followed
    obtain ⟨slotted,_,fresh,contexts,_⟩ : Slotted cfg s.1.pool pc pool pc' [] ∧ _ :=
      cancelled_slotted calls.valid dropped
    have recorded : Recorded provider launch s.1.pool pc pool s.2 s.2 :=
      ⟨fun _ _ => rfl,fun _ _ => rfl,fun _ _ => rfl,by simp [contexts],by simp [fresh]⟩
    simpa using valid.sourced.move at_ slotted (recorded_sourcing (t := (⟨pool,s.1.tasks.set i pc'⟩,s.2)) slotted
      (cancelled_calling dropped) (fun j => calls.known i pc j at_) recorded)

/-- The initial contexts were created with the configs they were assigned. -/
theorem ExitInvariant.initial : ExitInvariant cfg launch (proxied cfg provider launch answers).initial := by
  refine ⟨.initial,Sourced.initial fun c known id mine => ?_⟩
  cases isolation : cfg.scope.contextIsolation with
  | shared => simp [initialSlot,isolation] at mine
  | isolated =>
    obtain rfl : c = id := by simpa [initialSlot,isolation] using mine
    refine ⟨?_,rfl⟩
    change c < (Pool.initial cfg).pool.nextCdpContext
    rw [(initial_populated cfg).cdpContexts isolation]
    exact known

/-- A known context is behind a proxy unless it has a CDP context of its own, created with a
blank `proxy_url`. -/
theorem exit_iff (proxied : (chromeProxy launch.proxyServer none).isSome) (valid : ExitInvariant cfg launch s)
    (known : c < s.1.pool.fresh) : (exit launch s c).isSome ↔
      ((s.1.pool.ctx c).cdpContextId.isSome → usable launch (s.2.assignedProxyConfig c) = true) := by
  cases cdp : (s.1.pool.ctx c).cdpContextId with
  | none => simp [exit,cdp,proxied]
  | some id =>
    have created := (valid.sourced.contexts c known id cdp).2
    simp [exit,cdp,created,chromeProxy_createdWith proxied]

/-- The cases of a step: the record follows the task that ran, and a step of any other kind
adds nothing to it and hands out nothing. -/
theorem proxied_cases (valid : ExitInvariant cfg launch s)
    (taken : (proxied cfg provider launch answers).step s move = some t) :
    (∃ i choice pc pc' spawned, move.1 = .run i choice ∧ s.1.tasks[i]? = some pc ∧
      next cfg s.1.pool s.1.tasks choice pc = some (t.1.pool,pc',spawned) ∧
      t.1.tasks = s.1.tasks.set i pc' ++ spawned ∧
      Slotted cfg s.1.pool pc t.1.pool pc' spawned ∧ Recorded provider launch s.1.pool pc t.1.pool s.2 t.2) ∨
    ((∀ i choice, move.1 ≠ .run i choice) ∧ t.1.pool.ctx = s.1.pool.ctx ∧ t.1.pool.fresh = s.1.pool.fresh ∧ t.2 = s.2 ∧
      ∀ (i : Nat) (pc : Pc) (c : ContextId), t.1.tasks[i]? = some pc → pc.serves c = true →
        ∃ (k : Nat) (former : Pc), s.1.tasks[k]? = some former ∧ former.serves c = true) := by
  obtain ⟨stepped,followed⟩ := Machine.record_step taken
  obtain ⟨t,r⟩ := t
  dsimp only at stepped followed
  rcases step_cases stepped with ⟨_,ran,rfl⟩ | ⟨pc,arrives,rfl⟩ | ⟨i,choice,pc,pool,pc',spawned,ran,at_,moved,rfl⟩ |
    ⟨i,pc,pool,pc',ran,at_,dropped,rfl⟩
  · have other : ∀ i choice, move.1 ≠ .run i choice := by simp [ran]
    exact .inr ⟨other,rfl,rfl,exitsFollow_other other followed,fun i pc c at_ given => ⟨i,pc,at_,given⟩⟩
  · have other : ∀ i choice, move.1 ≠ .run i choice := by
      intro i choice same
      simp [same,Action.arrival] at arrives
    refine .inr ⟨other,rfl,rfl,exitsFollow_other other followed,fun k x c atK given => ?_⟩
    rcases Tasks.getElem?_append_cases atK with atK | ⟨_,rfl⟩
    · exact ⟨k,x,atK,given⟩
    · rcases arrival_cases arrives with ⟨_,rfl⟩ | ⟨_,rfl⟩ | ⟨_,rfl⟩ <;> contradiction
  · exact .inl ⟨i,choice,pc,pc',spawned,ran,at_,moved,rfl,next_slotted (call_invariant valid.run).valid moved,
      exitsFollow_run at_ ran followed⟩
  · have other : ∀ i choice, move.1 ≠ .run i choice := by simp [ran]
    obtain ⟨_,ctx,fresh,_⟩ : Slotted cfg s.1.pool pc pool pc' [] ∧ _ :=
      cancelled_slotted (call_invariant valid.run).valid dropped
    refine .inr ⟨other,ctx,fresh,exitsFollow_other other followed,fun k x c atK given => ?_⟩
    rcases Tasks.getElem?_set_cases at_ atK with ⟨rfl,rfl⟩ | ⟨_,atK⟩
    · exact ⟨k,pc,at_,(cancelled_drop dropped).serves given⟩
    · exact ⟨k,x,atK,given⟩

/-- A task that is given a context it did not have: one it claims, or the one built for it. -/
def Pc.handsOut (p : PoolState) (pc : Pc) (c : ContextId) : Prop :=
  (pc.takes = some c ∧ p.isBusy c = false) ∨ (pc.builds p = true ∧ c = p.fresh)

theorem waiting_of_builds (builds : pc.builds p = true) :
    ∃ j slot, pc = .waiting j ∧ (p.calls j).caller = .returned (.ok slot) := by
  cases pc with
  | waiting j =>
    cases caller : (p.calls j).caller with
    | returned result =>
      cases result with
      | ok slot => exact ⟨j,slot,rfl,caller⟩
      | error e => simp [Pc.builds,caller] at builds
    | _ => simp [Pc.builds,caller] at builds
  | _ => simp [Pc.builds] at builds

/-- The context that is handed out is behind a proxy exactly when its config is usable. -/
theorem exit_handed {i : Nat} (proxied_ : (chromeProxy launch.proxyServer none).isSome) (valid : ExitInvariant cfg launch s)
    (later : ExitInvariant cfg launch t) (at_ : s.1.tasks[i]? = some pc)
    (slotted : Slotted cfg s.1.pool pc t.1.pool pc' spawned)
    (recorded : Recorded provider launch s.1.pool pc t.1.pool s.2 t.2)
    (moved : next cfg s.1.pool s.1.tasks choice pc = some (t.1.pool,pc',spawned))
    (handed : pc.handsOut s.1.pool c) :
    (exit launch t c).isSome ↔ usable launch (givenConfig s pc) = true := by
  rcases handed with ⟨takes,idle⟩ | ⟨builds,rfl⟩
  · have older := (lease_invariant valid.run).mentioned i pc at_ c (mentions_of_takes takes)
    obtain ⟨same,known⟩ := slotted.cdpContextId older
    rw [exit_iff proxied_ later known,recorded.assigned c older]
    change ((t.1.pool.slot c).cdpContextId.isSome → _) ↔ _
    rw [same]
    cases cdp : (s.1.pool.ctx c).cdpContextId <;> simp [PoolState.slot,givenConfig,takes,idle,cdp,usable]
  · obtain ⟨j,slot,rfl,returned⟩ := waiting_of_builds builds
    simp only [next,buildNext,returned,Option.some.injEq,Prod.mk.injEq] at moved
    obtain ⟨made,_,_⟩ := moved
    have grown : t.1.pool.fresh = s.1.pool.fresh + 1 := made ▸ rfl
    have cdp : (t.1.pool.ctx s.1.pool.fresh).cdpContextId = slot.cdpContextId := by
      rw [← made]
      simp [PoolState.addContext,BrowserContext.new]
    rw [exit_iff proxied_ later (grown ▸ Nat.lt_succ_self _),cdp,recorded.built j rfl grown]
    cases own : slot.cdpContextId <;> simp [givenConfig,Pc.takes,returned,own,usable]

/-- The task that is handed a context serves it from there on. -/
theorem serves_of_handed (moved : next cfg p tasks choice pc = some (pool,pc',spawned))
    (handed : pc.handsOut p c) : pc'.serves c = true := by
  rcases handed with ⟨takes,idle⟩ | ⟨builds,rfl⟩
  · exact serves_of_takes takes idle moved
  · obtain ⟨j,slot,rfl,returned⟩ := waiting_of_builds builds
    simp only [next,buildNext,returned,Option.some.injEq,Prod.mk.injEq] at moved
    obtain ⟨_,rfl,_⟩ := moved
    simp [Pc.serves]

/-- A step that hands out nothing has no config to judge. -/
theorem handsOut_of_unusable (unusable : usable launch (givenConfig s pc) = false) :
    ∃ c, pc.handsOut s.1.pool c := by
  cases takes : pc.takes with
  | some c =>
    refine ⟨c,.inl ⟨takes,?_⟩⟩
    cases busy : s.1.pool.isBusy c with
    | false => rfl
    | true => simp [givenConfig,takes,busy,usable] at unusable
  | none =>
    refine ⟨s.1.pool.fresh,.inr ⟨?_,rfl⟩⟩
    cases pc with
    | waiting j =>
      cases caller : (s.1.pool.calls j).caller with
      | returned result => cases result <;> simp_all [givenConfig,Pc.builds,usable,Pc.takes]
      | _ => simp [givenConfig,Pc.takes,caller,usable] at unusable
    | _ => simp [givenConfig,takes,usable] at unusable

theorem exit_kept (proxied_ : (chromeProxy launch.proxyServer none).isSome) (valid : ExitInvariant cfg launch s)
    (later : ExitInvariant cfg launch t) (known : c < s.1.pool.fresh) (fresh : c < t.1.pool.fresh)
    (cdp : (t.1.pool.ctx c).cdpContextId = (s.1.pool.ctx c).cdpContextId)
    (assigned : t.2.assignedProxyConfig c = s.2.assignedProxyConfig c) (before : (exit launch s c).isSome) :
    (exit launch t c).isSome := by
  rw [exit_iff proxied_ later fresh,cdp,assigned]
  exact (exit_iff proxied_ valid known).mp before

theorem known_of_serves {i : Nat} (valid : ExitInvariant cfg launch s) (at_ : s.1.tasks[i]? = some pc)
    (given : pc.serves c = true) : c < s.1.pool.fresh :=
  (lease_invariant valid.run).mentioned i pc at_ c (mentions_of_owns (owns_of_serves given))

theorem failClosed_step (proxied_ : (chromeProxy launch.proxyServer none).isSome) (valid : ExitInvariant cfg launch s)
    (closed : FailClosed launch s) (met : givesUsableUrl launch s move = true)
    (taken : (proxied cfg provider launch answers).step s move = some t) : FailClosed launch t := by
  have later := valid.step taken
  intro k x c atK given
  rcases proxied_cases valid taken with ⟨i,choice,pc,pc',spawned,ran,at_,moved,tasks_,slotted,recorded⟩ |
    ⟨_,ctx,fresh,record,former⟩
  · have kept : ∀ (j : Nat) (y : Pc), s.1.tasks[j]? = some y → y.serves c = true → (exit launch t c).isSome := by
      intro j y atJ before
      have known := known_of_serves valid atJ before
      obtain ⟨cdp,bound⟩ := slotted.cdpContextId known
      exact exit_kept proxied_ valid later known bound cdp (recorded.assigned c known) (closed j y c atJ before)
    rw [tasks_] at atK
    rcases Tasks.getElem?_set_append at_ pc' spawned atK with ⟨rfl,rfl⟩ | ⟨_,atK⟩ | ⟨_,born⟩
    · have handed : pc.serves c = true ∨ pc.handsOut s.1.pool c := by
        rcases (next_metered moved).serves c given with before | ⟨builds,_,same,_⟩ | ⟨takes,idle,_⟩
        · exact .inl before
        · exact .inr (.inr ⟨builds,same⟩)
        · exact .inr (.inl ⟨takes,idle⟩)
      rcases handed with before | handed
      · exact kept k pc at_ before
      · rw [exit_handed proxied_ valid later at_ slotted recorded moved handed]
        simpa [givesUsableUrl,ran,at_,usable] using met
    · exact kept k x atK given
    · rw [(next_metered moved).newborn x born c] at given
      contradiction
  · obtain ⟨j,y,atJ,before⟩ := former k x c atK given
    have known := known_of_serves valid atJ before
    exact exit_kept proxied_ valid later known (fresh ▸ known) (by rw [ctx]) (by rw [record]) (closed j y c atJ before)

theorem failClosed_lost (proxied_ : (chromeProxy launch.proxyServer none).isSome) (valid : ExitInvariant cfg launch s)
    (unmet : ¬givesUsableUrl launch s move = true)
    (taken : (proxied cfg provider launch answers).step s move = some t) : ¬FailClosed launch t := by
  have later := valid.step taken
  intro closed
  rcases proxied_cases valid taken with ⟨i,choice,pc,pc',spawned,ran,at_,moved,tasks_,slotted,recorded⟩ | ⟨other,_⟩
  · have unusable : usable launch (givenConfig s pc) = false := by
      simpa [givesUsableUrl,ran,at_,usable] using unmet
    obtain ⟨c,handed⟩ := handsOut_of_unusable unusable
    have here : i < s.1.tasks.length := (List.getElem?_eq_some_iff.mp at_).1
    have exits := closed i pc' c (by simp [tasks_,List.getElem?_append,here]) (serves_of_handed moved handed)
    rw [exit_handed proxied_ valid later at_ slotted recorded moved handed,unusable] at exits
    contradiction
  · apply unmet
    unfold givesUsableUrl
    split
    · next i choice ran => exact absurd ran (other i choice)
    · rfl

/-- For every provider that does not allow a direct connection, and every pool that was
launched with it: in every run, every context that serves a request is behind a proxy, in
every state, if and only if no request is given a CDP context created with a `proxy_url`
that is there but blank. -/
theorem fail_closed_iff (cfg : Config) (provider : ProxyProvider) (launch : Launch)
    (answers : ContextId → Option ProxyConfig) (actions : List (Action × Option ProxyConfig))
    (guarded : provider.allowsDirectConnection = false)
    (launched : BrowserPool.new provider cfg.scope.contextIsolation = .ok launch) :
    (proxied cfg provider launch answers).Along (FailClosed launch) actions
        (proxied cfg provider launch answers).initial ↔
    (proxied cfg provider launch answers).Meets (fun s move => givesUsableUrl launch s move = true) actions
        (proxied cfg provider launch answers).initial := by
  have proxied_ := (launch_proxied guarded launched).1
  have start : FailClosed launch (proxied cfg provider launch answers).initial := by
    intro i pc c at_ given
    obtain rfl := initial_task at_
    contradiction
  exact Machine.along_iff_meets (I := ExitInvariant cfg launch) (J := FailClosed launch)
    (fun _ _ _ valid taken => valid.step taken) (fun _ _ closed => closed)
    (fun _ _ _ valid closed met taken => failClosed_step proxied_ valid closed met taken)
    (fun _ _ _ valid unmet taken => failClosed_lost proxied_ valid unmet taken) actions _ .initial start

def ProxyConfig.ofUrl (url : String) : ProxyConfig := ⟨some url,.http,none,none,none,none⟩

def hostPool : ProxyProvider := ⟨.ok (ProxyConfig.ofUrl "http://a:1"),true,true,false⟩

def hostPoolLaunch : Launch := ⟨ProxyConfig.ofUrl "http://a:1",some "http://a:1",true⟩

def hostPoolConfig : Config :=
  ⟨{ ValidScope.small .dedicated with assignsProxyHostPerContext := true, accepted := rfl },true⟩

def hostPoolRun (url : String) : List (Action × Option ProxyConfig) :=
  (firstRequest .createDedicatedContext).map fun action => (action,some (ProxyConfig.ofUrl url))

theorem hostPool_launches :
    BrowserPool.new hostPool hostPoolConfig.scope.contextIsolation = .ok hostPoolLaunch := by
  have server : launchProxyServer (ProxyConfig.ofUrl "http://a:1") = some "http://a:1" := by decide +kernel
  have isolated : hostPoolConfig.scope.contextIsolation = .isolated := rfl
  simp only [BrowserPool.new,hostPool,isolated,server,hostPoolLaunch]
  simp

theorem fail_closed_first_session :
    (proxied hostPoolConfig hostPool hostPoolLaunch (fun _ => none)).Along (FailClosed hostPoolLaunch)
        (hostPoolRun "http://b:1") (proxied hostPoolConfig hostPool hostPoolLaunch (fun _ => none)).initial ↔
    (proxied hostPoolConfig hostPool hostPoolLaunch (fun _ => none)).Meets
        (fun s move => givesUsableUrl hostPoolLaunch s move = true)
        (hostPoolRun "http://b:1") (proxied hostPoolConfig hostPool hostPoolLaunch (fun _ => none)).initial :=
  fail_closed_iff hostPoolConfig hostPool hostPoolLaunch (fun _ => none) (hostPoolRun "http://b:1") rfl hostPool_launches

/-- The provider answers the first session with a `proxy_url` of one blank: the session runs
without a proxy, although Chrome was launched with one. -/
theorem blank_url_goes_direct :
    BrowserPool.new hostPool hostPoolConfig.scope.contextIsolation = .ok hostPoolLaunch ∧
    ∃ s, (proxied hostPoolConfig hostPool hostPoolLaunch (fun _ => none)).exec (hostPoolRun " ")
        (proxied hostPoolConfig hostPool hostPoolLaunch (fun _ => none)).initial = some s ∧
      s.1.tasks[1]? = some (.serving 0) ∧ s.2.proxyServer 0 = some " " ∧ exit hostPoolLaunch s 0 = none ∧
      ¬FailClosed hostPoolLaunch s := by
  obtain ⟨s,ran,at_,server,direct⟩ : ∃ s, (proxied hostPoolConfig hostPool hostPoolLaunch (fun _ => none)).exec
      (hostPoolRun " ") (proxied hostPoolConfig hostPool hostPoolLaunch (fun _ => none)).initial = some s ∧
      s.1.tasks[1]? = some (.serving 0) ∧ s.2.proxyServer 0 = some " " ∧ exit hostPoolLaunch s 0 = none :=
    ⟨_,rfl,by decide +kernel,by decide +kernel,by decide +kernel⟩
  refine ⟨hostPool_launches,s,ran,at_,server,direct,fun closed => ?_⟩
  have exits := closed 1 _ 0 at_ (by simp [Pc.serves])
  simp [direct] at exits

end BrowserHive.Pool
