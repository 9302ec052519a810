import BrowserHive.Pool.Usage

/-! The exit a request leaves through. A context's CDP context is created with the routing
parameters of the request it is built for, or with the default ones by the monitor and at
startup; selection does not look at them again. Which request asked for what, and what
each context was created with, is recorded beside the run. -/
namespace BrowserHive.Pool

open BrowserHive Transition

variable {cfg : Config} {p pool : PoolState} {tasks : List Pc} {pc pc' : Pc} {spawned : List Pc}

structure Routing where
  /-- What a session-less request asked for, by task. -/
  wants : Nat → Option ProxyParams
  /-- What a context's CDP context was created with. -/
  madeFor : ContextId → ProxyParams

def ProxyParams.default : ProxyParams := ⟨none⟩

/-- `create_new_context` passes the request's parameters on; recycling has no request. -/
def routingFollows (s : State) (r : Routing) (action : Action) (t : State) : Option Routing :=
  match action with
  | .call (.getOrCreateContext lookup) =>
    some { r with wants := Function.update r.wants s.tasks.length (some lookup.params) }
  | .run i _ =>
    if t.pool.fresh = s.pool.fresh then some r
    else some { r with madeFor := Function.update r.madeFor s.pool.fresh ((r.wants i).getD ProxyParams.default) }
  | _ => some r

def routed (cfg : Config) : Machine (State × Routing) Action :=
  (machine cfg).record ⟨fun _ => none,fun _ => ProxyParams.default⟩ id routingFollows

/-- Every request that has been given a context got one created with its own parameters. -/
def ExitsPreserved (s : State × Routing) : Prop :=
  ∀ (i : Nat) (pc : Pc) (c : ContextId) (params : ProxyParams), s.1.tasks[i]? = some pc →
    pc.serves c = true → s.2.wants i = some params → s.2.madeFor c = params

/-- An idle context that a session-less request claims was created without a country. -/
def claimsDefaultExit (s : State × Routing) : Action → Bool
  | .run i _ =>
    match (s.1.tasks[i]?).bind Pc.takes, s.2.wants i with
    | some c, some _ => s.1.pool.isBusy c || (s.2.madeFor c).countryCode.isNone
    | _, _ => true
  | _ => true

/-- What a task's program point says about the request it runs: what it asked for, and that
only requests without overrides look for an idle context to reuse. -/
def Pc.fits (want : Option ProxyParams) : Pc → Prop
  | .acquiring (.getOrCreateContext lookup) | .wantWrite lookup | .atCapacity lookup =>
    want = some lookup.params
  | .selecting access selection _ _ lookup | .claiming access selection _ lookup =>
    want = some lookup.params ∧
      ((access = .write ∧ selection = .usedUp) ∨ lookup.params.requiresDedicatedContext = false)
  | .acquiring _ | .session _ | .found _ | .ending _ | .continuing _ => want = none
  | _ => True

/-- A step of a request keeps to what it asked for; the tasks it spawns are no requests. -/
def Fits (want : Option ProxyParams) (pc' : Pc) (spawned : List Pc) : Prop :=
  pc'.fits want ∧ ∀ x ∈ spawned, ∀ want, x.fits want

theorem Walk.fits (fits : pc.fits want) (walks : Walk cfg p tasks choice pc pc') : pc'.fits want := by
  cases walks with
  | admits | skips | selected | lost | usedUp | usable | spareSession | find => exact fits
  | search _ default | searchAgain _ default => exact ⟨fits,.inr default⟩
  | override => exact fits
  | noneUsedUp _ default => exact ⟨fits.1,.inr default⟩
  | relock | noneIdle => exact fits.1
  | full => exact ⟨fits,.inl ⟨rfl,rfl⟩⟩
  | skipSearch => exact fits
  | _ => trivial

theorem Move.fits (fits : pc.fits want) (move : Move cfg p tasks choice pc pool pc' spawned) :
    Fits want pc' spawned := by
  cases move with
  | walk walks => exact ⟨walks.fits fits,by simp⟩
  | @released after => cases after <;> exact ⟨trivial,by simp⟩
  | recycle | build | clearAlwaysNew => exact ⟨trivial,by simp [Pc.fits]⟩
  | _ => exact ⟨trivial,by simp⟩

theorem next_fits (fits : pc.fits want) (moved : next cfg p tasks choice pc = some (pool,pc',spawned)) :
    Fits want pc' spawned := (next_move moved).fits fits

theorem cancelled_fits (dropped : cancelled p pc = some (pool,pc')) : pc'.fits want := by
  cases cancelled_drop dropped <;> trivial

theorem takes_head (takes : (Pc.claiming access selection (d :: candidates) lookup).takes = some c) : d = c := by
  cases access <;> cases selection <;> simp_all [Pc.takes]

theorem serves_of_takes (takes : pc.takes = some c) (idle : p.isBusy c = false)
    (moved : next cfg p tasks choice pc = some (pool,pc',spawned)) : pc'.serves c = true := by
  cases next_move moved with
  | continues =>
    obtain rfl := Option.some.inj takes
    simp [Pc.serves]
  | claim =>
    obtain rfl := takes_head takes
    simp [Pc.serves]
  | walk walks =>
    cases walks with
    | taken busy =>
      obtain rfl := Option.some.inj takes
      simp [busy] at idle
    | lost busy =>
      obtain rfl := takes_head takes
      simp [busy] at idle
    | _ => simp [Pc.takes] at takes
  | _ => simp [Pc.takes] at takes

/-- A request that claims an idle context has no overrides. -/
theorem default_of_takes (fits : pc.fits (some params)) (takes : pc.takes = some c) :
    params.countryCode = none := by
  cases pc with
  | continuing d => simp [Pc.fits] at fits
  | claiming access selection candidates lookup =>
    obtain ⟨own,reuse⟩ := fits
    obtain rfl := Option.some.inj own
    rcases reuse with ⟨rfl,rfl⟩ | default
    · simp [Pc.takes] at takes
    · simpa [ProxyParams.requiresDedicatedContext] using default
  | _ => simp [Pc.takes] at takes

structure RoutingInvariant (s : State × Routing) : Prop where
  fits : ∀ (i : Nat) (pc : Pc), s.1.tasks[i]? = some pc → pc.fits (s.2.wants i)
  unborn : ∀ i, s.1.tasks.length ≤ i → s.2.wants i = none

/-- The record knows a task from its arrival, and a context from its creation. -/
theorem routingFollows_cases (followed : routingFollows s r action t = some r') :
    (∃ lookup, action = .call (.getOrCreateContext lookup) ∧
      r' = { r with wants := Function.update r.wants s.tasks.length (some lookup.params) }) ∨
    ((∀ lookup, action ≠ .call (.getOrCreateContext lookup)) ∧ r'.wants = r.wants ∧
      (∀ c, c ≠ s.pool.fresh → r'.madeFor c = r.madeFor c) ∧
      (∀ i choice, action = .run i choice → t.pool.fresh ≠ s.pool.fresh →
        r'.madeFor s.pool.fresh = (r.wants i).getD ProxyParams.default)) := by
  unfold routingFollows at followed
  split at followed
  · next lookup => exact .inl ⟨lookup,rfl,(Option.some.inj followed).symm⟩
  · next i choice =>
    refine .inr ⟨by simp,?_⟩
    split at followed <;> obtain rfl := Option.some.inj followed
    · next same => exact ⟨rfl,fun _ _ => rfl,fun _ _ _ grown => absurd same grown⟩
    · refine ⟨rfl,fun c older => by simp [older],fun j _ ran _ => ?_⟩
      obtain ⟨rfl,rfl⟩ : i = j ∧ choice = _ := by simpa using ran
      simp
  · next other ran =>
    obtain rfl := Option.some.inj followed
    exact .inr ⟨fun lookup same => other lookup same,rfl,fun _ _ => rfl,fun i choice same => absurd same (ran i choice)⟩

/-- What is asked for is asked at the arrival, and never changed. -/
theorem wants_follow (followed : routingFollows s r action t = some r') (i : Nat) (here : i < s.tasks.length) :
    r'.wants i = r.wants i := by
  rcases routingFollows_cases followed with ⟨lookup,_,rfl⟩ | ⟨_,same,_⟩
  · exact Function.update_of_ne (Nat.ne_of_lt here) _ _
  · rw [same]

theorem RoutingInvariant.move {i : Nat} {r : Routing} (valid : RoutingInvariant s) (at_ : s.1.tasks[i]? = some pc)
    (fits : Fits (s.2.wants i) pc' spawned) (wants : r.wants = s.2.wants) :
    RoutingInvariant (⟨pool,s.1.tasks.set i pc' ++ spawned⟩,r) := by
  refine ⟨fun j x atJ => ?_,fun j beyond => ?_⟩
  · rw [wants]
    rcases Tasks.getElem?_set_append at_ pc' spawned atJ with ⟨rfl,rfl⟩ | ⟨_,atJ⟩ | ⟨_,born⟩
    · exact fits.1
    · exact valid.fits j x atJ
    · exact fits.2 x born _
  · rw [wants]
    refine valid.unborn j (Nat.le_trans ?_ beyond)
    simp

theorem RoutingInvariant.step (valid : RoutingInvariant s) (taken : (routed cfg).step s action = some t) :
    RoutingInvariant t := by
  obtain ⟨stepped,followed⟩ := Machine.record_step taken
  obtain ⟨t,r⟩ := t
  dsimp only at stepped followed
  rcases step_cases stepped with ⟨_,rfl,rfl⟩ | ⟨pc,arrives,rfl⟩ | ⟨i,_,pc,pool,pc',spawned,rfl,at_,moved,rfl⟩ |
    ⟨i,pc,pool,pc',rfl,at_,dropped,rfl⟩
  · obtain rfl := Option.some.inj followed
    exact ⟨valid.fits,valid.unborn⟩
  · refine ⟨fun j x atJ => ?_,fun j beyond => ?_⟩
    · rcases Tasks.getElem?_append_cases atJ with atJ | ⟨rfl,rfl⟩
      · rw [wants_follow followed j (List.getElem?_eq_some_iff.mp atJ).1]
        exact valid.fits j x atJ
      · have before := valid.unborn _ (Nat.le_refl _)
        cases action with
        | call call =>
          obtain rfl := Option.some.inj arrives
          cases call <;> obtain rfl := Option.some.inj followed
          · simp [Pc.fits]
          all_goals exact before
        | session c | destroy c =>
          obtain rfl := Option.some.inj arrives
          obtain rfl := Option.some.inj followed
          first | exact before | trivial
        | _ => simp [Action.arrival] at arrives
    · simp only [List.length_append,List.length_singleton] at beyond
      rcases routingFollows_cases followed with ⟨lookup,_,rfl⟩ | ⟨_,same,_⟩
      · exact (Function.update_of_ne (by omega) _ _).trans (valid.unborn j (by omega))
      · exact same ▸ valid.unborn j (by omega)
  · rcases routingFollows_cases followed with ⟨_,other,_⟩ | ⟨_,wants,_⟩
    · contradiction
    · exact valid.move at_ (next_fits (valid.fits i pc at_) moved) wants
  · obtain rfl := Option.some.inj followed
    have fits : Fits (s.2.wants i) pc' [] := ⟨cancelled_fits dropped,by simp⟩
    simpa using valid.move at_ fits rfl

structure RoutedInvariant (cfg : Config) (s : State × Routing) : Prop where
  run : (machine cfg).Reachable s.1
  routing : RoutingInvariant s

theorem RoutedInvariant.step (valid : RoutedInvariant cfg s) (taken : (routed cfg).step s action = some t) :
    RoutedInvariant cfg t :=
  ⟨valid.run.step trivial (Machine.record_step taken).1,valid.routing.step taken⟩

theorem RoutedInvariant.initial : RoutedInvariant cfg (routed cfg).initial := by
  refine ⟨.initial,fun i pc at_ => ?_,fun _ _ => rfl⟩
  obtain rfl := initial_task at_
  trivial

theorem mentions_of_takes (takes : pc.takes = some c) : c ∈ pc.mentions := by
  cases pc with
  | claiming access selection candidates lookup =>
    cases candidates <;> cases access <;> cases selection <;> simp_all [Pc.takes,Pc.mentions]
  | _ => simp_all [Pc.takes,Pc.mentions]

/-- A context that some task knows keeps its exit. -/
theorem madeFor_follows (valid : RoutedInvariant cfg s) (followed : routingFollows s.1 s.2 action t = some r)
    {i : Nat} (at_ : s.1.tasks[i]? = some pc) (known : c ∈ pc.mentions) : r.madeFor c = s.2.madeFor c := by
  have older : c ≠ s.1.pool.fresh := Nat.ne_of_lt ((lease_invariant valid.run).mentioned i pc at_ c known)
  rcases routingFollows_cases followed with ⟨_,_,rfl⟩ | ⟨_,_,same,_⟩
  · rfl
  · exact same c older

theorem exits_kept (valid : RoutedInvariant cfg s) (preserved : ExitsPreserved s)
    (followed : routingFollows s.1 s.2 action t = some r) {i : Nat} (at_ : s.1.tasks[i]? = some pc)
    (given : pc.serves c = true) (wants : r.wants i = some params) : r.madeFor c = params := by
  rw [madeFor_follows valid followed at_ (mentions_of_owns (owns_of_serves given))]
  rw [wants_follow followed i (List.getElem?_eq_some_iff.mp at_).1] at wants
  exact preserved i pc c params at_ given wants

/-- What the task that moves is given: what it had, a context built for it, or one it
claims. -/
theorem exits_moved {i : Nat} (valid : RoutedInvariant cfg s) (preserved : ExitsPreserved s)
    (met : claimsDefaultExit s (.run i choice) = true) (at_ : s.1.tasks[i]? = some pc)
    (moved : next cfg s.1.pool s.1.tasks choice pc = some (pool,pc',spawned))
    (followed : routingFollows s.1 s.2 (.run i choice) ⟨pool,s.1.tasks.set i pc' ++ spawned⟩ = some r)
    (given : pc'.serves c = true) (wants : r.wants i = some params) : r.madeFor c = params := by
  rcases (next_metered moved).serves c given with before | ⟨builds,rfl,rfl,_⟩ | ⟨takes,idle,_⟩
  · exact exits_kept valid preserved followed at_ before wants
  · have leased := next_leased ((lock_invariant valid.run).sections i pc at_)
      ((lease_invariant valid.run).mentioned i pc at_)
      (fun c => Nat.le_trans (Tasks.weight_le at_) ((lease_invariant valid.run).held c)) moved
    have grown : pool.fresh = s.1.pool.fresh + 1 := (leased.incoming _ rfl).2.1
    rcases routingFollows_cases followed with ⟨_,other,_⟩ | ⟨_,same,_,created⟩
    · contradiction
    · rw [created i choice rfl (grown ▸ Nat.succ_ne_self _),← same,wants]
      rfl
  · rw [wants_follow followed i (List.getElem?_eq_some_iff.mp at_).1] at wants
    have default := default_of_takes (wants ▸ valid.routing.fits i pc at_) takes
    have exit : (s.2.madeFor c).countryCode = none := by
      simpa [claimsDefaultExit,at_,takes,wants,idle] using met
    rw [madeFor_follows valid followed at_ (mentions_of_takes takes)]
    cases params
    cases made : s.2.madeFor c
    simp_all

theorem exits_step (valid : RoutedInvariant cfg s) (preserved : ExitsPreserved s)
    (met : claimsDefaultExit s action = true) (taken : (routed cfg).step s action = some t) :
    ExitsPreserved t := by
  obtain ⟨stepped,followed⟩ := Machine.record_step taken
  obtain ⟨t,r⟩ := t
  dsimp only at stepped followed
  intro j x c params atJ given wants
  rcases step_cases stepped with ⟨_,rfl,rfl⟩ | ⟨pc,arrives,rfl⟩ | ⟨i,_,pc,pool,pc',spawned,rfl,at_,moved,rfl⟩ |
    ⟨i,pc,pool,pc',rfl,at_,dropped,rfl⟩
  · exact exits_kept valid preserved followed atJ given wants
  · rcases Tasks.getElem?_append_cases atJ with atJ | ⟨_,rfl⟩
    · exact exits_kept valid preserved followed atJ given wants
    · rcases arrival_cases arrives with ⟨_,rfl⟩ | ⟨_,rfl⟩ | ⟨_,rfl⟩ <;> contradiction
  · rcases Tasks.getElem?_set_append at_ pc' spawned atJ with ⟨rfl,rfl⟩ | ⟨_,atJ⟩ | ⟨_,born⟩
    · exact exits_moved valid preserved met at_ moved followed given wants
    · exact exits_kept valid preserved followed atJ given wants
    · rw [(next_metered moved).newborn x born c] at given
      contradiction
  · rcases Tasks.getElem?_set_cases at_ atJ with ⟨rfl,rfl⟩ | ⟨_,atJ⟩
    · exact exits_kept valid preserved followed at_ ((cancelled_drop dropped).serves given) wants
    · exact exits_kept valid preserved followed atJ given wants

/-- A request that claims a context made for a country leaves through it. -/
theorem exits_lost (valid : RoutedInvariant cfg s) (unmet : ¬claimsDefaultExit s action = true)
    (taken : (routed cfg).step s action = some t) : ¬ExitsPreserved t := by
  obtain ⟨stepped,followed⟩ := Machine.record_step taken
  obtain ⟨t,r⟩ := t
  dsimp only at stepped followed
  intro preserved
  rcases step_cases stepped with ⟨_,rfl,rfl⟩ | ⟨pc,arrives,rfl⟩ | ⟨i,choice,pc,pool,pc',spawned,rfl,at_,moved,rfl⟩ |
    ⟨i,pc,pool,pc',rfl,at_,dropped,rfl⟩
  · exact unmet rfl
  · cases action <;> simp [id,Action.arrival,claimsDefaultExit] at arrives unmet
  · simp only [claimsDefaultExit,at_,Option.bind_some] at unmet
    cases takes : pc.takes with
    | none => simp [takes] at unmet
    | some c =>
      cases wants : s.2.wants i with
      | none => simp [takes,wants] at unmet
      | some params =>
        obtain ⟨idle,country⟩ : s.1.pool.isBusy c = false ∧ (s.2.madeFor c).countryCode ≠ none := by
          simpa [takes,wants,Option.isNone_iff_eq_none] using unmet
        have here : i < s.1.tasks.length := (List.getElem?_eq_some_iff.mp at_).1
        have default := default_of_takes (wants ▸ valid.routing.fits i pc at_) takes
        have given := preserved i pc' c params (by simp [List.getElem?_append,here]) (serves_of_takes takes idle moved)
          ((wants_follow followed i here).trans wants)
        rw [madeFor_follows valid followed at_ (mentions_of_takes takes)] at given
        exact country (given ▸ default)
  · exact unmet rfl

/-- In every run: every request is given a context created with its own routing parameters,
in every state, if and only if each idle context that a request claims was created without
a country. -/
theorem exit_identity_iff (cfg : Config) (actions : List Action) :
    (routed cfg).Along ExitsPreserved actions (routed cfg).initial ↔
    (routed cfg).Meets (fun s action => claimsDefaultExit s action = true) actions (routed cfg).initial := by
  have start : ExitsPreserved (routed cfg).initial := by
    intro i pc c params at_ given
    obtain rfl := initial_task at_
    contradiction
  exact Machine.along_iff_meets (I := RoutedInvariant cfg) (J := ExitsPreserved)
    (fun _ _ _ valid taken => valid.step taken) (fun _ _ preserved => preserved)
    (fun _ _ _ valid preserved met taken => exits_step valid preserved met taken)
    (fun _ _ _ valid unmet taken => exits_lost valid unmet taken) actions _ .initial start

def reusedExit : List Action :=
  [.call (.getOrCreateContext ⟨⟨some "DE"⟩,none⟩),.run 1 .go,.run 1 .go,.run 1 .go,.run 1 .go,.run 2 .go,.run 2 .go,
    .run 2 .go,.run 1 .poll,.run 1 .go,.run 1 .go,.run 1 .go,.run 1 .touch,.run 1 .finish,.run 1 .go,.run 1 .go,
    .call (.getOrCreateContext ⟨ProxyParams.default,none⟩),.run 3 .go,.run 3 .go,.run 3 .go,.run 3 .go,.run 3 .go]

theorem default_request_leaves_through_country :
    ∃ s, (routed (Config.small .reusable)).exec reusedExit (routed (Config.small .reusable)).initial = some s ∧
      s.1.tasks[3]? = some (.serving 0) ∧ s.2.wants 3 = some ProxyParams.default ∧
      s.2.madeFor 0 = ⟨some "DE"⟩ ∧ ¬ExitsPreserved s := by
  obtain ⟨s,ran,at_,wants,made⟩ : ∃ s, (routed (Config.small .reusable)).exec reusedExit
      (routed (Config.small .reusable)).initial = some s ∧ s.1.tasks[3]? = some (.serving 0) ∧
      s.2.wants 3 = some ProxyParams.default ∧ s.2.madeFor 0 = ⟨some "DE"⟩ := ⟨_,rfl,rfl,rfl,rfl⟩
  refine ⟨s,ran,at_,wants,made,fun preserved => ?_⟩
  have same := preserved 3 _ 0 _ at_ (by simp [Pc.serves]) wants
  rw [made] at same
  contradiction

end BrowserHive.Pool
