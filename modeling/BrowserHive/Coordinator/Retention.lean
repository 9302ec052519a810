import BrowserHive.Lib.Expiring
import BrowserHive.Lib.Simulation
import BrowserHive.Coordinator.Labels

/-! What clients can rely on about their sessions. The store is swept from time to time; run
with the requests that create, continue and forget sessions, it is a map in which a session
lasts for half an hour after each use. -/
namespace BrowserHive.Coordinator

open Transition Expiring

/-- Where a session's requests are sent, whenever it was used last. -/
structure Route where
  sessionId : SessionId
  scopeName : String
  workerEndpoint : String
  deriving DecidableEq, Repr

def SessionInfo.route (info : SessionInfo) : Route := ⟨info.sessionId,info.scopeName,info.workerEndpoint⟩

/-- The session store as a map of routes with their last uses. -/
def Sessions.routes (m : Sessions) : Store String Route :=
  fun session => (m session).map fun info => (info.route,info.lastUsedAt)

/-- What a request's step does with the sessions: what it looked up is what it goes on with. -/
def Handler.uses (h h' : Handler) : List (Expiring.Event String Route) :=
  match h.pc with
  | .routing =>
    if h.req.noSession then [] else [.get h.req.sessionId (h'.session.map SessionInfo.route)]
  | .forgetting => [.drop h.req.sessionId]
  | .finishing target (.answered resp) =>
    let id : SessionId := ⟨target.workerId,resp.contextId⟩
    if resp.contextId = "" then [] else [.put id.toString ⟨id,h.req.scopeName,target.endpoint⟩]
  | _ => []

/-- What a step of the coordinator does with the sessions. A request that is dropped at an
await leaves them alone, and so does a sweep. -/
def sessionEvents (s : State) (a : Action) (t : State) : List (Expiring.Event String Route) :=
  match a with
  | .tick elapsed => [.wait elapsed]
  | .advance i _ =>
    match s.handlers[i]?,t.handlers[i]? with
    | some h,some h' => h.uses h'
    | _,_ => []
  | _ => []

structure Kept (s : State) (m : Expected String Route) : Prop where
  now : m.now = s.shared.now
  held : Held sessionTtl m s.shared.sessions.routes
  early : ∀ (i : Nat) (h : Handler), s.handlers[i]? = some h → h.pc.early = true → h.session = none

section Routes

variable {m : Sessions} {session : String}

theorem Sessions.routes_getSession (got : m.getSession now session = some (info,m')) :
    ∃ used, m.routes session = some (info.route,used) ∧
      m'.routes = Function.update m.routes session (some (info.route,now)) := by
  obtain ⟨old,found,same⟩ := Option.map_eq_some_iff.mp got
  obtain ⟨rfl,rfl⟩ := Prod.mk.injEq .. ▸ same
  refine ⟨old.lastUsedAt,by simp [routes,found,SessionInfo.route],?_⟩
  funext other
  by_cases own : other = session
  · subst own
    simp [routes,SessionInfo.route]
  · simp [routes,own]

theorem Sessions.routes_createSession (m : Sessions) (now : Nat) (scope worker context endpoint : String) :
    (m.createSession now scope worker context endpoint).2.routes =
      Function.update m.routes (SessionId.mk worker context).toString (some (⟨⟨worker,context⟩,scope,endpoint⟩,now)) := by
  funext other
  simp only [routes,createSession,Function.update_apply]
  split <;> rfl

theorem Sessions.routes_removeSession (m : Sessions) (session : String) :
    (m.removeSession session).routes = Function.update m.routes session none := by
  funext other
  simp only [routes,removeSession,Function.update_apply]
  split <;> rfl

theorem Sessions.routes_cleanup (m : Sessions) (now ttl : Nat) (session : String) :
    (m.cleanup now ttl).routes session = (m.routes session).filter (fun entry => now - entry.2 < ttl) := by
  simp only [routes,cleanup]
  cases m session with
  | none => rfl
  | some info =>
    by_cases recent : now - info.lastUsedAt < ttl <;> simp [Option.filter,recent]

end Routes

section Request

variable {c c' : Shared} {h h' : Handler}

/-- Sessions are looked up, removed and created at three points only. -/
theorem Move.sessions_kept (moved : Move c h (c',h')) (routing : h.pc ≠ .routing) (forgetting : h.pc ≠ .forgetting)
    (finishing : ∀ target resp, h.pc ≠ .finishing target (.answered resp)) : c'.sessions = c.sessions := by
  cases moved with
  | refuse why =>
    cases why with
    | forgotten at_ => exact absurd at_ forgetting
    | _ => rfl
  | found at_ | forget at_ => exact absurd at_ routing
  | dispatch at_ => split <;> rfl
  | judge at_ judged => cases judged <;> simp
  | retry at_ retried =>
    cases retried with
    | break_ same => rcases same with rfl | rfl <;> simp [Shared.rotate]
    | again => simp [Shared.rotate,Shared.sample]
  | respond at_ => exact absurd at_ (finishing _ _)
  | invalid at_ | drop at_ => simp [Shared.sample]
  | _ => rfl

theorem routeNew_sessions (c : Shared) (h : Handler) : (routeNew c h).1.sessions = c.sessions := by
  unfold routeNew
  split
  · rfl
  · split
    · rfl
    · split
      · rfl
      · split <;> rfl

/-- At this moment the abstract map allows the events, and holds what the store holds after. -/
def Performs (m : Expected String Route) (events : List (Expiring.Event String Route)) (c c' : Shared) : Prop :=
  ∃ m', (Expiring.machine String Route sessionTtl).exec events m = some m' ∧
    m'.now = c.now ∧ Held sessionTtl m' c'.sessions.routes

section Performs

variable {m m' : Expected String Route} {e : Expiring.Event String Route}

theorem performs_nil (held : Held sessionTtl m c.sessions.routes) (now : m.now = c.now)
    (same : c'.sessions = c.sessions) : Performs m [] c c' :=
  ⟨m,rfl,now,same ▸ held⟩

theorem performs_one (now : m.now = c.now) (instant : e.elapsed = 0) (taken : Expected.step sessionTtl m e = some m')
    (held : Held sessionTtl m' c'.sessions.routes) : Performs m [e] c c' := by
  refine ⟨m',?_,?_,held⟩
  · simp [Machine.exec,Expiring.machine,taken]
  · rw [step_now taken,now,instant,Nat.add_zero]

theorem performs_routing (at_ : h.pc = .routing) (moved : next c h event = some (c',h')) (unrouted : h.session = none)
    (held : Held sessionTtl m c.sessions.routes) (now : m.now = c.now) : Performs m (h.uses h') c c' := by
  cases event with
  | go =>
    simp only [next,at_,routeNext] at moved
    split at moved
    · next new =>
      have same : (routeNew c h).1 = c' := congrArg Prod.fst (Option.some.inj moved)
      have none_ : h.uses h' = [] := by simp [Handler.uses,at_,new]
      exact none_ ▸ performs_nil held now (same ▸ routeNew_sessions c h)
    · next session =>
      have uses : h.uses h' = [.get h.req.sessionId (h'.session.map SessionInfo.route)] := by
        simp [Handler.uses,at_,session]
      have same := Option.some.inj moved
      rw [uses]
      unfold routeSession at same
      split at same
      · next lost =>
        obtain ⟨rfl,rfl⟩ := Prod.mk.inj same
        have lost : c.sessions h.req.sessionId = none := Option.map_eq_none_iff.mp lost
        obtain ⟨m',taken,held'⟩ := held.miss (k := h.req.sessionId) (by simp [Sessions.routes,lost])
        refine performs_one now rfl ?_ held'
        simpa [Handler.goto,unrouted] using taken
      · next info sessions got =>
        obtain ⟨used,stored,routes⟩ := Sessions.routes_getSession got
        have session : h'.session = some info ∧ c'.sessions = sessions := by
          dsimp only at same
          split at same <;> (obtain ⟨rfl,rfl⟩ := Prod.mk.inj same) <;> exact ⟨rfl,rfl⟩
        rw [session.1]
        refine performs_one now rfl (held.hit stored) ?_
        rw [session.2,routes,← now]
        exact held.set _ _
  | _ => simp [next,at_,routeNext] at moved

/-- What a request's step does with the sessions, the abstract map allows. -/
theorem Handler.uses_next (moved : next c h event = some (c',h')) (early : h.pc.early = true → h.session = none)
    (held : Held sessionTtl m c.sessions.routes) (now : m.now = c.now) : Performs m (h.uses h') c c' := by
  have quiet (none_ : h.uses h' = []) (same : c'.sessions = c.sessions) : Performs m (h.uses h') c c' :=
    none_ ▸ performs_nil held now same
  cases at_ : h.pc with
  | routing => exact performs_routing at_ moved (early (by simp [at_,Pc.early])) held now
  | forgetting =>
    cases event with
    | go =>
      simp only [next,at_,routeNext] at moved
      obtain ⟨rfl,rfl⟩ := Prod.mk.inj (Option.some.inj moved)
      simp only [Handler.uses,at_]
      refine performs_one now rfl rfl ?_
      simp only [Shared.sample,Sessions.routes_removeSession]
      exact held.set _ _
    | _ => simp [next,at_,routeNext] at moved
  | finishing target outcome =>
    cases outcome with
    | unreachable message =>
      refine quiet (by simp [Handler.uses,at_]) ((next_move moved).sessions_kept ?_ ?_ ?_) <;> simp [at_]
    | answered resp =>
      have responded := next_of_finishing at_ moved
      cases responded with
      | plain metrics code none_ => exact quiet (by simp [Handler.uses,at_,none_]) rfl
      | session metrics code some_ =>
        simp only [Handler.uses,at_,some_]
        refine performs_one now rfl rfl ?_
        simp only [Shared.sample,Sessions.routes_createSession,← now]
        exact held.set _ _
  | _ =>
    refine quiet (by simp [Handler.uses,at_]) ((next_move moved).sessions_kept ?_ ?_ ?_) <;> simp [at_]

end Performs

theorem Move.early (moved : Move c h (c',h')) (before : h.pc.early = true → h.session = none)
    (early : h'.pc.early = true) : h'.session = none := by
  cases moved with
  | accept at_ | look at_ | miss at_ => exact before (by simp [at_,Pc.early])
  | select at_ new listed selected full => rcases full with ⟨rfl,_⟩ | ⟨rfl,_⟩ <;> cases early
  | judge at_ judged => cases judged <;> cases early
  | retry at_ retried => cases retried <;> cases early
  | respond at_ responded => cases responded <;> cases early
  | _ => cases early

end Request

section Run

variable {fleet : Fleet} {s t : State} {a : Action} {m : Expected String Route}

theorem Kept.advance (kept : Kept s m) (here : s.handlers[i]? = some h) (moved : Move s.shared h (shared,h')) :
    ∀ (j : Nat) (g : Handler), (s.handlers.set i h')[j]? = some g → g.pc.early = true → g.session = none := by
  intro j g there early
  rcases Tasks.getElem?_set_cases here there with ⟨_,rfl⟩ | ⟨_,old⟩
  · exact moved.early (kept.early i h here) early
  · exact kept.early j g old early

theorem Kept.step (kept : Kept s m) (taken : openStep fleet s a = some t) :
    ∃ m', (Expiring.machine String Route sessionTtl).exec (sessionEvents s a t) m = some m' ∧ Kept t m' := by
  cases a with
  | advance i event =>
    obtain ⟨h,shared,h',here,moved,rfl⟩ := take_cases (fun shared h => next shared h event) taken
    have there : (s.handlers.set i h')[i]? = some h' := List.getElem?_set_self (List.getElem?_eq_some_iff.mp here).1
    obtain ⟨m',performed,now,held⟩ := Handler.uses_next moved (kept.early i h here) kept.held kept.now
    refine ⟨m',?_,now.trans (next_move moved).frame.now.symm,held,kept.advance here (next_move moved)⟩
    simpa only [sessionEvents,here,there] using performed
  | drop i =>
    obtain ⟨h,shared,h',here,moved,rfl⟩ := take_cases dropNext taken
    have dropped := drop_move moved
    have same : shared.sessions = s.shared.sessions := by
      unfold dropNext at moved
      split at moved
      · obtain ⟨rfl,_⟩ := Prod.mk.inj (Option.some.inj moved)
        exact Shared.release_sessions _ _
      · contradiction
    exact ⟨m,rfl,kept.now.trans dropped.frame.now.symm,by simpa only [same] using kept.held,kept.advance here dropped⟩
  | tick elapsed =>
    obtain rfl := Option.some.inj taken
    exact ⟨_,rfl,congrArg (· + elapsed) kept.now,kept.held.wait elapsed,kept.early⟩
  | cleanup =>
    obtain rfl := Option.some.inj taken
    refine ⟨m,rfl,kept.now,kept.held.sweep ?_ ?_,kept.early⟩
    · intro session route used stored recent
      rw [Sessions.routes_cleanup,stored]
      simp [Option.filter,← kept.now,recent]
    · intro session entry stored
      rw [Sessions.routes_cleanup] at stored
      exact (Option.filter_eq_some_iff.mp stored).1
  | arrive req =>
    obtain rfl := Option.some.inj taken
    refine ⟨m,rfl,kept.now,kept.held,fun j g there early => ?_⟩
    rcases Tasks.getElem?_append_cases there with old | ⟨_,rfl⟩
    · exact kept.early j g old early
    · rfl
  | discover pods =>
    rcases openStep_cases taken with ⟨_,_,rfl⟩ | ⟨other,_⟩
    · exact ⟨m,rfl,kept.now,kept.held,kept.early⟩
    · exact absurd rfl (other pods)
  | publish =>
    obtain ⟨presences,_,rfl⟩ := Option.map_eq_some_iff.mp taken
    exact ⟨m,rfl,kept.now,kept.held,kept.early⟩
  | cancel | monitor =>
    obtain rfl := Option.some.inj taken
    exact ⟨m,rfl,kept.now,kept.held,kept.early⟩

theorem sessions_simulated (fleet : Fleet) : Machine.Simulation (openMachine fleet)
    (Expiring.machine String Route sessionTtl) sessionEvents Kept where
  initial := ⟨rfl,⟨(by rintro _ _ ⟨⟩),(by rintro _ _ _ ⟨⟩)⟩,fun i h here => by simp [openMachine,Fleet.initial] at here⟩
  step _ _ _ _ _ kept taken := kept.step taken

end Run

/-- What the requests of a run do with the sessions is what a map allows whose entries last for
half an hour after each use, however often the store is swept. So a session that was created
or continued less than half an hour ago, and not forgotten since, is always found, and
leads where it led then. -/
theorem sessions_last {fleet : Fleet} (ran : (openMachine fleet).exec actions (openMachine fleet).initial = some s) :
    (∃ m, (Expiring.machine String Route sessionTtl).exec
        ((openMachine fleet).trace sessionEvents actions (openMachine fleet).initial)
        (Expiring.machine String Route sessionTtl).initial = some m ∧ Kept s m) ∧
    ∀ before e between after session found route,
      (openMachine fleet).trace sessionEvents actions (openMachine fleet).initial =
        before ++ e :: between ++ .get session found :: after →
      e.Uses session route → (∀ e ∈ between, Event.key e ≠ some session) → elapsed between < sessionTtl →
      found = some route := by
  obtain ⟨m,performed,kept⟩ := (sessions_simulated fleet).exec ran
  refine ⟨⟨m,performed,kept⟩,fun before e between after session found route split uses other recent => ?_⟩
  rw [split] at performed
  exact found_of_recent performed uses other recent

def resumed : List Action :=
  [.discover [.ready "web-0" "web" 2],.monitor ["web-0"],.arrive (.page "web" "")] ++ dispatched 0 ++
    [.advance 0 (.answered ⟨true,200,"",0,"ctx"⟩),.advance 0 .go,.tick (seconds (29 * 60)),.cleanup,
      .arrive (.page "web" "web-0:ctx")] ++ List.replicate 3 (.advance 1 .go)

theorem sessions_last_resumed : ∃ s found, (openMachine (.discovered id)).exec resumed
      (openMachine (.discovered id)).initial = some s ∧
    (openMachine (.discovered id)).trace sessionEvents resumed (openMachine (.discovered id)).initial =
      [.put "web-0:ctx" ⟨⟨"web-0","ctx"⟩,"web","http://10.0.0.1:50052"⟩,.wait (seconds (29 * 60)),.get "web-0:ctx" found] ∧
    found = some ⟨⟨"web-0","ctx"⟩,"web","http://10.0.0.1:50052"⟩ := by
  obtain ⟨s,ran⟩ : ∃ s, (openMachine (.discovered id)).exec resumed (openMachine (.discovered id)).initial = some s :=
    ⟨_,rfl⟩
  obtain ⟨found,trace⟩ : ∃ found,
      (openMachine (.discovered id)).trace sessionEvents resumed (openMachine (.discovered id)).initial =
        [.put "web-0:ctx" ⟨⟨"web-0","ctx"⟩,"web","http://10.0.0.1:50052"⟩,.wait (seconds (29 * 60)),
          .get "web-0:ctx" found] := ⟨_,rfl⟩
  refine ⟨s,found,ran,trace,?_⟩
  exact (sessions_last ran).2 [] _ [.wait (seconds (29 * 60))] [] _ _ _ trace (.inl rfl) (by simp [Event.key]) (by decide)

end BrowserHive.Coordinator
