import BrowserHive.Coordinator.Attempts

/-! Which scope a session belongs to: the store keeps the scope of the pod that owns the
context, and requests of the session are sent to that scope's pods, as long as a request
that is sent again or answered with a context names the scope of its session. -/
namespace BrowserHive.Coordinator

open Transition

variable {fleet : Fleet} {s t : State} {i : Nat}

def SessionInfo.Owned (fleet : Fleet) (info : SessionInfo) : Prop :=
  info.scopeName = fleet.label info.sessionId.workerId

/-- Every dispatch made for a session went to a worker of the session's scope. -/
def Handler.Routed (fleet : Fleet) (h : Handler) : Prop :=
  h.req.noSession = false → ∀ a ∈ h.trail, ∃ info, h.session = some info ∧
    fleet.label a.worker = info.scopeName

structure ScopeIntegrity (fleet : Fleet) (s : State) : Prop where
  stored : s.shared.sessions.All (·.Owned fleet)
  routed : ∀ (i : Nat) (h : Handler), s.handlers[i]? = some h → h.Routed fleet

/-- Where the scope the request names is used, it is the scope of its session: when it is
sent to another pod, and when an answer with a context is stored. -/
def Handler.NamesItsScope (fleet : Fleet) (h : Handler) : Prop :=
  match h.pc with
  | .dispatching .. => h.trail = [] ∨ ∃ info, h.session = some info ∧ h.req.scopeName = info.scopeName
  | .finishing target (.answered resp) =>
    resp.contextId = "" ∨ h.req.scopeName = fleet.label target.workerId
  | _ => True

/-- The request that takes this step continues a session only if it names its scope. -/
def NamesSessionScope (fleet : Fleet) (s : State) : Action → Prop
  | .advance i _ => ∀ (h : Handler), s.handlers[i]? = some h → h.req.noSession = false →
    h.NamesItsScope fleet
  | _ => True

/-- The scope of the worker a request is bound for. -/
def Handler.Placed (fleet : Fleet) (h : Handler) : Prop :=
  match h.pc with
  | .refreshing target => h.req.noSession = true ∧ fleet.label target.workerId = h.req.scopeName
  | .dispatching target _ =>
    (h.trail = [] ∧ ∃ info, h.session = some info ∧ fleet.label target.workerId = info.scopeName ∧
      h.req.noSession = false) ∨
    (h.trail = [] → h.req.noSession = true) ∧ fleet.label target.workerId = h.req.scopeName
  | .connecting target | .calling target _ | .retrying target .. | .finishing target _ =>
    h.req.noSession = true → fleet.label target.workerId = h.req.scopeName
  | _ => True

/-- What holds whatever clients send. -/
structure Consistent (fleet : Fleet) (s : State) : Prop where
  listed : s.shared.routable.All (fun scope w => fleet.label w.podName = scope)
  sound : ∀ (i : Nat) (h : Handler), s.handlers[i]? = some h → h.Sound
  placed : ∀ (i : Nat) (h : Handler), s.handlers[i]? = some h → h.Placed fleet

section Move

variable {c c' : Shared} {h h' : Handler}

theorem Handler.Placed.move (placed : h.Placed fleet) (sound : h.Sound)
    (listed : c.routable.All (fun scope w => fleet.label w.podName = scope))
    (moved : Move c h (c',h')) : h'.Placed fleet := by
  cases moved with
  | accept | look | forget | miss | refuse | invalid | drop | unreachable => trivial
  | @found info sessions ws w at_ session stored found member same =>
    have untried : h.trail = [] := sound.untried (by simp [at_,Pc.untried])
    have scope : fleet.label info.sessionId.workerId = info.scopeName :=
      same ▸ listed info.scopeName ws found w member
    exact .inl ⟨untried,info,rfl,scope,session⟩
  | select at_ new found selected full =>
    have scope := listed _ _ found _ (selectBestWorker_mem selected)
    rcases full with ⟨rfl,_⟩ | ⟨rfl,_⟩
    · exact ⟨new,scope⟩
    · exact .inr ⟨fun _ => new,scope⟩
  | confirm at_ =>
    simp only [Handler.Placed,at_] at placed
    exact .inr ⟨fun _ => placed.1,placed.2⟩
  | dispatch at_ =>
    simp only [Handler.Placed,at_] at placed
    intro new
    rcases placed with ⟨_,_,_,_,session⟩ | ⟨_,scope⟩
    · exact absurd new (by simp [session])
    · exact scope
  | connect at_ _ =>
    simp only [Handler.Placed,at_] at placed
    exact placed
  | judge at_ judged =>
    rcases at_ with at_ | ⟨_,at_⟩ <;> simp only [Handler.Placed,at_] at placed <;> cases judged <;>
      simpa [Handler.Placed] using placed
  | retry at_ retried =>
    have standing := sound.standing
    simp only [Handler.Standing,at_] at standing
    obtain ⟨⟨a,older,trail,_⟩,_⟩ := standing
    simp only [Handler.Placed,at_] at placed
    cases retried with
    | break_ same => exact placed
    | again found member =>
      refine .inr ⟨fun first => ?_,listed _ _ found _ member⟩
      cases trail.symm.trans first
  | respond at_ responded => cases responded <;> trivial

end Move

theorem Consistent.initial (fleet : Fleet) : Consistent fleet fleet.initial :=
  ⟨fleet.listed,fun i h here => by simp [Fleet.initial] at here,
    fun i h here => by simp [Fleet.initial] at here⟩

theorem Consistent.step (consistent : Consistent fleet s) (taken : step fleet s a = some t) :
    Consistent fleet t := by
  cases step_turn taken with
  | request before moved act =>
    have sound := consistent.sound _ _ before
    have placed := consistent.placed _ _ before
    refine ⟨moved.frame.routable ▸ consistent.listed,fun i h here => ?_,fun i h here => ?_⟩
    · rcases Tasks.getElem?_set_cases before here with ⟨_,rfl⟩ | ⟨_,old⟩
      · exact sound.move moved
      · exact consistent.sound i h old
    · rcases Tasks.getElem?_set_cases before here with ⟨_,rfl⟩ | ⟨_,old⟩
      · exact placed.move sound consistent.listed moved
      · exact consistent.placed i h old
  | arrive =>
    refine ⟨consistent.listed,fun i h here => ?_,fun i h here => ?_⟩
    · rcases Tasks.getElem?_append_cases here with old | ⟨_,rfl⟩
      · exact consistent.sound i h old
      · exact ⟨rfl,Nat.zero_le _,List.nodup_nil,trivial,rfl⟩
    · rcases Tasks.getElem?_append_cases here with old | ⟨_,rfl⟩
      · exact consistent.placed i h old
      · trivial
  | background works act =>
    refine ⟨?_,consistent.sound,consistent.placed⟩
    rcases works.routable with same | ⟨pods,labelled,found⟩
    · exact same ▸ consistent.listed
    · refine found ▸ discoverWorkers_routable fun pod member w scope name label _ => ?_
      have listed := labelled pod member
      simpa [Fleet.lists,name,label] using listed

/-- A step that meets the condition stores sessions under their scope only. -/
theorem Move.stored {c c' : Shared} {h h' : Handler} (moved : Move c h (c',h'))
    (stored : c.sessions.All (·.Owned fleet)) (placed : h.Placed fleet)
    (names : h'.pc ≠ .dropped → h.req.noSession = false → h.NamesItsScope fleet) :
    c'.sessions.All (·.Owned fleet) := by
  have used (info : SessionInfo) (t : Nat) (owned : info.Owned fleet) :
      SessionInfo.Owned fleet { info with lastUsedAt := t } := owned
  have stores := moved.stores
  generalize c'.sessions = sessions at *
  cases stores with
  | kept => exact stored
  | used got => exact (stored.getSession used got).2
  | removed session => exact stored.removeSession
  | created at_ lives some_ =>
    apply stored.createSession
    cases new : h.req.noSession with
    | true =>
      simp only [Handler.Placed,at_] at placed
      exact (placed new).symm
    | false =>
      have named := names lives new
      simp only [Handler.NamesItsScope,at_] at named
      exact named.resolve_left some_

/-- A step that meets the condition sends a session's request to its scope only. -/
theorem Move.routed {c c' : Shared} {h h' : Handler} (moved : Move c h (c',h')) (sound : h.Sound)
    (routed : h.Routed fleet) (placed : h.Placed fleet)
    (names : h'.pc ≠ .dropped → h.req.noSession = false → h.NamesItsScope fleet) : h'.Routed fleet := by
  cases moved with
  | found at_ | forget at_ =>
    have untried : h.trail = [] := sound.untried (by simp [at_,Pc.untried])
    intro _ a member
    simp [untried] at member
  | @dispatch target choice at_ =>
    intro session a member
    have named := names (by simp) session
    simp only [Handler.Placed,at_] at placed
    simp only [Handler.NamesItsScope,at_] at named
    rcases List.mem_cons.mp member with rfl | earlier
    · rcases placed with ⟨_,info,found,scope,_⟩ | ⟨first,scope⟩
      · exact ⟨info,found,scope⟩
      · rcases named with untried | ⟨info,found,same⟩
        · exact absurd (first untried) (by simpa using session)
        · exact ⟨info,found,scope.trans same⟩
    · exact routed session a earlier
  | judge at_ judged =>
    obtain ⟨b,older,trail,_⟩ := sound.awaiting at_
    have recorded (outcome : Outcome) : (h.recordOutcome outcome).Routed fleet := by
      simp only [Handler.recordOutcome,trail]
      intro session a member
      have each := routed session
      rw [trail] at each
      rcases List.mem_cons.mp member with rfl | earlier
      · exact each b List.mem_cons_self
      · exact each a (List.mem_cons_of_mem b earlier)
    cases judged <;> exact recorded _
  | retry at_ retried => cases retried <;> exact routed
  | respond at_ responded => cases responded <;> exact routed
  | _ => exact routed

theorem ScopeIntegrity.step (integrity : ScopeIntegrity fleet s) (consistent : Consistent fleet s)
    (names : NamesSessionScope fleet s a) (taken : Coordinator.step fleet s a = some t) :
    ScopeIntegrity fleet t := by
  cases step_turn taken with
  | @request i h shared h' _ before moved act =>
    have named : h'.pc ≠ .dropped → h.req.noSession = false → h.NamesItsScope fleet := by
      intro going
      rcases act with ⟨_,dropped⟩ | ⟨event,rfl⟩
      · exact absurd dropped going
      · exact names h before
    have placed := consistent.placed _ _ before
    refine ⟨moved.stored integrity.stored placed named,fun j g here => ?_⟩
    rcases Tasks.getElem?_set_cases before here with ⟨_,rfl⟩ | ⟨_,old⟩
    · exact moved.routed (consistent.sound _ _ before) (integrity.routed _ _ before) placed named
    · exact integrity.routed j g old
  | arrive =>
    refine ⟨integrity.stored,fun j g here => ?_⟩
    rcases Tasks.getElem?_append_cases here with old | ⟨_,rfl⟩
    · exact integrity.routed j g old
    · intro _ a member
      simp [Handler.new] at member
  | background works act =>
    refine ⟨?_,integrity.routed⟩
    rcases works.sessions with same | same
    · exact same ▸ integrity.stored
    · exact same ▸ integrity.stored.cleanup

/-- A request sent again under another scope than its session's breaks the routing, and one
answered under another scope than its worker's is stored under the wrong one. -/
theorem ScopeIntegrity.broken (consistent : Consistent fleet s) (unmet : ¬NamesSessionScope fleet s a)
    (taken : Coordinator.step fleet s a = some t) : ¬ScopeIntegrity fleet t := by
  intro integrity
  cases a with
  | advance i event =>
    simp only [NamesSessionScope,not_forall] at unmet
    obtain ⟨h,here,session,unnamed⟩ := unmet
    obtain ⟨_,shared,h',before,moved,rfl⟩ :=
      take_cases (fun shared h => next shared h event) taken
    obtain rfl := Option.some.inj (here.symm.trans before)
    have bound := (List.getElem?_eq_some_iff.mp here).1
    have routed : h'.Routed fleet := integrity.routed i h' (by simp [bound])
    have placed := consistent.placed i h here
    unfold Handler.NamesItsScope at unnamed
    split at unnamed
    · next target choice at_ =>
      obtain ⟨repeated,unnamed⟩ := not_or.mp unnamed
      simp only [Handler.Placed,at_] at placed
      have scope := (placed.resolve_left fun first => repeated first.1).2
      obtain rfl := next_of_dispatching at_ moved
      obtain ⟨info,found,same⟩ := routed session _ List.mem_cons_self
      exact unnamed ⟨info,found,scope.symm.trans same⟩
    · next target resp at_ =>
      obtain ⟨some_,unnamed⟩ := not_or.mp unnamed
      have responded := next_of_finishing at_ moved
      cases responded with
      | plain metrics code none_ => exact some_ none_
      | session metrics code _ =>
        exact unnamed (integrity.stored _ _ (Function.update_self ..))
    · exact unnamed trivial
  | _ => exact unmet trivial

/-- Sessions keep their scope in a run exactly when every request that continues a session
and is sent to a second pod, or answered with a context, names the scope of its session. -/
theorem scope_integrity_iff (fleet : Fleet) (actions : List Action) :
    (machine fleet).Along (ScopeIntegrity fleet) actions fleet.initial ↔
      (machine fleet).Meets (NamesSessionScope fleet) actions fleet.initial := by
  refine Machine.along_iff_meets (I := Consistent fleet) (J := ScopeIntegrity fleet) ?_ ?_ ?_ ?_ actions
    fleet.initial (Consistent.initial fleet) ?_
  · exact fun s a t consistent taken => consistent.step taken
  · exact fun s _ integrity => integrity
  · exact fun s a t consistent integrity names taken => integrity.step consistent names taken
  · exact fun s a t consistent unmet taken => ScopeIntegrity.broken consistent unmet taken
  · exact ⟨fun _ _ found => (nomatch found),fun i h here => by simp [Fleet.initial] at here⟩

def twoScopes : Fleet := .discovered fun name => if name = "web-0" then "web" else "shop"

def wrongScope : List Action :=
  [.discover [.ready "web-0" "web" 1,.ready "shop-0" "shop" 1],.monitor ["web-0","shop-0"],
    .arrive (.page "web" "")] ++ dispatched 0 ++
    [.advance 0 (.answered ⟨true,200,"",0,"ctx"⟩),.advance 0 .go,.arrive (.page "shop" "web-0:ctx")] ++
    dispatched 1 ++ [.advance 1 (.answered ⟨true,200,"",0,"ctx"⟩),.advance 1 .go]

theorem session_moves_scope : ∃ s info, (machine twoScopes).exec wrongScope twoScopes.initial = some s ∧
    s.shared.sessions "web-0:ctx" = some info ∧ info.sessionId.workerId = "web-0" ∧
    info.scopeName = "shop" ∧ twoScopes.label "web-0" = "web" ∧ ¬ScopeIntegrity twoScopes s := by
  obtain ⟨s,info,ran,found,worker,scope,label⟩ : ∃ s info,
      (machine twoScopes).exec wrongScope twoScopes.initial = some s ∧
      s.shared.sessions "web-0:ctx" = some info ∧ info.sessionId.workerId = "web-0" ∧
      info.scopeName = "shop" ∧ twoScopes.label "web-0" = "web" :=
    ⟨_,_,rfl,rfl,by decide +kernel,by decide +kernel,by decide +kernel⟩
  refine ⟨s,info,ran,found,worker,scope,label,fun integrity => ?_⟩
  have owned : info.scopeName = twoScopes.label info.sessionId.workerId := integrity.stored _ _ found
  rw [scope,worker,label] at owned
  exact absurd owned (by decide)

end BrowserHive.Coordinator
