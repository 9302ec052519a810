import BrowserHive.Coordinator.Local
import BrowserHive.Coordinator.Rounds

/-! What a request of a session is forwarded with. The session is found by the id's text, the
context id is read out of that text again: the two agree because nothing that ends up in an id
holds the separator. -/
namespace BrowserHive.Coordinator

open Transition

def Plain (text : String) : Prop := ':' ∉ text.toList

section Parts

theorem SessionId.fromString_toString {id : SessionId} (worker : Plain id.workerId) (context : Plain id.contextId) :
    SessionId.fromString id.toString = some id := by
  have parts : id.toString.toList.splitOn ':' = [id.workerId.toList,id.contextId.toList] := by
    have text : id.toString.toList = id.workerId.toList ++ ':' :: id.contextId.toList := by
      simp [SessionId.toString]
    rw [text,List.splitOn_append_cons_self_of_not_mem worker,List.splitOn_eq_singleton context]
  simp [SessionId.fromString,parts]

theorem SessionId.toString_fromString {session : String} {id : SessionId}
    (parsed : SessionId.fromString session = some id) : id.toString = session := by
  unfold SessionId.fromString at parsed
  split at parsed
  · next worker context parts =>
    obtain rfl := Option.some.inj parsed
    apply String.toList_inj.mp
    have whole : List.intercalate [':'] (session.toList.splitOn ':') = session.toList := List.intercalate_splitOn ':'
    rw [← whole,parts]
    simp [SessionId.toString]
  · contradiction

theorem SessionId.toString_injective {a b : SessionId} (worker : Plain a.workerId) (context : Plain a.contextId)
    (worker' : Plain b.workerId) (context' : Plain b.contextId) (same : a.toString = b.toString) : a = b := by
  have parsed := SessionId.fromString_toString worker context
  rw [same,SessionId.fromString_toString worker' context'] at parsed
  exact (Option.some.inj parsed).symm

end Parts

/-- No worker that is configured has the separator in its name, whatever the variables hold. -/
theorem new_plain (endpoints endpoint scope : Option String) :
    (LocalWorkerDiscovery.new endpoints endpoint scope).workers.All fun _ w => Plain w.podName := by
  cases endpoints with
  | none =>
    intro name ws found w member
    simp only [LocalWorkerDiscovery.new,Function.update_apply] at found
    split at found
    · obtain rfl := Option.some.inj found
      obtain rfl := List.mem_singleton.mp member
      simp [legacyEndpoint,Plain]
    · cases found
  | some text =>
    intro name ws found w member
    obtain ⟨entry,_,spec,parsed,rfl⟩ := (new_lists text endpoint scope).mp ⟨name,ws,found,member⟩
    unfold parseEndpointSpec at parsed
    split at parsed
    · next scopeName podIp port rest parts =>
      obtain rfl := Option.some.inj parsed
      have listed : scopeName ∈ (Text.trim entry).splitOn ':' := by
        rw [parts]
        exact List.mem_cons_self
      have part : ':' ∉ scopeName := Text.splitOn_parts listed
      simp [EndpointSpec.endpoint,Plain,part]
    · contradiction

/-- The pods discovery lists have no separator in their names, nor has a context a worker
answers with. -/
def ColonFree (_ : State) : Action → Prop
  | .discover pods => ∀ pod ∈ pods, ∀ name ∈ pod.name, Plain name
  | .advance _ (.answered resp) => Plain resp.contextId
  | _ => True

instance : Decidable (Plain text) := inferInstanceAs (Decidable (':' ∉ text.toList))

instance (s : State) : ∀ a, Decidable (ColonFree s a)
  | .discover pods => inferInstanceAs (Decidable (∀ pod ∈ pods, ∀ name ∈ pod.name, Plain name))
  | .advance _ (.answered resp) => inferInstanceAs (Decidable (Plain resp.contextId))
  | .advance _ .go | .advance _ (.fresh _) | .advance _ (.connectFailed _) | .advance _ (.broke _)
  | .advance _ .invalidArgument | .tick _ | .cancel | .arrive _ | .publish | .monitor _ | .cleanup | .drop _ =>
    .isTrue trivial

def Pc.answer : Pc → Option WorkerResponse
  | .retrying _ (.answered resp) .. | .finishing _ (.answered resp) => some resp
  | _ => none

/-- Stored under the text of its id, for a context that has one. -/
def Sessions.Minted (m : Sessions) : Prop := ∀ session info, m session = some info →
  SessionId.fromString session = some info.sessionId ∧ info.sessionId.contextId ≠ ""

section Minted

variable {m m' : Sessions} {session : String} {info : SessionInfo}

theorem Sessions.Minted.removeSession (minted : m.Minted) : (m.removeSession session).Minted := by
  intro other info found
  rw [Sessions.removeSession,Function.update_apply] at found
  split at found
  · contradiction
  · exact minted other info found

theorem Sessions.Minted.getSession (minted : m.Minted) (got : m.getSession now session = some (info,m')) :
    SessionId.fromString session = some info.sessionId ∧ info.sessionId.contextId ≠ "" ∧ m'.Minted := by
  obtain ⟨old,there,same⟩ := Option.map_eq_some_iff.mp got
  obtain ⟨rfl,rfl⟩ := Prod.mk.inj same
  obtain ⟨parsed,some_⟩ := minted session old there
  refine ⟨parsed,some_,fun other info found => ?_⟩
  rw [Function.update_apply] at found
  split at found
  · next named =>
    obtain rfl := Option.some.inj found
    exact named ▸ ⟨parsed,some_⟩
  · exact minted other info found

/-- Only an answer with a context is stored, under the id the client is told. -/
theorem Sessions.Minted.createSession (minted : m.Minted) (worker : Plain workerId) (context : Plain contextId)
    (some_ : contextId ≠ "") : (m.createSession now scopeName workerId contextId endpoint).2.Minted := by
  intro other info found
  simp only [Sessions.createSession,Function.update_apply] at found
  split at found
  · next named =>
    obtain rfl := Option.some.inj found
    exact ⟨named ▸ SessionId.fromString_toString worker context,some_⟩
  · exact minted other info found

theorem Sessions.Minted.cleanup (minted : m.Minted) : (m.cleanup now ttl).Minted := by
  intro session info found
  exact minted session info (Option.mem_filter_iff.mp found).1

end Minted

def Handler.Found (h : Handler) : Prop := h.req.noSession = false →
  ∃ info, h.session = some info ∧ SessionId.fromString h.req.sessionId = some info.sessionId ∧
    info.sessionId.contextId ≠ ""

/-- The worker of the session, under the address it was stored with. -/
def Handler.Owner (h : Handler) (target : Target) : Prop := h.req.noSession = false →
  ∀ info, h.session = some info → target = ⟨info.sessionId.workerId,info.workerEndpoint⟩

/-- What a request has to do with its session from the lookup on; its first attempt goes to
the session's worker. -/
def Handler.Continues (h : Handler) : Prop :=
  match h.pc with
  | .arrived | .looking | .routing => h.attempt = 0
  | .refreshing target => Plain target.workerId ∧ h.req.noSession = true ∧ h.attempt = 0
  | .dispatching target _ => Plain target.workerId ∧ h.Found ∧ (h.attempt = 0 → h.Owner target)
  | .connecting target => Plain target.workerId ∧ h.Found ∧ 0 < h.attempt ∧ (h.attempt = 1 → h.Owner target)
  | .calling target forwarded => Plain target.workerId ∧ h.Found ∧ 0 < h.attempt ∧
      (h.attempt = 1 → h.Owner target) ∧ forwarded.contextId = h.contextId
  | .retrying target .. => Plain target.workerId ∧ h.Found ∧ 0 < h.attempt
  | .finishing target _ => Plain target.workerId
  | _ => True

section Move

variable {c c' : Shared} {h h' : Handler}

theorem Handler.Continues.bound (continues : h.Continues)
    (at_ : h.pc = .connecting target ∨ ∃ forwarded, h.pc = .calling target forwarded) :
    Plain target.workerId ∧ h.Found ∧ 0 < h.attempt := by
  rcases at_ with at_ | ⟨forwarded,at_⟩
  · simp only [Handler.Continues,at_] at continues
    exact ⟨continues.1,continues.2.1,continues.2.2.1⟩
  · simp only [Handler.Continues,at_] at continues
    exact ⟨continues.1,continues.2.1,continues.2.2.1⟩

theorem Handler.Continues.move (continues : h.Continues) (listed : c.routable.All fun _ w => Plain w.podName)
    (stored : c.sessions.Minted) (moved : Move c h (c',h')) : h'.Continues := by
  cases moved with
  | forget | miss | refuse | invalid | drop | unreachable => trivial
  | accept at_ | look at_ =>
    simp only [Handler.Continues,at_] at continues
    exact continues
  | @found info sessions ws w at_ session got found member same =>
    simp only [Handler.Continues,at_] at continues
    obtain ⟨parsed,some_,_⟩ := stored.getSession got
    refine ⟨same ▸ listed _ ws found w member,fun _ => ⟨_,rfl,parsed,some_⟩,fun _ _ info held => ?_⟩
    exact Option.some.inj held ▸ rfl
  | select at_ new found selected full =>
    simp only [Handler.Continues,at_] at continues
    have plain := listed _ _ found _ (selectBestWorker_mem selected)
    rcases full with ⟨rfl,_⟩ | ⟨rfl,_⟩
    · exact ⟨plain,new,continues⟩
    · refine ⟨plain,fun session => ?_,fun _ session => ?_⟩
      · exact absurd (new.symm.trans session) nofun
      · exact absurd (new.symm.trans session) nofun
  | confirm at_ =>
    simp only [Handler.Continues,at_] at continues
    obtain ⟨plain,new,_⟩ := continues
    refine ⟨plain,fun session => ?_,fun _ session => ?_⟩
    · exact absurd (new.symm.trans session) nofun
    · exact absurd (new.symm.trans session) nofun
  | dispatch at_ =>
    simp only [Handler.Continues,at_] at continues
    obtain ⟨plain,found,first⟩ := continues
    exact ⟨plain,found,Nat.succ_pos _,fun one => first (Nat.succ.inj one)⟩
  | connect at_ context =>
    simp only [Handler.Continues,at_] at continues
    obtain ⟨plain,found,tried,first⟩ := continues
    exact ⟨plain,found,tried,first,context⟩
  | judge at_ judged =>
    obtain ⟨plain,found,tried⟩ := continues.bound at_
    cases judged with
    | break_ => exact plain
    | another => exact ⟨plain,by simpa [Handler.Found] using found,by simpa using tried⟩
  | retry at_ retried =>
    simp only [Handler.Continues,at_] at continues
    obtain ⟨plain,found,tried⟩ := continues
    cases retried with
    | break_ same => exact plain
    | again there member =>
      exact ⟨listed _ _ there _ member,found,fun none_ => absurd none_ (Nat.ne_of_gt tried)⟩
  | respond at_ responded => cases responded <;> trivial

theorem Move.minted (moved : Move c h (c',h')) (stored : c.sessions.Minted) (continues : h.Continues)
    (answered : ∀ resp, h.pc.answer = some resp → Plain resp.contextId) : c'.sessions.Minted := by
  have stores := moved.stores
  generalize c'.sessions = sessions at *
  cases stores with
  | kept => exact stored
  | used got => exact (stored.getSession got).2.2
  | removed session => exact stored.removeSession
  | @created target resp at_ lives some_ =>
    simp only [Handler.Continues,at_] at continues
    exact stored.createSession continues (answered resp (by rw [at_]; rfl)) some_

/-- An answer comes from the worker, at this step or before. -/
theorem judge_answer (c : Shared) (h : Handler) (target : Target) (outcome : Outcome) :
    (judge c h target outcome).2.pc.answer = match outcome with
      | .answered resp => some resp
      | .unreachable _ => none := by
  have judged := judge_cases c h target outcome
  generalize judge c h target outcome = r at judged
  cases judged <;> cases outcome <;> rfl

theorem attempt_answer {r : Shared × Handler} (moved : attemptNext c h event = some r)
    (answer : r.2.pc.answer = some resp) : h.pc.answer = some resp ∨ event = .answered resp := by
  unfold attemptNext at moved
  split at moved
  · obtain rfl := Option.some.inj moved
    contradiction
  · obtain rfl := Option.some.inj moved
    rw [judge_answer] at answer
    contradiction
  · obtain rfl := Option.some.inj moved
    contradiction
  · obtain rfl := Option.some.inj moved
    rw [judge_answer] at answer
    exact .inr (congrArg Event.answered (Option.some.inj answer))
  · obtain rfl := Option.some.inj moved
    rw [judge_answer] at answer
    contradiction
  · obtain rfl := Option.some.inj moved
    contradiction
  · next target outcome plan remaining at_ =>
    obtain rfl := Option.some.inj moved
    have retried := retry_cases c h target outcome remaining
    generalize retry c h target outcome remaining = r at retried answer
    cases retried with
    | break_ => exact .inl (by rw [at_]; cases outcome <;> exact answer)
    | again => contradiction
  · contradiction

theorem next_answer {r : Shared × Handler} (moved : next c h event = some r) (answer : r.2.pc.answer = some resp) :
    h.pc.answer = some resp ∨ event = .answered resp := by
  unfold next at moved
  split at moved
  · exact attempt_answer moved answer
  · exact attempt_answer moved answer
  · exact attempt_answer moved answer
  · exact attempt_answer moved answer
  · unfold finishNext at moved
    split at moved
    · obtain rfl := Option.some.inj moved
      contradiction
    · next target resp at_ =>
      obtain rfl := Option.some.inj moved
      have responded := respond_cases c h target resp
      generalize respond c h target resp = r at responded answer
      cases responded <;> contradiction
    · contradiction
  · next dispatching connecting calling retrying finishing =>
    cases route_move moved with
    | select _ _ _ _ full => rcases full with ⟨rfl,_⟩ | ⟨rfl,_⟩ <;> contradiction
    | judge at_ => exact at_.elim (fun at_ => (connecting _ at_).elim) fun ⟨_,at_⟩ => (calling _ _ at_).elim
    | retry at_ => exact (retrying _ _ _ _ at_).elim
    | respond at_ => exact (finishing _ _ at_).elim
    | refuse | found | forget | miss | accept | look | confirm | dispatch | connect | invalid | unreachable | drop =>
      contradiction

/-- What every run keeps, as long as no separator comes from outside. -/
structure Continuous (s : State) : Prop where
  listed : s.shared.routable.All fun _ w => Plain w.podName
  minted : s.shared.sessions.Minted
  continues : ∀ (i : Nat) (h : Handler), s.handlers[i]? = some h → h.Continues
  answered : ∀ (i : Nat) (h : Handler) (resp : WorkerResponse), s.handlers[i]? = some h → h.pc.answer = some resp →
    Plain resp.contextId

theorem Continuous.step {fleet : Fleet} {s t : State} (continuous : Continuous s) (free : ColonFree s a)
    (taken : openStep fleet s a = some t) : Continuous t := by
  have request {i : Nat} {h h' : Handler} {shared : Shared} (here : s.handlers[i]? = some h)
      (moved : Move s.shared h (shared,h'))
      (told : ∀ resp, h'.pc.answer = some resp → Plain resp.contextId) : Continuous ⟨shared,s.handlers.set i h'⟩ := by
    have continues := continuous.continues i h here
    refine ⟨moved.frame.routable ▸ continuous.listed,
      moved.minted continuous.minted continues fun resp => continuous.answered i h resp here,fun j g there => ?_,
      fun j g resp there answer => ?_⟩
    · rcases Tasks.getElem?_set_cases here there with ⟨_,rfl⟩ | ⟨_,old⟩
      · exact continues.move continuous.listed continuous.minted moved
      · exact continuous.continues j g old
    · rcases Tasks.getElem?_set_cases here there with ⟨_,rfl⟩ | ⟨_,old⟩
      · exact told resp answer
      · exact continuous.answered j g resp old answer
  cases a with
  | advance i event =>
    obtain ⟨h,shared,h',here,moved,rfl⟩ := take_cases (fun shared h => next shared h event) taken
    refine request here (next_move moved) fun resp answer => ?_
    rcases next_answer moved answer with held | rfl
    · exact continuous.answered i h resp here held
    · exact free
  | drop i =>
    obtain ⟨h,shared,h',here,moved,rfl⟩ := take_cases _ taken
    refine request here (drop_move moved) fun resp answer => ?_
    unfold dropNext at moved
    split at moved
    · cases moved
      contradiction
    · contradiction
  | discover pods =>
    rcases openStep_cases taken with ⟨_,⟨⟩,rfl⟩ | ⟨other,_⟩
    · exact ⟨discoverWorkers_routable fun pod member w _ name _ _ => free pod member _ name,continuous.minted,
        continuous.continues,continuous.answered⟩
    · exact absurd rfl (other pods)
  | arrive req =>
    obtain rfl := Option.some.inj taken
    refine ⟨continuous.listed,continuous.minted,fun j g there => ?_,fun j g resp there answer => ?_⟩
    · rcases Tasks.getElem?_append_cases there with old | ⟨_,rfl⟩
      · exact continuous.continues j g old
      · rfl
    · rcases Tasks.getElem?_append_cases there with old | ⟨_,rfl⟩
      · exact continuous.answered j g resp old answer
      · contradiction
  | publish =>
    obtain ⟨presences,_,rfl⟩ := Option.map_eq_some_iff.mp taken
    exact ⟨continuous.listed,continuous.minted,continuous.continues,continuous.answered⟩
  | cleanup =>
    obtain rfl := Option.some.inj taken
    exact ⟨continuous.listed,continuous.minted.cleanup,continuous.continues,continuous.answered⟩
  | tick | cancel | monitor =>
    obtain rfl := Option.some.inj taken
    exact ⟨continuous.listed,continuous.minted,continuous.continues,continuous.answered⟩

end Move

/-- The fleets a coordinator is started with: Kubernetes, or the environment's workers. -/
def Fleet.Deployed (fleet : Fleet) : Prop :=
  (∃ label, fleet = .discovered label) ∨ ∃ endpoints endpoint scope, fleet = LocalWorkerDiscovery.fleet endpoints endpoint scope

theorem Fleet.Deployed.plain {fleet : Fleet} (deployed : fleet.Deployed) :
    fleet.configured.All fun _ w => Plain w.podName := by
  rcases deployed with ⟨label,rfl⟩ | ⟨endpoints,endpoint,scope,rfl⟩
  · exact fun _ _ found => nomatch found
  · exact new_plain endpoints endpoint scope

theorem runs_continuous {fleet : Fleet} (deployed : fleet.Deployed) (run : (openMachine fleet).Reach ColonFree s) :
    Continuous s := by
  refine Machine.Reach.invariant ⟨deployed.plain,?_,?_,?_⟩
    (fun s a t _ continuous free taken => continuous.step free taken) run
  · exact fun _ _ found => nomatch found
  · exact fun i h here => by simp [openMachine,Fleet.initial] at here
  · exact fun i h resp here => by simp [openMachine,Fleet.initial] at here

/-- Session ids are read back as they were written, whatever worker discovery names and a
context without the separator. So every attempt for a session is forwarded with the context of
the session that was found, the first of them to the worker it was stored with. -/
theorem continuation_keeps_context :
    (∀ id : SessionId, Plain id.workerId → Plain id.contextId → SessionId.fromString id.toString = some id) ∧
    (∀ a b : SessionId, Plain a.workerId → Plain a.contextId → Plain b.workerId → Plain b.contextId →
      a.toString = b.toString → a = b) ∧
    (∀ session id, SessionId.fromString session = some id → id.toString = session) ∧
    (∀ endpoints endpoint scope w, (LocalWorkerDiscovery.new endpoints endpoint scope).Lists w → Plain w.podName) ∧
    ∀ fleet : Fleet, fleet.Deployed → ∀ s, (openMachine fleet).Reach ColonFree s →
      ∀ (i : Nat) (h : Handler) target forwarded, s.handlers[i]? = some h → h.req.noSession = false →
        h.pc = .calling target forwarded →
        ∃ info, h.session = some info ∧ info.sessionId.toString = h.req.sessionId ∧
          forwarded.contextId = info.sessionId.contextId ∧ forwarded.contextId ≠ "" ∧
          (h.attempt = 1 → target = ⟨info.sessionId.workerId,info.workerEndpoint⟩) := by
  refine ⟨fun id => SessionId.fromString_toString,fun a b => SessionId.toString_injective,
    fun session id => SessionId.toString_fromString,?_,?_⟩
  · rintro endpoints endpoint scope w ⟨name,ws,found,member⟩
    exact new_plain endpoints endpoint scope name ws found w member
  · intro fleet deployed s run i h target forwarded here session at_
    have continues := (runs_continuous deployed run).continues i h here
    simp only [Handler.Continues,at_] at continues
    obtain ⟨_,found,_,first,context⟩ := continues
    obtain ⟨info,held,parsed,some_⟩ := found session
    have read : forwarded.contextId = info.sessionId.contextId := by
      rw [context,Handler.contextId,session,parsed]
      rfl
    exact ⟨info,held,SessionId.toString_fromString parsed,read,read ▸ some_,fun one => first one session info held⟩

def continued : List Action :=
  [.discover [.ready "web-0" "web" 2],.monitor ["web-0"],.arrive (.page "web" "")] ++ dispatched 0 ++
    [.advance 0 (.answered ⟨true,200,"",0,"ctx"⟩),.advance 0 .go,.arrive (.page "web" "web-0:ctx")] ++ dispatched 1

theorem continuation_keeps_context_once : ∃ s h target forwarded,
    (openMachine (.discovered id)).exec continued (openMachine (.discovered id)).initial = some s ∧
    s.handlers[1]? = some h ∧ h.pc = .calling target forwarded ∧
    ∃ info, h.session = some info ∧ forwarded.contextId = info.sessionId.contextId ∧ forwarded.contextId ≠ "" := by
  obtain ⟨s,h,target,forwarded,ran,here,at_,session⟩ : ∃ s h target forwarded,
      (openMachine (.discovered id)).exec continued (openMachine (.discovered id)).initial = some s ∧
      s.handlers[1]? = some h ∧ h.pc = .calling target forwarded ∧ h.req.noSession = false :=
    ⟨_,_,_,_,rfl,rfl,rfl,by decide +kernel⟩
  have meets : (openMachine (.discovered id)).Meets ColonFree continued (openMachine (.discovered id)).initial := by
    decide +kernel
  obtain ⟨info,held,_,context,some_,_⟩ := continuation_keeps_context.2.2.2.2 (.discovered id) (.inl ⟨id,rfl⟩) s
    (Machine.Reach.exec_meets .initial ran meets) 1 h target forwarded here session at_
  exact ⟨s,h,target,forwarded,ran,here,at_,info,held,context,some_⟩

end BrowserHive.Coordinator
