import BrowserHive.Lib.Tasks
import BrowserHive.Coordinator.Machine

/-! Everything a request can do in one step, by kind, and everything an action can do to
the coordinator. The invariants of the coordinator are read off these. -/
namespace BrowserHive.Coordinator

open Transition

/-- A request refused before the retry loop, from the state its refusal leaves. -/
inductive Refusal (s : Shared) (h : Handler) : Shared → RejectReason → ErrorCode → String → Prop where
  | terminating (at_ : h.pc = .arrived) (cancelled : s.cancelled = true) :
      Refusal s h s .terminating .terminating "Coordinator is shutting down, please retry"
  | unknown (at_ : h.pc = .routing) (session : h.req.noSession = false)
      (lost : s.sessions h.req.sessionId = none) :
      Refusal s h s .sessionNotFound .sessionNotFound "Session not found or expired"
  | forgotten (at_ : h.pc = .forgetting) :
      Refusal s h { s with sessions := s.sessions.removeSession h.req.sessionId }
        .sessionNotFound .sessionNotFound
        "Session expired or worker unavailable. Please retry without session_id"
  | missing (at_ : h.pc = .missing)
      (classified : classifyMissingScope h.req.scopeName (s.presences h.req.scopeName) = (reason,code,message)) :
      Refusal s h s reason code message
  | noWorkers (at_ : h.pc = .routing) (new : h.req.noSession = true)
      (listed : s.routable h.req.scopeName = some []) :
      Refusal s h s .noWorkers .noWorkersAvailable ("No workers available for scope: " ++ h.req.scopeName)
  | unselected (at_ : h.pc = .routing) (new : h.req.noSession = true)
      (listed : s.routable h.req.scopeName = some ws)
      (none_ : selectBestWorker ws s.healthy s.freeSlots s.rotation = none) :
      Refusal s h s.rotate .noWorkers .noWorkersAvailable
        ("No available workers for scope: " ++ h.req.scopeName)
  | noSlots (at_ : h.pc = .refreshing target) :
      Refusal s h s .noSlots .noWorkersAvailable
        ("No available slots in scope: " ++ h.req.scopeName ++ ". All workers are busy.")

/-- What follows an attempt: the loop is left, or the plan allows another one. -/
inductive Judged (s : Shared) (h : Handler) (target : Target) (outcome : Outcome) :
    Shared × Handler → Prop where
  | break_ (excluded : List String) :
      Judged s h target outcome (s.release h,
        { h.recordOutcome outcome with excluded := excluded, pc := .finishing target outcome })
  | another (planned : outcome.plan h.req.noSession = some plan) (left : h.attempt < plan.maxAttempts)
      (time : minRetryTimeRemaining ≤ h.requestDeadline - s.now) :
      Judged s h target outcome (s,
        { h.recordOutcome outcome with
          excluded := target.workerId :: h.excluded
          pc := .retrying target outcome plan (h.requestDeadline - s.now) })

inductive Retried (s : Shared) (h : Handler) (target : Target) (outcome : Outcome) (remaining : Nat) :
    Shared × Handler → Prop where
  | break_ (same : from_ = s ∨ from_ = s.rotate) :
      Retried s h target outcome remaining (breakWith from_ h target outcome)
  | again (listed : s.routable h.req.scopeName = some ws) (member : w ∈ ws)
      (healthy : w.podName ∈ s.healthy) (untried : w.podName ∉ h.excluded)
      (free : 0 < freeSlots) (slots : freeSlots = s.freeSlots w) :
      Retried s h target outcome remaining ((s.rotate.release h).sample h.metrics.scope,
        h.goto (.dispatching w.target (.retry remaining true freeSlots)))

inductive Responded (s : Shared) (h : Handler) (target : Target) (resp : WorkerResponse) :
    Shared × Handler → Prop where
  | plain (metrics : RequestMetrics) (code : errorCode ≠ capacityExhausted) (none_ : resp.contextId = "") :
      Responded s h target resp (leave s { h with metrics := metrics }
        (.responded ⟨resp.success,resp.statusCode,message,errorCode,"",target.workerId,resp.contextId⟩))
  | session (metrics : RequestMetrics) (code : errorCode ≠ capacityExhausted) (some_ : resp.contextId ≠ "") :
      Responded s h target resp (leave
        { s with sessions := (s.sessions.createSession s.now h.req.scopeName target.workerId
            resp.contextId target.endpoint).2 } { h with metrics := metrics }
        (.responded ⟨resp.success,resp.statusCode,message,errorCode,
          (SessionId.mk target.workerId resp.contextId).toString,target.workerId,resp.contextId⟩))

/-- What one step of a request can do, a drop of its future included. -/
inductive Move (s : Shared) (h : Handler) : Shared × Handler → Prop where
  | accept (at_ : h.pc = .arrived) (serving : s.cancelled = false) : Move s h (s,h.goto .looking)
  | look (at_ : h.pc = .looking) : Move s h (s,h.goto .routing)
  | refuse (why : Refusal s h s' reason code message) : Move s h (refuse s' h reason code message "")
  | found (at_ : h.pc = .routing) (session : h.req.noSession = false)
      (stored : s.sessions.getSession s.now h.req.sessionId = some (info,sessions))
      (listed : s.routable info.scopeName = some ws) (member : w ∈ ws)
      (same : w.podName = info.sessionId.workerId) :
      Move s h ({ s with sessions := sessions },{ h with
        metrics := h.metrics.setScope info.scopeName
        session := some info
        pc := .dispatching ⟨info.sessionId.workerId,info.workerEndpoint⟩ .session })
  | forget (at_ : h.pc = .routing) (session : h.req.noSession = false)
      (stored : s.sessions.getSession s.now h.req.sessionId = some (info,sessions)) :
      Move s h ({ s with sessions := sessions },{ h with
        metrics := h.metrics.setScope info.scopeName
        session := some info
        pc := .forgetting })
  | miss (at_ : h.pc = .routing) (new : h.req.noSession = true)
      (unlisted : s.routable h.req.scopeName = none) : Move s h (s,h.goto .missing)
  | select (at_ : h.pc = .routing) (new : h.req.noSession = true)
      (listed : s.routable h.req.scopeName = some ws)
      (selected : selectBestWorker ws s.healthy s.freeSlots s.rotation = some best)
      (full : pc = .refreshing best.worker.target ∧ best.freeSlots = 0 ∨
        pc = .dispatching best.worker.target .routed ∧ best.freeSlots ≠ 0) :
      Move s h (s.rotate,h.goto pc)
  | confirm (at_ : h.pc = .refreshing target) : Move s h (s,h.goto (.dispatching target .routed))
  | dispatch (at_ : h.pc = .dispatching target choice) :
      Move s h (if h.req.noSession then { s with inFlight := s.inFlight.start target.workerId } else s,
        { h with
          attempt := h.attempt + 1
          trail := ⟨target.workerId,choice,none⟩ :: h.trail
          pc := .connecting target })
  | connect (at_ : h.pc = .connecting target) (context : forwarded.contextId = h.contextId) :
      Move s h (s,h.goto (.calling target forwarded))
  | judge (at_ : h.pc = .connecting target ∨ ∃ forwarded, h.pc = .calling target forwarded)
      (judged : Judged s h target outcome r) : Move s h r
  | invalid (at_ : h.pc = .calling target forwarded) : Move s h (leave (s.release h) h .refused)
  | retry (at_ : h.pc = .retrying target outcome plan remaining)
      (retried : Retried s h target outcome remaining r) : Move s h r
  | unreachable (at_ : h.pc = .finishing target (.unreachable message)) :
      Move s h (refuse s h .workerUnreachable .workerUnreachable message target.workerId)
  | respond (at_ : h.pc = .finishing target (.answered resp))
      (responded : Responded s h target resp r) : Move s h r
  | drop (at_ : h.pc.suspends = true) : Move s h (leave (s.release h) h .dropped)

structure Background (fleet : Fleet) (s t : Shared) : Prop where
  inFlight : t.inFlight = s.inFlight
  samples : t.samples = s.samples
  rotation : t.rotation = s.rotation
  sessions : t.sessions = s.sessions ∨ t.sessions = s.sessions.cleanup s.now sessionTtl
  routable : t.routable = s.routable ∨
    ∃ pods, (∀ pod ∈ pods, fleet.lists pod = true) ∧ t.routable = (discoverWorkers pods).1

section Handler

variable {s : Shared} {h : Handler}

@[simp] theorem Handler.recordOutcome_req (h : Handler) : (h.recordOutcome outcome).req = h.req := by
  unfold Handler.recordOutcome; split <;> rfl

@[simp] theorem Handler.recordOutcome_pc (h : Handler) : (h.recordOutcome outcome).pc = h.pc := by
  unfold Handler.recordOutcome; split <;> rfl

@[simp] theorem Handler.recordOutcome_attempt (h : Handler) :
    (h.recordOutcome outcome).attempt = h.attempt := by
  unfold Handler.recordOutcome; split <;> rfl

@[simp] theorem Handler.recordOutcome_excluded (h : Handler) (outcome : Outcome) :
    (h.recordOutcome outcome).excluded = h.excluded := by
  unfold Handler.recordOutcome; split <;> rfl

@[simp] theorem Handler.recordOutcome_session (h : Handler) :
    (h.recordOutcome outcome).session = h.session := by
  unfold Handler.recordOutcome; split <;> rfl

@[simp] theorem Handler.recordOutcome_startTime (h : Handler) :
    (h.recordOutcome outcome).startTime = h.startTime := by
  unfold Handler.recordOutcome; split <;> rfl

/-- What was recorded of an attempt does not change what its guard counts. -/
theorem Shared.release_recorded (s : Shared) (h : Handler) (outcome : Outcome) (excluded : List String) :
    s.release { h.recordOutcome outcome with excluded := excluded } = s.release h := by
  simp [release,Handler.occupies]

theorem judge_cases (s : Shared) (h : Handler) (target : Target) (outcome : Outcome) :
    Judged s h target outcome (judge s h target outcome) := by
  unfold judge
  simp only [Handler.recordOutcome_req]
  split
  · have left : Judged s h target outcome _ := .break_ h.excluded
    rwa [← Shared.release_recorded s h outcome h.excluded,
      ← Handler.recordOutcome_excluded h outcome] at left
  · next plan planned =>
    have left : Judged s h target outcome _ := .break_ (target.workerId :: h.excluded)
    rw [← Shared.release_recorded s h outcome (target.workerId :: h.excluded)] at left
    split
    · simpa [breakWith,Handler.goto] using left
    · next time =>
      split
      · simpa [breakWith,Handler.goto] using left
      · next attempts =>
        have enough : minRetryTimeRemaining ≤ h.requestDeadline - s.now := by
          simpa [Handler.requestDeadline] using time
        have another : Judged s h target outcome _ := .another planned
          (Nat.lt_of_not_le (by simpa using attempts)) enough
        simpa [Handler.goto,Handler.requestDeadline] using another

theorem retry_cases (s : Shared) (h : Handler) (target : Target) (outcome : Outcome) (remaining : Nat) :
    Retried s h target outcome remaining (retry s h target outcome remaining) := by
  unfold retry
  split
  · exact .break_ (.inl rfl)
  · next ws listed =>
    simp only
    split
    · exact .break_ (.inr rfl)
    · next best freeSlots picked =>
      split
      · exact .break_ (.inr rfl)
      · next free =>
        obtain ⟨member,slots⟩ := pickMostFree_mem picked
        obtain ⟨member,eligible⟩ := List.mem_filter.mp member
        obtain ⟨healthy,tried⟩ := by simpa using eligible
        simp only [healthy,decide_true]
        exact .again listed member healthy tried (Nat.pos_of_ne_zero free) slots

theorem respond_cases (s : Shared) (h : Handler) (target : Target) (resp : WorkerResponse) :
    Responded s h target resp (respond s h target resp) := by
  by_cases full : resp.errorCode = capacityExhausted
  · have code : ErrorCode.noWorkersAvailable.code ≠ capacityExhausted := by decide
    simp only [respond,translate,full,if_true]
    split
    · next none_ => exact .plain _ code none_
    · next some_ => exact .session _ code some_
  · simp only [respond,translate,full,if_false]
    split
    · next none_ => exact .plain h.metrics full none_
    · next some_ => exact .session h.metrics full some_

theorem routeSession_move (at_ : h.pc = .routing) (session : h.req.noSession = false) :
    Move s h (routeSession s h) := by
  unfold routeSession
  cases stored : s.sessions.getSession s.now h.req.sessionId with
  | none => exact .refuse (.unknown at_ session (Option.map_eq_none_iff.mp stored))
  | some entry =>
    obtain ⟨info,sessions⟩ := entry
    simp only
    split
    · next listed =>
      obtain ⟨w,member,same⟩ := List.any_eq_true.mp listed
      cases routable : s.routable info.scopeName with
      | none => simp [routable] at member
      | some ws =>
        exact .found at_ session stored routable (by simpa [routable] using member) (by simpa using same)
    · exact .forget at_ session stored

theorem routeNew_move (at_ : h.pc = .routing) (new : h.req.noSession = true) : Move s h (routeNew s h) := by
  unfold routeNew
  cases listed : s.routable h.req.scopeName with
  | none => exact .miss at_ new listed
  | some ws =>
    simp only
    split
    · next empty => exact .refuse (.noWorkers at_ new (by simpa [List.isEmpty_iff.mp empty] using listed))
    · cases selected : selectBestWorker ws s.healthy s.freeSlots s.rotation with
      | none => exact .refuse (.unselected at_ new listed selected)
      | some best =>
        simp only
        split
        · next full => exact .select at_ new listed selected (.inl ⟨rfl,full⟩)
        · next free => exact .select at_ new listed selected (.inr ⟨rfl,free⟩)

theorem route_move {r : Shared × Handler} (moved : routeNext s h event = some r) : Move s h r := by
  unfold routeNext at moved
  split at moved
  · next at_ =>
    split at moved
    · next cancelled => exact Option.some.inj moved ▸ .refuse (.terminating at_ cancelled)
    · next serving => exact Option.some.inj moved ▸ .accept at_ (by simpa using serving)
  · next at_ => exact Option.some.inj moved ▸ .look at_
  · next at_ =>
    split at moved
    · next new => exact Option.some.inj moved ▸ routeNew_move at_ new
    · next session => exact Option.some.inj moved ▸ routeSession_move at_ (by simpa using session)
  · next at_ => exact Option.some.inj moved ▸ .refuse (.forgotten at_)
  · next at_ => exact Option.some.inj moved ▸ .refuse (.missing at_ rfl)
  · next target slots at_ =>
    split at moved
    · exact Option.some.inj moved ▸ .confirm at_
    · exact Option.some.inj moved ▸ .refuse (.noSlots at_)
  · contradiction

theorem attempt_move {r : Shared × Handler} (moved : attemptNext s h event = some r) : Move s h r := by
  unfold attemptNext at moved
  split at moved
  · next at_ => exact Option.some.inj moved ▸ .dispatch at_
  · next at_ => exact Option.some.inj moved ▸ .judge (.inl at_) (judge_cases ..)
  · next at_ => exact Option.some.inj moved ▸ .connect at_ rfl
  · next at_ => exact Option.some.inj moved ▸ .judge (.inr ⟨_,at_⟩) (judge_cases ..)
  · next at_ => exact Option.some.inj moved ▸ .judge (.inr ⟨_,at_⟩) (judge_cases ..)
  · next at_ => exact Option.some.inj moved ▸ .invalid at_
  · next at_ => exact Option.some.inj moved ▸ .retry at_ (retry_cases ..)
  · contradiction

theorem next_move {r : Shared × Handler} (moved : next s h event = some r) : Move s h r := by
  unfold next at moved
  split at moved
  · exact attempt_move moved
  · exact attempt_move moved
  · exact attempt_move moved
  · exact attempt_move moved
  · unfold finishNext at moved
    split at moved
    · next at_ => exact Option.some.inj moved ▸ .unreachable at_
    · next at_ => exact Option.some.inj moved ▸ .respond at_ (respond_cases ..)
    · contradiction
  · exact route_move moved

/-- From the head of the loop there is only the next attempt. -/
theorem next_of_dispatching {r : Shared × Handler} (at_ : h.pc = .dispatching target choice)
    (moved : next s h event = some r) : r.2 = { h with
      attempt := h.attempt + 1
      trail := ⟨target.workerId,choice,none⟩ :: h.trail
      pc := .connecting target } := by
  simp only [next,at_,attemptNext] at moved
  cases event with
  | go => exact Option.some.inj moved ▸ rfl
  | _ => contradiction

/-- After an answer there is only the response. -/
theorem next_of_finishing {r : Shared × Handler} (at_ : h.pc = .finishing target (.answered resp))
    (moved : next s h event = some r) : Responded s h target resp r := by
  simp only [next,at_,finishNext] at moved
  cases event with
  | go => exact Option.some.inj moved ▸ respond_cases s h target resp
  | _ => contradiction

theorem drop_move {r : Shared × Handler} (moved : dropNext s h = some r) : Move s h r := by
  unfold dropNext at moved
  split at moved
  · next suspends => exact Option.some.inj moved ▸ .drop suspends
  · contradiction

end Handler

inductive Turn (fleet : Fleet) (s : State) : Action → State → Prop where
  | request (here : s.handlers[i]? = some h) (moved : Move s.shared h (shared,h'))
      (act : a = .drop i ∧ h'.pc = .dropped ∨ ∃ event, a = .advance i event) :
      Turn fleet s a ⟨shared,s.handlers.set i h'⟩
  | arrive : Turn fleet s (.arrive req) { s with handlers := s.handlers ++ [.new req s.shared.now] }
  | background (works : Background fleet s.shared shared)
      (act : (∀ i event, a ≠ .advance i event) ∧ (∀ i, a ≠ .drop i) ∧ ∀ req, a ≠ .arrive req) :
      Turn fleet s a { s with shared := shared }

theorem take_cases {s : State} (act : Shared → Handler → Option (Shared × Handler))
    (taken : s.take i act = some t) : ∃ h shared h', s.handlers[i]? = some h ∧
      act s.shared h = some (shared,h') ∧ t = ⟨shared,s.handlers.set i h'⟩ := by
  simp only [State.take,Option.bind_eq_bind,Option.bind_eq_some_iff] at taken
  obtain ⟨h,here,⟨shared,h'⟩,moved,same⟩ := taken
  exact ⟨h,shared,h',here,moved,(Option.some.inj same).symm⟩

theorem step_turn (taken : step fleet s a = some t) : Turn fleet s a t := by
  cases a with
  | tick elapsed =>
    exact Option.some.inj taken ▸ .background ⟨rfl,rfl,rfl,.inl rfl,.inl rfl⟩ (by simp)
  | cancel => exact Option.some.inj taken ▸ .background ⟨rfl,rfl,rfl,.inl rfl,.inl rfl⟩ (by simp)
  | arrive req => exact Option.some.inj taken ▸ .arrive
  | discover pods =>
    simp only [step] at taken
    split at taken
    · next round =>
      have listed := List.all_eq_true.mp round.2.1
      exact Option.some.inj taken ▸
        .background ⟨rfl,rfl,rfl,.inl rfl,.inr ⟨pods,listed,rfl⟩⟩ (by simp)
    · contradiction
  | publish =>
    obtain ⟨presences,found,rfl⟩ := Option.map_eq_some_iff.mp taken
    exact .background ⟨rfl,rfl,rfl,.inl rfl,.inl rfl⟩ (by simp)
  | monitor healthy =>
    exact Option.some.inj taken ▸ .background ⟨rfl,rfl,rfl,.inl rfl,.inl rfl⟩ (by simp)
  | cleanup => exact Option.some.inj taken ▸ .background ⟨rfl,rfl,rfl,.inr rfl,.inl rfl⟩ (by simp)
  | advance i event =>
    obtain ⟨h,shared,h',here,moved,rfl⟩ :=
      take_cases (fun shared h => next shared h event) taken
    exact .request here (next_move moved) (.inr ⟨event,rfl⟩)
  | drop i =>
    obtain ⟨h,shared,h',here,moved,rfl⟩ := take_cases _ taken
    refine .request here (drop_move moved) (.inl ⟨rfl,?_⟩)
    unfold dropNext at moved
    split at moved
    · cases moved
      rfl
    · contradiction

theorem Move.frame (moved : Move c h (c',h')) : c.Framed c' := by
  cases moved with
  | refuse why => cases why <;> exact ⟨rfl,rfl,rfl,rfl,rfl,rfl⟩
  | dispatch at_ => split <;> exact ⟨rfl,rfl,rfl,rfl,rfl,rfl⟩
  | judge at_ judged => cases judged <;> constructor <;> simp
  | retry at_ retried =>
    cases retried with
    | break_ same => rcases same with rfl | rfl <;> constructor <;> simp [Shared.rotate]
    | again => constructor <;> simp [Shared.rotate,Shared.sample]
  | respond at_ responded => cases responded <;> exact ⟨rfl,rfl,rfl,rfl,rfl,rfl⟩
  | invalid at_ | drop at_ => constructor <;> simp [Shared.sample]
  | _ => exact ⟨rfl,rfl,rfl,rfl,rfl,rfl⟩

inductive Stores (s : Shared) (h h' : Handler) : Sessions → Prop where
  | kept : Stores s h h' s.sessions
  | used (got : s.sessions.getSession s.now session = some (info,sessions)) : Stores s h h' sessions
  | removed (session : String) : Stores s h h' (s.sessions.removeSession session)
  | created (at_ : h.pc = .finishing target (.answered resp)) (lives : h'.pc ≠ .dropped) (some_ : resp.contextId ≠ "") :
    Stores s h h' (s.sessions.createSession s.now h.req.scopeName target.workerId resp.contextId target.endpoint).2

theorem Move.stores {s s' : Shared} {h h' : Handler} (moved : Move s h (s',h')) : Stores s h h' s'.sessions := by
  cases moved with
  | refuse why =>
    cases why with
    | forgotten at_ => exact .removed _
    | _ => exact .kept
  | found at_ session got | forget at_ session got => exact .used got
  | dispatch at_ => split <;> exact .kept
  | judge at_ judged => cases judged <;> simpa using Stores.kept
  | retry at_ retried =>
    cases retried with
    | break_ same => rcases same with rfl | rfl <;> simpa [Shared.rotate] using Stores.kept
    | again => simpa [Shared.rotate,Shared.sample] using Stores.kept
  | respond at_ responded =>
    cases responded with
    | plain => exact .kept
    | session metrics code some_ => exact .created at_ nofun some_
  | invalid at_ | drop at_ => simpa [Shared.sample] using Stores.kept
  | _ => exact .kept

/-- The invariant rule for what holds of each request by itself. -/
theorem each_request {P : Handler → Prop} (new : ∀ req now, P (.new req now))
    (moves : ∀ (s s' : Shared) (h h' : Handler), P h → Move s h (s',h') → P h')
    (reached : (machine fleet).Reachable s) (i : Nat) (h : Handler) (here : s.handlers[i]? = some h) :
    P h := by
  induction reached generalizing i h with
  | initial => simp [machine,Fleet.initial] at here
  | step _ _ taken ih =>
    cases step_turn taken with
    | request before moved act =>
      rcases Tasks.getElem?_set_cases before here with ⟨_,rfl⟩ | ⟨_,old⟩
      · exact moves _ _ _ _ (ih _ _ before) moved
      · exact ih i h old
    | arrive =>
      rcases Tasks.getElem?_append_cases here with old | ⟨_,rfl⟩
      · exact ih i h old
      · exact new _ _
    | background works act => exact ih i h here

end BrowserHive.Coordinator
