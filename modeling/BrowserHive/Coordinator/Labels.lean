import BrowserHive.Coordinator.Rounds

/-! The scope labels that request metrics are recorded under: which of them are names that
discovery has reported, and on which exits a client's own name is recorded. -/
namespace BrowserHive.Coordinator

open Transition

/-- The name of a scope some round has listed a pod of, or that is configured. -/
def Reported (fleet : Fleet) (pods : List Pod) (scope : String) : Prop :=
  (fleet.configured scope).isSome ∨ (fleet.known scope).isSome ∨ ∃ pod ∈ pods, pod.scope = some scope

def Trusted (fleet : Fleet) (pods : List Pod) (label : String) : Prop :=
  label = unknownScope ∨ Reported fleet pods label

def followPods (_ : State) (pods : List Pod) (a : Action) (_ : State) : Option (List Pod) :=
  match a with
  | .discover more => some (pods ++ more)
  | _ => some pods

def labelled (fleet : Fleet) : Machine (State × List Pod) Action := (openMachine fleet).record [] id followPods

def Pc.early : Pc → Bool
  | .arrived | .looking | .routing | .missing => true
  | _ => false

def Pc.ended : Pc → Bool
  | .responded _ | .refused | .dropped => true
  | _ => false

/-- The steps that take a sample of a request past its routing: it ends, or is sent again.
The event `none` stands for the drop of its future. -/
inductive Accounts (c : Shared) (h : Handler) : Option Event → Prop where
  | drop (at_ : h.pc.suspends = true) : Accounts c h none
  | forgotten (at_ : h.pc = .forgetting) : Accounts c h (some event)
  | invalid (at_ : h.pc = .calling target forwarded) : Accounts c h (some .invalidArgument)
  | again (at_ : h.pc = .retrying target outcome plan remaining)
      (other : (retry c h target outcome remaining).2.pc ≠ .finishing target outcome) : Accounts c h (some event)
  | finished (at_ : h.pc = .finishing target outcome) : Accounts c h (some event)

/-- The steps that record a sample under a name nobody has looked up: the name in a request
that ends before it was routed, or the name its session was stored under. -/
inductive Exposes (c : Shared) (h : Handler) : Option Event → String → Prop where
  | terminating (at_ : h.pc = .arrived) (cancelled : c.cancelled = true) :
      Exposes c h (some event) h.req.scopeName
  | unknown (at_ : h.pc = .routing) (session : h.req.noSession = false)
      (lost : c.sessions h.req.sessionId = none) : Exposes c h (some event) h.req.scopeName
  | abandoned (at_ : h.pc.early = true) : Exposes c h none h.req.scopeName
  | continued (session : h.session = some info) (accounts : Accounts c h event) :
      Exposes c h event info.scopeName

/-- The names that this event exposes, discovery has reported. -/
def ExposesAt (fleet : Fleet) (s : State × List Pod) (i : Nat) (event : Option Event) : Prop :=
  ∀ (h : Handler), s.1.handlers[i]? = some h →
    ∀ label, Exposes s.1.shared h event label → Trusted fleet s.2 label

def ExposesReported (fleet : Fleet) (s : State × List Pod) : Action → Prop
  | .advance i event => ExposesAt fleet s i (some event)
  | .drop i => ExposesAt fleet s i none
  | _ => True

/-- What a request in progress is accounted under: its session's scope, or the scope it
names, which was looked up before it was routed. -/
structure Handler.Accounted (known : String → Prop) (h : Handler) : Prop where
  unrejected : h.metrics.rejectReason = none
  scope : h.metrics.scope = (h.session.map SessionInfo.scopeName).getD h.req.scopeName
  early : h.pc.early = true → h.session = none
  fresh : ∀ target, h.pc = .refreshing target → h.session = none
  routed : h.pc.early = false → h.session = none → known h.req.scopeName

structure Vouched (fleet : Fleet) (s : State × List Pod) : Prop where
  routable : ∀ scope, (s.1.shared.routable scope).isSome → Reported fleet s.2 scope
  presences : ∀ scope, (s.1.shared.presences scope).isSome → Reported fleet s.2 scope
  found : ∀ known, s.1.shared.found = some known → ∀ scope, (known scope).isSome → Reported fleet s.2 scope
  accounted : ∀ (i : Nat) (h : Handler), s.1.handlers[i]? = some h → h.pc.ended = false →
    h.Accounted (Reported fleet s.2)

section Request

variable {c c' : Shared} {h h' : Handler} {r : Shared × Handler} {known : String → Prop}

@[simp] theorem Handler.recordOutcome_metrics (h : Handler) (outcome : Outcome) :
    (h.recordOutcome outcome).metrics = h.metrics := by
  unfold Handler.recordOutcome; split <;> rfl

/-- A request keeps its account while it is in progress. -/
theorem Handler.Accounted.move (accounted : h.Accounted known)
    (listed : ∀ scope, (c.routable scope).isSome → known scope) (moved : Move c h (c',h'))
    (going : h'.pc.ended = false) : h'.Accounted known := by
  obtain ⟨unrejected,scope,early,fresh,routed⟩ := accounted
  cases moved with
  | accept at_ | look at_ | miss at_ =>
    exact ⟨unrejected,scope,fun _ => early (by simp [at_,Pc.early]),(by rintro _ ⟨⟩),(by rintro ⟨⟩)⟩
  | refuse | invalid | unreachable | drop => simp [Handler.goto,Pc.ended] at going
  | respond at_ responded => cases responded <;> simp [Handler.goto,Pc.ended] at going
  | found at_ | forget at_ => exact ⟨unrejected,rfl,(by rintro ⟨⟩),(by rintro _ ⟨⟩),(by rintro _ ⟨⟩)⟩
  | select at_ new found selected full =>
    have reported := listed _ (Option.isSome_of_eq_some found)
    have new := early (by simp [at_,Pc.early])
    rcases full with ⟨rfl,_⟩ | ⟨rfl,_⟩
    · exact ⟨unrejected,scope,(by rintro ⟨⟩),fun _ _ => new,fun _ _ => reported⟩
    · exact ⟨unrejected,scope,(by rintro ⟨⟩),fun _ _ => new,fun _ _ => reported⟩
  | confirm at_ | connect at_ | dispatch at_ =>
    exact ⟨unrejected,scope,(by rintro ⟨⟩),(by rintro _ ⟨⟩),fun _ => routed (by simp [at_,Pc.early])⟩
  | judge at_ judged =>
    have late : h.pc.early = false := by
      rcases at_ with at_ | ⟨_,at_⟩ <;> simp [at_,Pc.early]
    cases judged with
    | break_ | another =>
      exact ⟨by simpa using unrejected,by simpa using scope,(by rintro ⟨⟩),(by rintro _ ⟨⟩),
        fun _ => by simpa using routed late⟩
  | retry at_ retried =>
    cases retried with
    | break_ => exact ⟨unrejected,scope,(by rintro ⟨⟩),(by rintro _ ⟨⟩),fun _ => routed (by simp [at_,Pc.early])⟩
    | again => exact ⟨unrejected,scope,(by rintro ⟨⟩),(by rintro _ ⟨⟩),fun _ => routed (by simp [at_,Pc.early])⟩

theorem Move.ongoing {r : Shared × Handler} (moved : Move c h r) : h.pc.ended = false := by
  cases moved with
  | refuse why => cases why <;> rename_i at_ <;> simp [*,Pc.ended]
  | judge at_ => rcases at_ with at_ | ⟨_,at_⟩ <;> simp [at_,Pc.ended]
  | drop at_ =>
    cases pc : h.pc <;> simp [pc,Pc.suspends] at at_ <;> rfl
  | _ at_ => simp [at_,Pc.ended]

/-- Only an unknown scope is recorded under another name than the request's own. -/
theorem RequestMetrics.label_reject (m : RequestMetrics) (trusted : reason.scopeIsUntrusted = false) :
    (m.reject reason).label = m.scope := by
  simp [RequestMetrics.label,RequestMetrics.reject,trusted]

theorem RequestMetrics.label_unrejected {m : RequestMetrics} (unrejected : m.rejectReason = none) :
    m.label = m.scope := by
  simp [RequestMetrics.label,unrejected]

theorem respond_samples (c : Shared) (h : Handler) (target : Target) (resp : WorkerResponse)
    (unrejected : h.metrics.rejectReason = none) :
    (respond c h target resp).1.samples = c.samples ++ [h.metrics.scope] := by
  have plain := RequestMetrics.label_unrejected unrejected
  have rejected : (h.metrics.reject .noSlots).label = h.metrics.scope := h.metrics.label_reject rfl
  by_cases full : resp.errorCode = capacityExhausted
  · simp only [respond,translate,full,if_true]
    split <;> simp [leave,Shared.sample,rejected]
  · simp only [respond,translate,full,if_false]
    split <;> simp [leave,Shared.sample,plain]

/-- The scope a request in progress is accounted under, if no session was looked up. -/
theorem Handler.Accounted.own (accounted : h.Accounted known) (new : h.session = none) :
    h.metrics.scope = h.req.scopeName := by
  rw [accounted.scope,new]
  rfl

theorem Handler.Accounted.continued (accounted : h.Accounted known) (session : h.session = some info) :
    h.metrics.scope = info.scopeName := by
  rw [accounted.scope,session]
  rfl

/-- A sample taken of a request past its routing is its session's, or of a reported scope. -/
theorem Handler.Accounted.late (accounted : h.Accounted known) (late : h.pc.early = false)
    (accounts : Accounts c h event) : Exposes c h event h.metrics.scope ∨ known h.metrics.scope := by
  cases session : h.session with
  | none =>
    rw [accounted.own session]
    exact .inr (accounted.routed late session)
  | some info =>
    rw [accounted.continued session]
    exact .inl (.continued session accounts)

/-- A request that ends outside the retry loop is recorded under the label of its metrics. -/
theorem leave_samples (c : Shared) (h : Handler) (pc : Pc) :
    (leave c h pc).1.samples = c.samples ++ [h.metrics.label] := rfl

theorem refuse_samples (c : Shared) (h : Handler) (reason : RejectReason) (code : ErrorCode)
    (message workerId : String) :
    (refuse c h reason code message workerId).1.samples = c.samples ++ [(h.metrics.reject reason).label] := rfl

/-- A step takes no sample, or one under a name that it exposes or that is trusted. -/
def Sampled (known : String → Prop) (c : Shared) (h : Handler) (event : Option Event) (c' : Shared) : Prop :=
  c'.samples = c.samples ∨ ∃ label, c'.samples = c.samples ++ [label] ∧
    (Exposes c h event label ∨ label = unknownScope ∨ known label)

theorem sampled_own (c'' : Shared) (same : c''.samples = c.samples)
    (label : h.metrics.scope = h.req.scopeName) (trusted : reason.scopeIsUntrusted = false)
    (exposed : Exposes c h event h.req.scopeName ∨ known h.req.scopeName) (code : ErrorCode)
    (message workerId : String) : Sampled known c h event (refuse c'' h reason code message workerId).1 := by
  refine .inr ⟨h.req.scopeName,?_,exposed.imp_right .inr⟩
  rw [refuse_samples,same,h.metrics.label_reject trusted,label]

theorem sampled_routeSession (accounted : h.Accounted known) (at_ : h.pc = .routing)
    (session : h.req.noSession = false) : Sampled known c h (some event) (routeSession c h).1 := by
  have own := accounted.own (accounted.early (by simp [at_,Pc.early]))
  unfold routeSession
  split
  · next lost =>
    apply sampled_own c rfl own rfl
    exact .inl (.unknown at_ session (Option.map_eq_none_iff.mp lost))
  · dsimp only
    split <;> exact .inl rfl

theorem sampled_routeNew (accounted : h.Accounted known) (at_ : h.pc = .routing)
    (listed : ∀ scope, (c.routable scope).isSome → known scope) :
    Sampled known c h event (routeNew c h).1 := by
  have own := accounted.own (accounted.early (by simp [at_,Pc.early]))
  unfold routeNew
  split
  · exact .inl rfl
  · next ws found =>
    have reported := listed _ (Option.isSome_of_eq_some found)
    split
    · exact sampled_own c rfl own rfl (.inr reported) ..
    · split
      · exact sampled_own c.rotate (show c.rotate.samples = c.samples from rfl) own rfl (.inr reported) ..
      · split <;> exact .inl rfl

theorem sampled_missing (accounted : h.Accounted known) (at_ : h.pc = .missing)
    (present : ∀ scope, (c.presences scope).isSome → known scope) :
    Sampled known c h event (refuse c h (classifyMissingScope h.req.scopeName (c.presences h.req.scopeName)).1
      (classifyMissingScope h.req.scopeName (c.presences h.req.scopeName)).2.1
      (classifyMissingScope h.req.scopeName (c.presences h.req.scopeName)).2.2 "").1 := by
  have own := accounted.own (accounted.early (by simp [at_,Pc.early]))
  cases found : c.presences h.req.scopeName with
  | none => exact .inr ⟨unknownScope,rfl,.inr (.inl rfl)⟩
  | some presence =>
    apply sampled_own c rfl own rfl
    exact .inr (present _ (Option.isSome_of_eq_some found))

/-- A sample of a request past its routing, taken when it ends or is sent again. -/
theorem sampled_late (accounted : h.Accounted known) (late : h.pc.early = false)
    (accounts : Accounts c h event) (sampled : c'.samples = c.samples ++ [h.metrics.scope]) :
    Sampled known c h event c' :=
  .inr ⟨_,sampled,(accounted.late late accounts).imp_right .inr⟩

theorem sampled_route (accounted : h.Accounted known) (listed : ∀ scope, (c.routable scope).isSome → known scope)
    (present : ∀ scope, (c.presences scope).isSome → known scope)
    (moved : routeNext c h event = some r) : Sampled known c h (some event) r.1 := by
  unfold routeNext at moved
  split at moved
  · next at_ =>
    have own := accounted.own (accounted.early (by simp [at_,Pc.early]))
    split at moved
    · next cancelled =>
      exact Option.some.inj moved ▸ sampled_own c rfl own rfl (.inl (.terminating at_ cancelled)) ..
    · obtain rfl := Option.some.inj moved
      exact .inl rfl
  · obtain rfl := Option.some.inj moved
    exact .inl rfl
  · next at_ =>
    split at moved
    · next new => exact Option.some.inj moved ▸ sampled_routeNew accounted at_ listed
    · next session => exact Option.some.inj moved ▸ sampled_routeSession accounted at_ (by simpa using session)
  · next at_ =>
    obtain rfl := Option.some.inj moved
    apply sampled_late accounted (by simp [at_,Pc.early]) (.forgotten at_)
    exact congrArg (fun label => c.samples ++ [label]) (h.metrics.label_reject rfl)
  · next at_ => exact Option.some.inj moved ▸ sampled_missing accounted at_ present
  · next target slots at_ =>
    have new := accounted.fresh target at_
    split at moved
    · obtain rfl := Option.some.inj moved
      exact .inl rfl
    · have reported := accounted.routed (by simp [at_,Pc.early]) new
      exact Option.some.inj moved ▸ sampled_own c rfl (accounted.own new) rfl (.inr reported) ..
  · contradiction

theorem sampled_attempt (accounted : h.Accounted known) (moved : attemptNext c h event = some r) :
    Sampled known c h (some event) r.1 := by
  have judged {target : Target} {outcome : Outcome} (judged : Judged c h target outcome r) :
      Sampled known c h (some event) r.1 := by
    cases judged <;> exact .inl (by simp)
  unfold attemptNext at moved
  split at moved
  · obtain rfl := Option.some.inj moved
    exact .inl (by split <;> rfl)
  · exact judged (Option.some.inj moved ▸ judge_cases ..)
  · obtain rfl := Option.some.inj moved
    exact .inl rfl
  · exact judged (Option.some.inj moved ▸ judge_cases ..)
  · exact judged (Option.some.inj moved ▸ judge_cases ..)
  · next at_ =>
    obtain rfl := Option.some.inj moved
    apply sampled_late accounted (by simp [at_,Pc.early]) (.invalid at_)
    · rw [leave_samples,RequestMetrics.label_unrejected accounted.unrejected,Shared.release_samples]
  · next target outcome plan remaining at_ =>
    have retried := retry_cases c h target outcome remaining
    have same := Option.some.inj moved
    rw [same] at retried
    cases retried with
    | break_ from_ => exact .inl (by rcases from_ with rfl | rfl <;> simp [breakWith,Shared.rotate])
    | again =>
      apply sampled_late accounted (by simp [at_,Pc.early])
      · exact .again at_ (by simp [same,Handler.goto])
      · simp [Shared.sample,Shared.rotate]
  · contradiction

theorem sampled_next (accounted : h.Accounted known) (listed : ∀ scope, (c.routable scope).isSome → known scope)
    (present : ∀ scope, (c.presences scope).isSome → known scope)
    (moved : next c h event = some r) : Sampled known c h (some event) r.1 := by
  unfold next at moved
  split at moved
  · exact sampled_attempt accounted moved
  · exact sampled_attempt accounted moved
  · exact sampled_attempt accounted moved
  · exact sampled_attempt accounted moved
  · next target outcome at_ =>
    have late : h.pc.early = false := by simp [at_,Pc.early]
    have accounts : Accounts c h (some event) := .finished at_
    unfold finishNext at moved
    split at moved
    · obtain rfl := Option.some.inj moved
      apply sampled_late accounted late accounts
      exact congrArg (fun label => c.samples ++ [label]) (h.metrics.label_reject rfl)
    · obtain rfl := Option.some.inj moved
      exact sampled_late accounted late accounts (respond_samples c h _ _ accounted.unrejected)
    · contradiction
  · exact sampled_route accounted listed present moved

theorem dropNext_samples (accounted : h.Accounted known) (moved : dropNext c h = some r) :
    h.pc.suspends = true ∧ r.1.samples = c.samples ++ [h.metrics.scope] := by
  unfold dropNext at moved
  split at moved
  · next suspends =>
    obtain rfl := Option.some.inj moved
    rw [leave_samples,Shared.release_samples,RequestMetrics.label_unrejected accounted.unrejected]
    exact ⟨suspends,rfl⟩
  · contradiction

theorem sampled_drop (accounted : h.Accounted known) (moved : dropNext c h = some r) :
    Sampled known c h none r.1 := by
  obtain ⟨suspends,sampled⟩ := dropNext_samples accounted moved
  cases early : h.pc.early with
  | true =>
    rw [accounted.own (accounted.early early)] at sampled
    exact .inr ⟨_,sampled,.inl (.abandoned early)⟩
  | false => exact sampled_late accounted early (.drop suspends) sampled

theorem exposed_next (accounted : h.Accounted known) (exposed : Exposes c h (some event) label)
    (moved : next c h event = some r) : label ∈ r.1.samples := by
  have own (early : h.pc.early = true) := accounted.own (accounted.early early)
  have refused (c' : Shared) (reason : RejectReason) (trusted : reason.scopeIsUntrusted = false) (code : ErrorCode)
      (message workerId : String) : h.metrics.scope ∈ (refuse c' h reason code message workerId).1.samples := by
    rw [refuse_samples,h.metrics.label_reject trusted]
    exact List.mem_append_right _ (List.mem_singleton_self _)
  cases exposed with
  | terminating at_ cancelled =>
    simp only [next,at_,routeNext] at moved
    cases event with
    | go =>
      rw [if_pos cancelled] at moved
      rw [← own (by simp [at_,Pc.early])]
      exact Option.some.inj moved ▸ refused c .terminating rfl ..
    | _ => contradiction
  | unknown at_ session lost =>
    simp only [next,at_,routeNext] at moved
    cases event with
    | go =>
      rw [← own (by simp [at_,Pc.early])]
      simp only [session,Bool.false_eq_true,if_false,routeSession,Sessions.getSession,lost,Option.map_none] at moved
      exact Option.some.inj moved ▸ refused c .sessionNotFound rfl ..
    | _ => contradiction
  | continued session accounts =>
    rw [← accounted.continued session]
    cases accounts with
    | forgotten at_ =>
      simp only [next,at_,routeNext] at moved
      cases event with
      | go => exact Option.some.inj moved ▸ refused _ .sessionNotFound rfl ..
      | _ => contradiction
    | invalid at_ =>
      simp only [next,at_,attemptNext] at moved
      rw [← Option.some.inj moved,leave_samples,RequestMetrics.label_unrejected accounted.unrejected]
      exact List.mem_append_right _ (List.mem_singleton_self _)
    | @again target outcome plan remaining _ at_ other =>
      simp only [next,at_,attemptNext] at moved
      cases event with
      | go =>
        obtain rfl := Option.some.inj moved
        cases same : retry c h target outcome remaining with
        | mk c' h' =>
          have retried := retry_cases c h target outcome remaining
          rw [same] at retried other
          cases retried with
          | break_ => exact absurd rfl other
          | again => exact List.mem_append_right _ (List.mem_singleton_self _)
      | _ => contradiction
    | @finished target outcome _ at_ =>
      cases event with
      | go =>
        cases outcome with
        | answered resp =>
          simp only [next,at_,finishNext] at moved
          rw [← Option.some.inj moved,respond_samples c h target resp accounted.unrejected]
          exact List.mem_append_right _ (List.mem_singleton_self _)
        | unreachable message =>
          simp only [next,at_,finishNext] at moved
          exact Option.some.inj moved ▸ refused c .workerUnreachable rfl ..
      | _ => simp [next,at_,finishNext] at moved

theorem exposed_drop (accounted : h.Accounted known) (exposed : Exposes c h none label)
    (moved : dropNext c h = some r) : label ∈ r.1.samples := by
  have same : label = h.metrics.scope := by
    cases exposed with
    | abandoned early => exact (accounted.own (accounted.early early)).symm
    | continued session => exact (accounted.continued session).symm
  rw [(dropNext_samples accounted moved).2,same]
  exact List.mem_append_right _ (List.mem_singleton_self _)

end Request

/-- Every sample is under the fixed label or a name that discovery has reported. -/
def Bounded (fleet : Fleet) (s : State × List Pod) : Prop :=
  ∀ label ∈ s.1.shared.samples, Trusted fleet s.2 label

section Step

variable {fleet : Fleet} {s t : State × List Pod} {a : Action}

theorem labelled_step {s t : State} {pods pods' : List Pod}
    (taken : (labelled fleet).step (s,pods) a = some (t,pods')) :
    openStep fleet s a = some t ∧ ((∃ more, a = .discover more ∧ pods' = pods ++ more) ∨
      (∀ more, a ≠ .discover more) ∧ pods' = pods) := by
  obtain ⟨stepped,followed⟩ := Machine.record_step taken
  refine ⟨stepped,?_⟩
  cases a with
  | discover more => exact .inl ⟨more,rfl,(Option.some.inj followed).symm⟩
  | _ => exact .inr ⟨nofun,(Option.some.inj followed).symm⟩

theorem Reported.more (reported : Reported fleet pods scope) (more : List Pod) :
    Reported fleet (pods ++ more) scope := by
  rcases reported with configured | known | ⟨pod,member,label⟩
  · exact .inl configured
  · exact .inr (.inl known)
  · exact .inr (.inr ⟨pod,List.mem_append_left more member,label⟩)

theorem Trusted.more (trusted : Trusted fleet pods label) (more : List Pod) : Trusted fleet (pods ++ more) label :=
  trusted.imp_right fun reported => reported.more more

theorem Handler.Accounted.mono {h : Handler} {known wider : String → Prop} (accounted : h.Accounted known)
    (implied : ∀ scope, known scope → wider scope) : h.Accounted wider :=
  ⟨accounted.unrejected,accounted.scope,accounted.early,accounted.fresh,
    fun late new => implied _ (accounted.routed late new)⟩

theorem Vouched.initial (fleet : Fleet) : Vouched fleet (labelled fleet).initial :=
  ⟨fun _ listed => .inl listed,fun _ listed => .inr (.inl listed),nofun,
    fun i h here => by simp [labelled,Machine.record,openMachine,Fleet.initial] at here⟩

theorem Vouched.discover {s t : State} {pods more : List Pod} (vouched : Vouched fleet (s,pods))
    (stepped : openStep fleet s (.discover more) = some t) : Vouched fleet (t,pods ++ more) := by
  cases openStep_mapped stepped with
  | discovered act idle unread same =>
    obtain rfl := Action.discover.inj act
    obtain rfl := same
    refine ⟨?_,fun scope listed => (vouched.presences scope listed).more more,?_,?_⟩
    · intro scope listed
      obtain ⟨pod,member,label⟩ := discoverWorkers_listed more scope listed
      exact .inr (.inr ⟨pod,List.mem_append_right pods member,label⟩)
    · rintro known ⟨⟩ scope listed
      obtain ⟨pod,member,label⟩ := (discoverWorkers_known more scope).mp listed
      exact .inr (.inr ⟨pod,List.mem_append_right pods member,label⟩)
    · intro i h here going
      exact (vouched.accounted i h here going).mono fun scope reported => reported.more more
  | published act => contradiction
  | kept act => exact absurd rfl (act.1 more)

theorem Vouched.step (vouched : Vouched fleet s) (taken : (labelled fleet).step s a = some t) :
    Vouched fleet t := by
  obtain ⟨s,pods⟩ := s
  obtain ⟨t,pods'⟩ := t
  obtain ⟨stepped,⟨more,rfl,rfl⟩ | ⟨other,rfl⟩⟩ := labelled_step taken
  · exact vouched.discover stepped
  · have turn := ((openStep_cases stepped).resolve_left fun ⟨more,act,_⟩ => other more act).2
    have accounted : ∀ (i : Nat) (h : Handler), t.handlers[i]? = some h → h.pc.ended = false →
        h.Accounted (Reported fleet pods') := by
      intro i h here going
      cases turn with
      | request before moved act =>
        rcases Tasks.getElem?_set_cases before here with ⟨_,rfl⟩ | ⟨_,old⟩
        · have ongoing := moved.ongoing
          exact (vouched.accounted _ _ before ongoing).move vouched.routable moved going
        · exact vouched.accounted i h old going
      | arrive =>
        rcases Tasks.getElem?_append_cases here with old | ⟨_,rfl⟩
        · exact vouched.accounted i h old going
        · exact ⟨rfl,rfl,fun _ => rfl,nofun,nofun⟩
      | background => exact vouched.accounted i h here going
    cases openStep_mapped stepped with
    | discovered act => exact absurd act (other _)
    | published act half same =>
      obtain rfl := same
      exact ⟨vouched.routable,vouched.found _ half,nofun,accounted⟩
    | kept act routable presences found =>
      refine ⟨?_,?_,?_,accounted⟩
      · rw [routable]
        exact vouched.routable
      · rw [presences]
        exact vouched.presences
      · rw [found]
        exact vouched.found

/-- A step takes no sample, or is a request's, which samples what it exposes. -/
theorem labelled_sample (vouched : Vouched fleet s) (taken : (labelled fleet).step s a = some t) :
    t.1.shared.samples = s.1.shared.samples ∧ ExposesReported fleet s a ∨ t.2 = s.2 ∧ ∃ i h event,
      s.1.handlers[i]? = some h ∧ Sampled (Reported fleet s.2) s.1.shared h event t.1.shared ∧
      (∀ label, Exposes s.1.shared h event label → label ∈ t.1.shared.samples) ∧
      (ExposesReported fleet s a ↔ ExposesAt fleet s i event) := by
  obtain ⟨s,pods⟩ := s
  obtain ⟨t,pods'⟩ := t
  obtain ⟨stepped,⟨more,rfl,rfl⟩ | ⟨other,rfl⟩⟩ := labelled_step taken
  · left
    cases openStep_mapped stepped with
    | discovered act idle unread same => exact ⟨same ▸ rfl,trivial⟩
    | published act => contradiction
    | kept act => exact absurd rfl (act.1 more)
  cases a with
  | discover more => exact absurd rfl (other more)
  | advance i event =>
    obtain ⟨h,shared,h',here,moved,rfl⟩ := take_cases (fun shared h => next shared h event) stepped
    have accounted := vouched.accounted i h here (next_move moved).ongoing
    exact .inr ⟨rfl,i,h,some event,here,sampled_next accounted vouched.routable vouched.presences moved,
      fun label exposed => exposed_next accounted exposed moved,Iff.rfl⟩
  | drop i =>
    obtain ⟨h,shared,h',here,moved,rfl⟩ := take_cases dropNext stepped
    have accounted := vouched.accounted i h here (drop_move moved).ongoing
    exact .inr ⟨rfl,i,h,none,here,sampled_drop accounted moved,
      fun label exposed => exposed_drop accounted exposed moved,Iff.rfl⟩
  | publish =>
    obtain ⟨known,half,rfl⟩ := Option.map_eq_some_iff.mp stepped
    exact .inl ⟨rfl,trivial⟩
  | tick | cancel | arrive | monitor | cleanup =>
    obtain rfl := Option.some.inj stepped
    exact .inl ⟨rfl,trivial⟩

theorem Trusted.step (trusted : Trusted fleet s.2 label) (taken : (labelled fleet).step s a = some t) :
    Trusted fleet t.2 label := by
  obtain ⟨s,pods⟩ := s
  obtain ⟨t,pods'⟩ := t
  obtain ⟨_,⟨more,_,rfl⟩ | ⟨_,rfl⟩⟩ := labelled_step taken
  · exact trusted.more more
  · exact trusted

theorem Bounded.step (bounded : Bounded fleet s) (vouched : Vouched fleet s)
    (reported : ExposesReported fleet s a) (taken : (labelled fleet).step s a = some t) : Bounded fleet t := by
  intro label member
  rcases labelled_sample vouched taken with ⟨same,_⟩ | ⟨still,i,h,event,here,sampled,_,exposes⟩
  · rw [same] at member
    exact (bounded label member).step taken
  · rw [still]
    rcases sampled with same | ⟨new,added,origin⟩
    · rw [same] at member
      exact bounded label member
    · rw [added] at member
      rcases List.mem_append.mp member with old | fresh
      · exact bounded label old
      · obtain rfl := List.mem_singleton.mp fresh
        rcases origin with exposed | trusted
        · exact exposes.mp reported h here label exposed
        · exact trusted

theorem Bounded.reported (bounded : Bounded fleet t) (vouched : Vouched fleet s)
    (taken : (labelled fleet).step s a = some t) : ExposesReported fleet s a := by
  rcases labelled_sample vouched taken with ⟨_,reported⟩ | ⟨still,i,h,event,here,_,sampled,exposes⟩
  · exact reported
  · apply exposes.mpr
    intro g there label exposed
    obtain rfl := Option.some.inj (here.symm.trans there)
    rw [← still]
    exact bounded label (sampled label exposed)

end Step

/-- The names clients send become labels only once discovery reported them exactly when no
request exposes another name: one that ends before it was routed its own, and one that
continued a session the name its session was stored under. -/
theorem labels_bounded_iff (fleet : Fleet) (actions : List Action) :
    (labelled fleet).Along (Bounded fleet) actions (labelled fleet).initial ↔
      (labelled fleet).Meets (ExposesReported fleet) actions (labelled fleet).initial := by
  apply Machine.along_iff_meets (I := Vouched fleet) (J := Bounded fleet)
  · exact fun s a t vouched taken => vouched.step taken
  · exact fun s _ bounded => bounded
  · exact fun s a t vouched bounded reported taken => bounded.step vouched reported taken
  · exact fun s a t vouched unreported taken bounded => unreported (bounded.reported vouched taken)
  · exact Vouched.initial fleet
  · exact nofun

def inventedScope : List Action :=
  [.arrive (.page "invented" "web-0:ctx"),.advance 0 .go,.advance 0 .go,.advance 0 .go]

theorem invented_scope_recorded : ∃ s, (labelled (.discovered id)).exec inventedScope
      (labelled (.discovered id)).initial = some s ∧ s.1.shared.samples = ["invented"] ∧ s.2 = [] ∧
    ¬Bounded (.discovered id) s := by
  obtain ⟨s,ran,sampled,pods⟩ : ∃ s, (labelled (.discovered id)).exec inventedScope
      (labelled (.discovered id)).initial = some s ∧ s.1.shared.samples = ["invented"] ∧ s.2 = [] :=
    ⟨_,rfl,rfl,rfl⟩
  refine ⟨s,ran,sampled,pods,fun bounded => ?_⟩
  have trusted := bounded "invented" (by rw [sampled]; exact List.mem_singleton_self _)
  rw [pods] at trusted
  rcases trusted with same | configured | known | ⟨pod,member,_⟩
  · exact absurd same (by decide)
  · contradiction
  · contradiction
  · contradiction

end BrowserHive.Coordinator
