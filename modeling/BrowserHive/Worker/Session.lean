import BrowserHive.Worker.Retry

/-! The contract of dedicated sessions. A context a request created or named is, until the
request is answered, gone from the pool or carried to the answer; what loses it is an
answer that is a gRPC status, which has no place for a session id. -/
namespace BrowserHive.Worker

open BrowserHive Transition RwLock

variable {scope : ValidScope} {s t : State} {p q pools : Pools} {i j : Nat} {h h' : Handler} {terminating : Bool}
  {c : ContextId}

def Pc.result : Pc → Option Result
  | .ended _ _ result | .finishing result | .returned result => some result
  | _ => none

def Pc.carries (pc : Pc) : Option ContextId :=
  match pc.result with
  | some result => tells result
  | none => pc.context

def isStatus : Result → Bool
  | .ok _ => false
  | .error _ => true

def Pc.rejected (pc : Pc) : Bool := pc.result.any isStatus

/-- What program points carry besides their context: a context that is given back is not
named, an attempt names no other context than its own, and only `AlwaysNew` destroys its
context before the page is looked at. -/
def Pc.Shaped (scope : ValidScope) : Pc → Prop
  | .discarding _ reply | .discard _ reply => reply.contextId = none
  | .ended a _ result => ∀ c, tells result = some c → c = a.context
  | .leaving _ | .leave _ => scope.sessionMode = .alwaysNew
  | _ => True

theorem tells_silent (silent : Silent result) : tells result = none := by
  obtain ⟨reply,rfl,none_⟩ := silent
  exact none_

theorem tells_keeping (keeping : Keeping scope a result) :
    tells result = addressableContextId scope.sessionMode a.context := by
  obtain ⟨reply,rfl,same⟩ := keeping
  exact same

theorem addressable_dedicated (mode : scope.sessionMode = .dedicated) (c : ContextId) :
    addressableContextId scope.sessionMode c = some c := by
  simp [addressableContextId,mode,SessionMode.returnsSessionId]

theorem Pc.plain_shaped {pc : Pc} (plain : pc.plain = true) : pc.Shaped scope := by
  cases pc <;> simp_all [Pc.plain,Pc.Shaped]

theorem Pc.plain_result {pc : Pc} (plain : pc.plain = true) : pc.result = none := by
  cases pc <;> simp_all [Pc.plain,Pc.result]

theorem Pc.carries_of_running {pc : Pc} (at_ : pc.attempt = some a)
    (running : ∀ replaced result, pc ≠ .ended a replaced result) : pc.carries = some a.context := by
  have context := Pc.context_of_attempt at_
  cases pc <;> simp_all [carries,result,attempt]

theorem Pc.plain_carries {pc : Pc} (plain : pc.plain = true) (at_ : pc.attempt = some a) :
    pc.carries = some a.context :=
  carries_of_running at_ fun replaced result ends => by simp [ends,Pc.plain] at plain

theorem carries_granted (pc : Pc) : pc.granted.carries = pc.carries := by cases pc <;> rfl

theorem rejected_granted (pc : Pc) : pc.granted.rejected = pc.rejected := by cases pc <;> rfl

theorem shaped_granted (pc : Pc) : pc.granted.Shaped scope ↔ pc.Shaped scope := by cases pc <;> rfl

theorem bindContext_carries (retry : Bool) (c : ContextId) (h : Handler) :
    (bindContext retry c h).pc.carries = some c := by
  cases retry <;> rfl

theorem move_shaped (shaped : h.pc.Shaped scope) (moved : Move scope p i h terminating pools h') :
    h'.pc.Shaped scope := by
  cases moved with
  | bumpAttempt at_ silent => simp [Handler.goto,Pc.Shaped,tells_silent silent]
  | lose at_ silent => simp [Handler.goto,Pc.Shaped,tells_silent silent]
  | walk at_ running inside plain => exact Pc.plain_shaped plain
  | early at_ mode => exact mode
  | fail at_ running unlocked keeping =>
    intro c told
    simp only [tells_keeping keeping,addressableContextId] at told
    split at told <;> simp_all
  | giveBack at_ running begun silent => exact silent
  | discard at_ =>
    simp only [at_,Pc.Shaped] at shaped
    simp [Handler.goto,Pc.Shaped,tells,shaped]
  | @create retry => cases retry <;> simp [bindContext,Handler.goto,Pc.Shaped]
  | @reuse retry => cases retry <;> simp [bindContext,Handler.goto,Pc.Shaped]
  | _ => simp [Handler.goto,Pc.Shaped,tells]

theorem shaped_run (run : (machine scope).Reachable s) :
    ∀ (i : Nat) (h : Handler), s.handlers[i]? = some h → h.pc.Shaped scope := by
  refine Machine.Reachable.invariant (P := fun s => ∀ (i : Nat) (h : Handler), s.handlers[i]? = some h → h.pc.Shaped scope)
    (by simp [machine,initial]) (fun s action t _ before taken => ?_) run
  refine each_step (P := fun _ _ h => h.pc.Shaped scope) taken (fun _ _ => trivial) ?_ (fun _ _ _ _ same => same) before
  intro i h pools h' at_ turn _ _ shaped
  cases turn with
  | move asks moved => exact move_shaped shaped moved
  | grant asks => exact (shaped_granted h.pc).mpr shaped
  | drop => exact trivial

/-- Context `c`, which a request created or named, is gone, or carried to the answer, or
lost to a status or with the request's future. -/
def Accounted (p : Pools) (h : Handler) (c : ContextId) : Prop :=
  c ∉ p.contexts ∨ h.pc.carries = some c ∨ h.pc.rejected = true ∨ h.pc = .dropped

theorem Accounted.later (later : p.Later q) (known : c < p.fresh) (accounted : Accounted p h c) : Accounted q h c :=
  accounted.imp_left fun gone member => gone (later.kept c known member)

theorem move_rejected (moved : Move scope p i h terminating pools h') (rejected : h.pc.rejected = true) :
    h'.pc.rejected = true := by
  cases moved with
  | settle at_ => rw [at_] at rejected; exact rejected
  | leaveHandler at_ => rw [at_] at rejected; exact rejected
  | @retry a replaced result generation at_ first moved failed =>
    cases result <;> simp [at_,Pc.rejected,Pc.result,isStatus,isFailure] at rejected failed
  | walk at_ running => cases here : h.pc <;> simp_all [Pc.rejected,Pc.result,Pc.attempt]
  | fail at_ running => cases here : h.pc <;> simp_all [Pc.rejected,Pc.result,Pc.attempt]
  | giveBack at_ running => cases here : h.pc <;> simp_all [Pc.rejected,Pc.result,Pc.attempt]
  | giveUp at_ =>
    rcases at_ with ⟨_,_,at_⟩ | ⟨_,_,at_⟩ <;> rw [at_] at rejected <;> contradiction
  | observe at_ =>
    rcases at_ with ⟨_,at_,_⟩ | ⟨_,at_,_⟩ <;> rw [at_] at rejected <;> contradiction
  | refuse at_ | look at_ | ask at_ | echo at_ | find at_ | miss at_ | unlock at_ | keep at_ | retire at_ | create at_
  | reuse at_ | launch at_ | swap at_ | bumpAcquire at_ | bumpAttempt at_ | read at_ | early at_ | leave at_ | reject at_
  | lose at_ | discard at_ =>
    rw [at_] at rejected
    contradiction

/-- What a handler carries it keeps, unless the context goes or its answer is a status. -/
theorem move_carries (mode : scope.sessionMode = .dedicated) (base : Generations s) (shaped : h.pc.Shaped scope)
    (at_ : s.handlers[i]? = some h) (moved : Move scope s.pools i h terminating pools h')
    (carries : h.pc.carries = some c) : Accounted pools h' c := by
  cases moved with
  | keep here => exact Or.inr (Or.inl (by rw [here] at carries; exact carries))
  | @retire d _ here =>
    obtain rfl : d = c := by simpa [here,Pc.carries,Pc.result,Pc.context,Pc.unread] using carries
    exact Or.inl (by simp)
  | observe here =>
    rcases here with ⟨retry,here,rfl⟩ | ⟨a,here,rfl⟩
    · simp [here,Pc.carries,Pc.result,Pc.context,Pc.unread,Pc.attempt] at carries
    · exact Or.inr (Or.inl (by rw [here] at carries; exact carries))
  | launch here => exact Or.inr (Or.inl (by rw [here] at carries; exact carries))
  | swap here => exact Or.inr (Or.inl (by rw [here] at carries; exact carries))
  | @bumpAttempt a _ here =>
    obtain rfl : a.context = c := by
      simpa [here,Pc.carries,Pc.result,Pc.context,Pc.unread,Pc.attempt,Back.attempt?] using carries
    have gone := base.pending ⟨i,h,_,at_,here⟩ i h at_ a.context (by rw [here]; rfl)
    exact Or.inl (base.pools.outside gone)
  | read here => exact Or.inr (Or.inl (by rw [here] at carries; exact carries))
  | walk attempt running inside plain =>
    rw [Pc.carries_of_running attempt running] at carries
    exact Or.inr (Or.inl (by rw [← carries]; exact Pc.plain_carries plain inside))
  | early here => exact Or.inr (Or.inl (by rw [here] at carries; exact carries))
  | leave here => simp [here,Pc.Shaped,mode] at shaped
  | fail attempt running unlocked keeping =>
    rw [Pc.carries_of_running attempt running] at carries
    refine Or.inr (Or.inl ?_)
    rw [← carries,← addressable_dedicated mode]
    exact tells_keeping keeping
  | reject here => exact Or.inr (Or.inr (Or.inl rfl))
  | @lose a _ here =>
    obtain rfl : a.context = c := by simpa [here,Pc.carries,Pc.result,Pc.context,Pc.unread,Pc.attempt] using carries
    exact Or.inl (by simp)
  | giveBack attempt running =>
    rw [Pc.carries_of_running attempt running] at carries
    exact Or.inr (Or.inl carries)
  | @discard a _ here =>
    obtain rfl : a.context = c := by simpa [here,Pc.carries,Pc.result,Pc.context,Pc.unread,Pc.attempt] using carries
    exact Or.inl (by simp)
  | @retry a replaced result generation here first moved =>
    obtain rfl : c = a.context := by
      rw [here] at shaped carries
      exact shaped c carries
    refine Or.inl (base.pools.outside (Bool.eq_true_of_not_eq_false fun current => moved ?_))
    exact ((base.current i h at_ a generation (by rw [here]; rfl) first).2 current).symm
  | settle here => exact Or.inr (Or.inl (by rw [here] at carries; exact carries))
  | leaveHandler here => exact Or.inr (Or.inl (by rw [here] at carries; exact carries))
  | giveUp here =>
    rcases here with ⟨_,_,here⟩ | ⟨_,_,here⟩ <;> rw [here] at carries <;> contradiction
  | refuse here | look here | ask here | echo here | find here | miss here | unlock here | create here | reuse here
  | bumpAcquire here =>
    rw [here] at carries
    contradiction

theorem move_from_dropped (moved : Move scope p i h terminating pools h') : h.pc ≠ .dropped := by
  intro here
  cases moved <;> simp_all [Pc.attempt]

theorem turn_accounted (mode : scope.sessionMode = .dedicated) (base : Generations s) (shaped : h.pc.Shaped scope)
    (at_ : s.handlers[i]? = some h) (turn : Turn scope s action i h pools h') (known : c < s.pools.fresh)
    (accounted : Accounted s.pools h c) : Accounted pools h' c := by
  cases turn with
  | move asks moved =>
    rcases accounted with gone | carries | rejected | dropped
    · exact Or.inl fun member => gone ((move_later moved).kept c known member)
    · exact move_carries mode base shaped at_ moved carries
    · exact Or.inr (Or.inr (Or.inl (move_rejected moved rejected)))
    · exact absurd dropped (move_from_dropped moved)
  | grant asks =>
    refine accounted.imp_right fun still => ?_
    rcases still with carries | rejected | dropped
    · exact Or.inl (by simpa [Handler.granted,carries_granted] using carries)
    · cases here : h.pc <;> simp [here,Pc.asks,Pc.rejected,Pc.result] at asks rejected
    · simp [dropped,Pc.asks] at asks
  | drop => exact Or.inr (Or.inr (Or.inr rfl))

/-- Every context created for a request stays accounted for. -/
theorem created_accounted (mode : scope.sessionMode = .dedicated) (run : (machine scope).Reachable s) :
    ∀ (i : Nat) (h : Handler), s.handlers[i]? = some h → ∀ c ∈ h.created, Accounted s.pools h c := by
  refine Machine.Reachable.invariant (P := fun s => ∀ (i : Nat) (h : Handler), s.handlers[i]? = some h →
    ∀ c ∈ h.created, Accounted s.pools h c) (by simp [machine,initial]) (fun s action t run before taken => ?_) run
  have base := generations run
  refine each_step (P := fun p _ h => ∀ c ∈ h.created, Accounted p h c) taken (by simp) ?_ ?_ before
  · intro i h pools h' at_ turn _ _ accounted c member
    have stays : c ∈ h.created → Accounted pools h' c := fun old =>
      turn_accounted mode base (shaped_run run i h at_) at_ turn ((base.known i h at_).created c old) (accounted c old)
    cases turn with
    | move asks moved =>
      cases moved with
      | create here =>
        rcases List.mem_append.mp member with old | new
        · exact stays old
        · obtain rfl := List.mem_singleton.mp new
          exact Or.inr (Or.inl (bindContext_carries _ _ _))
      | _ => exact stays member
    | grant => exact stays member
    | drop => exact stays member
  · intro j h at_ _ accounted c member
    exact (accounted c member).later (step_later taken) ((base.known j h at_).created c member)

/-- Only wait parameters that fail the validation are answered with a status. -/
theorem rejected_invalid (run : (machine scope).Reachable s) :
    ∀ (i : Nat) (h : Handler), s.handlers[i]? = some h → h.pc.rejected = true →
      ∃ status, h.req.validateWait = .error status := by
  refine Machine.Reachable.invariant (P := fun s => ∀ (i : Nat) (h : Handler), s.handlers[i]? = some h →
    h.pc.rejected = true → ∃ status, h.req.validateWait = .error status)
    (by simp [machine,initial]) (fun s action t _ before taken => ?_) run
  refine each_step (P := fun _ _ h => h.pc.rejected = true → ∃ status, h.req.validateWait = .error status) taken
    (by simp [Pc.rejected,Pc.result]) ?_ (fun _ _ _ _ same => same) before
  intro i h pools h' at_ turn _ _ invalid rejected
  cases turn with
  | move asks moved =>
    rw [move_req moved]
    cases moved with
    | reject here wrong => exact ⟨_,wrong⟩
    | settle here => exact invalid (by rw [here]; exact rejected)
    | leaveHandler here => exact invalid (by rw [here]; exact rejected)
    | walk at_ running inside plain => simp [Pc.rejected,Pc.plain_result plain] at rejected
    | fail at_ running unlocked keeping =>
      obtain ⟨reply,rfl,_⟩ := keeping
      simp [Pc.rejected,Pc.result,isStatus] at rejected
    | @create retry => cases retry <;> simp [bindContext,Handler.goto,Pc.rejected,Pc.result] at rejected
    | @reuse retry => cases retry <;> simp [bindContext,Handler.goto,Pc.rejected,Pc.result] at rejected
    | refuse _ _ silent | miss _ _ _ silent | retire _ _ silent | giveUp _ silent | bumpAttempt _ silent | lose _ silent =>
      obtain ⟨reply,rfl,_⟩ := silent
      simp [Handler.goto,Pc.rejected,Pc.result,isStatus] at rejected
    | echo here ok => simp [Handler.goto,Pc.rejected,Pc.result,isStatus,ok] at rejected
    | _ => contradiction
  | grant asks => exact invalid ((rejected_granted h.pc).symm.trans rejected)
  | drop => simp [Pc.rejected,Pc.result] at rejected

def Pc.outside : Pc → Bool
  | .arrived | .echoing | .echo | .finishing _ | .returned _ | .dropped => true
  | _ => false

theorem outside_granted {pc : Pc} (asks : pc.asks = some access) (outside : pc.outside = true) :
    pc.granted.outside = true := by
  cases pc with
  | echoing => rfl
  | _ => contradiction

theorem move_outside (outside : h.pc.outside = true) (domain : h.req.hasDomain = false)
    (moved : Move scope p i h terminating pools h') : h'.pc.outside = true ∧ h'.created = h.created := by
  cases moved with
  | refuse | ask | echo | leaveHandler => exact ⟨rfl,rfl⟩
  | look here valid => simp [valid] at domain
  | giveUp here =>
    rcases here with ⟨_,_,here⟩ | ⟨_,_,here⟩ <;> rw [here] at outside <;> contradiction
  | observe here =>
    rcases here with ⟨_,here,_⟩ | ⟨_,here,_⟩ <;> rw [here] at outside <;> contradiction
  | walk attempt | fail attempt | giveBack attempt => cases here : h.pc <;> simp_all [Pc.outside,Pc.attempt]
  | find here | miss here | unlock here | keep here | retire here | create here | reuse here | launch here | swap here
  | bumpAcquire here | bumpAttempt here | read here | early here | leave here | reject here | lose here | discard here
  | retry here | settle here =>
    rw [here] at outside
    contradiction

/-- Nothing is created for a request whose url is invalid. -/
theorem invalid_url_creates_nothing (run : (machine scope).Reachable s) :
    ∀ (i : Nat) (h : Handler), s.handlers[i]? = some h → h.req.hasDomain = false → h.created = [] := by
  have both : ∀ (i : Nat) (h : Handler), s.handlers[i]? = some h → h.req.hasDomain = false →
      h.pc.outside = true ∧ h.created = [] := by
    refine Machine.Reachable.invariant (P := fun s => ∀ (i : Nat) (h : Handler), s.handlers[i]? = some h →
      h.req.hasDomain = false → h.pc.outside = true ∧ h.created = [])
      (by simp [machine,initial]) (fun s action t _ before taken => ?_) run
    refine each_step (P := fun _ _ h => h.req.hasDomain = false → h.pc.outside = true ∧ h.created = []) taken
      (fun _ _ _ => ⟨rfl,rfl⟩) ?_ (fun _ _ _ _ same => same) before
    intro i h pools h' at_ turn _ _ before domain
    cases turn with
    | move asks moved =>
      rw [move_req moved] at domain
      obtain ⟨outside,nothing⟩ := before domain
      obtain ⟨stays,same⟩ := move_outside outside domain moved
      exact ⟨stays,same.trans nothing⟩
    | grant asks =>
      obtain ⟨outside,nothing⟩ := before domain
      exact ⟨outside_granted asks outside,nothing⟩
    | drop => exact ⟨rfl,(before domain).2⟩
  exact fun i h at_ domain => (both i h at_ domain).2

/-- A handler that is alone with the pool lock takes a step. -/
theorem reach_alone (run : (machine scope).Reachable ⟨p,false,[],[h]⟩) (choice : Choice) (asks : h.pc.asks = none)
    (moves : next scope p 0 h false choice = some (pools,h')) : (machine scope).Reachable ⟨pools,false,[],[h']⟩ := by
  apply run.step (a := .run 0 choice) trivial
  simp [machine,step,asks,moves]

/-- A handler that is alone with the pool lock and holds no guard is granted the one it asks for. -/
theorem reach_alone_granted (run : (machine scope).Reachable ⟨p,false,[],[h]⟩) (asks : h.pc.asks = some access)
    (free : h.outer = false) : (machine scope).Reachable ⟨p,false,[],[h.granted]⟩ := by
  have unguarded : h.guards = [] := by simp [Handler.guards,Pc.guard_of_asks asks,free]
  have asked : (machine scope).Reachable ⟨p,false,[(0,access)],[h]⟩ := by
    apply run.step (a := .run 0 .go) trivial
    simp [machine,step,asks,lockStep,State.queued]
  apply asked.step (a := .run 0 .go) trivial
  simp [machine,step,asks,lockStep,State.queued,State.grants,State.holders,unguarded]

/-- A request without a session whose wait parameters are invalid leaves a context behind. -/
theorem rejected_orphans (mode : scope.sessionMode = .dedicated) (req : Request) (sessionless : req.contextId = none)
    (domain : req.hasDomain = true) (invalid : req.validateWait = .error status) :
    ∃ s, (machine scope).Reachable s ∧ ∃ h, s.handlers[0]? = some h ∧ h.req = req ∧
      h.pc = .returned (.error status) ∧ 0 ∈ h.created ∧ 0 ∈ s.pools.contexts := by
  have session : req.session scope = none := by simp [Request.session,sessionless]
  have empty : Pools.initialContexts scope = 0 := by simp [Pools.initialContexts,mode]
  have arrived : (machine scope).Reachable ⟨(initial scope).pools,false,[],[⟨req,false,0,[],.arrived⟩]⟩ := by
    refine Machine.Reach.initial.step (a := .arrive req) trivial ?_
    simp [machine,step,initial,sessionless]
  have looking := reach_alone arrived .go rfl (by simp [next,lookupNext,domain,Handler.goto]; exact ⟨rfl,rfl⟩)
  have lookup := reach_alone_granted looking rfl rfl
  have acquiring := reach_alone lookup .go rfl (by simp [next,lookupNext,Handler.granted,Pc.granted,session]; exact ⟨rfl,rfl⟩)
  have acquire := reach_alone_granted acquiring rfl rfl
  have bound := reach_alone acquire .create rfl rfl
  have claim := reach_alone bound .go rfl rfl
  have tabbing := reach_alone claim .go rfl (by
    simp [next,attemptNext,bindContext,Handler.granted,Pc.granted,Handler.goto,domain]
    exact ⟨rfl,rfl⟩)
  have tab := reach_alone_granted tabbing rfl rfl
  have navigate := reach_alone tab .go rfl rfl
  have ended := reach_alone navigate .go rfl (by
    simp [next,attemptNext,Handler.granted,Pc.granted,Handler.goto,invalid,endWith]
    exact ⟨rfl,rfl⟩)
  have finishing := reach_alone ended .go rfl (by
    simp [next,finishNext,finish,isFailure,Handler.goto]
    exact ⟨rfl,rfl⟩)
  have returned := reach_alone finishing .go rfl rfl
  exact ⟨_,returned,_,rfl,rfl,rfl,by simp [initial,empty],by simp [initial,empty,Pools.create]⟩

/-- A session-less request never leaves a context nobody was told of, whatever else goes
on, exactly when its wait parameters are valid or its url is not. -/
theorem orphan_free_iff (scope : ValidScope) (mode : scope.sessionMode = .dedicated) (req : Request)
    (sessionless : req.contextId = none) :
    (∀ s, (machine scope).Reachable s → ∀ (i : Nat) (h : Handler) result, s.handlers[i]? = some h → h.req = req →
      h.pc = .returned result → ∀ c ∈ h.created, c ∉ s.pools.contexts ∨ tells result = some c) ↔
    req.hasDomain = false ∨ req.validateWait = .ok () := by
  constructor
  · intro kept
    rcases domain : req.hasDomain with _ | _
    · exact Or.inl rfl
    · rcases valid : req.validateWait with status | _
      · obtain ⟨s,run,h,at_,same,here,member,inside⟩ := rejected_orphans mode req sessionless domain valid
        rcases kept s run 0 h _ at_ same here 0 member with gone | told
        · exact absurd inside gone
        · simp [tells] at told
      · exact Or.inr rfl
  · rintro accepted s run i h result at_ rfl here c member
    rcases accepted with invalid | valid
    · simp [invalid_url_creates_nothing run i h at_ invalid] at member
    · rcases created_accounted mode run i h at_ c member with gone | carries | rejected | dropped
      · exact Or.inl gone
      · exact Or.inr (by rw [here] at carries; exact carries)
      · obtain ⟨status,wrong⟩ := rejected_invalid run i h at_ rejected
        simp [valid] at wrong
      · simp [here] at dropped

theorem orphan_free_first_request :
    ∃ s, (machine (ValidScope.small .dedicated)).exec (creates 0 ++ prepares 0 ++ answers 0)
        (machine (ValidScope.small .dedicated)).initial = some s ∧
      ((0 : ContextId) ∉ s.pools.contexts ∨ tells (.ok (Page.fine.reply (some 0))) = some 0) := by
  have ran : (machine (ValidScope.small .dedicated)).exec (creates 0 ++ prepares 0 ++ answers 0)
    (machine (ValidScope.small .dedicated)).initial = some _ := rfl
  exact ⟨_,ran,(orphan_free_iff (ValidScope.small .dedicated) rfl (Request.page none) rfl).mpr (Or.inr rfl) _
    (Machine.reachable_of_exec ran) 0 _ _ rfl rfl rfl 0 (by decide)⟩

/-- A session-less request with a wait of 40001 ms is answered with a status. -/
theorem status_orphans_context :
    ¬∀ scope : ValidScope, scope.sessionMode = .dedicated → ∀ s, (machine scope).Reachable s →
      ∀ (i : Nat) (h : Handler) result, s.handlers[i]? = some h → h.req.session scope = none →
      h.pc = .returned result → ∀ c ∈ h.created, c ∉ s.pools.contexts ∨ tells result = some c := by
  intro never
  have dedicated : (ValidScope.small .dedicated).sessionMode = .dedicated := rfl
  obtain ⟨s,run,h,at_,same,here,member,inside⟩ :=
    rejected_orphans dedicated { Request.page none with waitTimeoutMs := 40001 } rfl rfl rfl
  rcases never _ rfl s run 0 h _ at_ (by rw [same]; rfl) here 0 member with gone | told
  · exact gone inside
  · simp [tells] at told

/-- A context is as a request left it: in the pool, or lost to a replacement of the pool, or
removed by somebody else. -/
def Intact (p : Pools) (i : Nat) (c : ContextId) : Prop :=
  p.replaced c = true ∨ c ∈ p.contexts ∨ ∃ remover, (c,remover) ∈ p.removed ∧ remover ≠ some i

theorem Intact.remove (intact : Intact p i c) (d : ContextId) (others : r ≠ some i) : Intact (p.remove d r) i c := by
  rcases intact with gone | inside | ⟨remover,removed,other⟩
  · exact Or.inl (by simpa [Pools.replaced] using gone)
  · by_cases same : c = d
    · exact Or.inr (Or.inr ⟨r,(Pools.mem_removed p d r).mpr (Or.inr ⟨same ▸ inside,by rw [same]⟩),others⟩)
    · exact Or.inr (Or.inl (Pools.mem_remove.mpr ⟨inside,same⟩))
  · exact Or.inr (Or.inr ⟨remover,(Pools.mem_removed p d r).mpr (Or.inl removed),other⟩)

theorem Intact.replace (valid : p.Valid) (known : c < p.fresh) (i : Nat) : Intact (p.replace scope) i c :=
  Or.inl (valid.replaced_replace scope known)

/-- What another handler's step, or the monitor's, leaves of it. -/
theorem intact_step (base : Generations s) (known : c < s.pools.fresh) (taken : step scope s action = some t)
    (apart : ∀ choice, action ≠ .run j choice) (intact : Intact s.pools j c) : Intact t.pools j c := by
  cases step_steps taken with
  | arrive req => cases req.contextId <;> exact intact
  | @move h pools h' choice i at_ asks moved =>
    have others : some i ≠ some j := by simpa using fun same : i = j => apart choice (by rw [same])
    cases next_move moved with
    | create => exact intact.imp_right (Or.imp_left fun inside => List.mem_append_left _ inside)
    | retire => exact intact.remove _ others
    | leave => exact intact.remove _ others
    | lose => exact intact.remove _ others
    | discard => exact intact.remove _ others
    | swap => exact .replace base.pools known j
    | _ => exact intact
  | expire d => exact intact.remove d (by simp)
  | _ => exact intact

/-- What a handler carries after a step it carried before, its own removals aside, or has
just found in the pool. -/
theorem move_intact (mode : scope.sessionMode = .dedicated) (shaped : h.pc.Shaped scope)
    (moved : Move scope p i h terminating pools h') (carries : h'.pc.carries = some c) :
    (h.pc.carries = some c ∧ (pools = p ∨ pools = p.replace scope)) ∨ c ∈ pools.contexts := by
  cases moved with
  | echo here ok echoes =>
    simp only [ok,Handler.goto,Pc.carries,Pc.result,tells,echoes] at carries
    obtain ⟨_,inside⟩ := Option.filter_eq_some_iff.mp carries
    exact Or.inr (by simpa using inside)
  | find here session inside =>
    obtain rfl := by simpa [Handler.goto,Pc.carries,Pc.result,Pc.context,Pc.unread] using carries
    exact Or.inr inside
  | create here =>
    obtain rfl := Option.some.inj ((bindContext_carries _ _ _).symm.trans carries)
    exact Or.inr (by simp [Pools.create])
  | reuse here reusable => simp [mode] at reusable
  | keep here => exact Or.inl ⟨by rw [here]; exact carries,Or.inl rfl⟩
  | observe here =>
    rcases here with ⟨retry,here,rfl⟩ | ⟨a,here,rfl⟩
    · simp [Handler.goto,Pc.carries,Pc.result,Pc.context,Pc.unread,Pc.attempt,Back.attempt?] at carries
    · exact Or.inl ⟨by rw [here]; exact carries,Or.inl rfl⟩
  | launch here => exact Or.inl ⟨by rw [here]; exact carries,Or.inl rfl⟩
  | swap here => exact Or.inl ⟨by rw [here]; exact carries,Or.inr rfl⟩
  | read here => exact Or.inl ⟨by rw [here]; exact carries,Or.inl rfl⟩
  | walk attempt running inside plain =>
    refine Or.inl ⟨?_,Or.inl rfl⟩
    rw [Pc.carries_of_running attempt running,← Pc.plain_carries plain inside]
    exact carries
  | early here => exact Or.inl ⟨by rw [here]; exact carries,Or.inl rfl⟩
  | leave here => simp [here,Pc.Shaped,mode] at shaped
  | fail attempt running unlocked keeping =>
    refine Or.inl ⟨?_,Or.inl rfl⟩
    rw [Pc.carries_of_running attempt running,← addressable_dedicated mode,← tells_keeping keeping]
    exact carries
  | giveBack attempt running =>
    refine Or.inl ⟨?_,Or.inl rfl⟩
    rw [Pc.carries_of_running attempt running]
    exact carries
  | discard here =>
    simp only [here,Pc.Shaped] at shaped
    simp [Handler.goto,Pc.carries,Pc.result,tells,shaped] at carries
  | settle here => exact Or.inl ⟨by rw [here]; exact carries,Or.inl rfl⟩
  | leaveHandler here => exact Or.inl ⟨by rw [here]; exact carries,Or.inl rfl⟩
  | refuse _ _ silent | miss _ _ _ silent | retire _ _ silent | giveUp _ silent | bumpAttempt _ silent | lose _ silent =>
    simp [Handler.goto,Pc.carries,Pc.result,tells_silent silent] at carries
  | _ => contradiction

theorem Intact.of_replaced_or_same (base : Generations s) (known : c < s.pools.fresh) (intact : Intact s.pools i c)
    (same : pools = s.pools ∨ pools = s.pools.replace scope) : Intact pools i c := by
  rcases same with rfl | rfl
  · exact intact
  · exact .replace base.pools known i

/-- What a handler carries is known, and was not removed by that handler. -/
theorem carried_intact (mode : scope.sessionMode = .dedicated) (run : (machine scope).Reachable s) :
    ∀ (i : Nat) (h : Handler), s.handlers[i]? = some h → ∀ c, h.pc.carries = some c →
      c < s.pools.fresh ∧ Intact s.pools i c := by
  refine Machine.Reachable.invariant (P := fun s => ∀ (i : Nat) (h : Handler), s.handlers[i]? = some h →
    ∀ c, h.pc.carries = some c → c < s.pools.fresh ∧ Intact s.pools i c)
    (by simp [machine,initial]) (fun s action t run before taken => ?_) run
  have base := generations run
  refine each_step (P := fun p i h => ∀ c, h.pc.carries = some c → c < p.fresh ∧ Intact p i c) taken
    (by simp [Pc.carries,Pc.result,Pc.context,Pc.unread,Pc.attempt]) ?_ ?_ before
  · intro i h pools h' at_ turn _ _ carried c carries
    cases turn with
    | move asks moved =>
      rcases move_intact mode (shaped_run run i h at_) moved carries with ⟨old,same⟩ | inside
      · obtain ⟨known,intact⟩ := carried c old
        exact ⟨Nat.lt_of_lt_of_le known (move_later moved).fresh,intact.of_replaced_or_same base known same⟩
      · exact ⟨((move_valid base.pools moved).inside c inside).1,Or.inr (Or.inl inside)⟩
    | grant => exact carried c (carries_granted h.pc ▸ carries)
    | drop => simp [Pc.carries,Pc.result,Pc.context,Pc.unread,Pc.attempt] at carries
  · intro j h at_ apart carried c carries
    obtain ⟨known,intact⟩ := carried c carries
    exact ⟨Nat.lt_of_lt_of_le known (step_later taken).fresh,intact_step base known taken apart intact⟩

def Pc.offering : Pc → Bool
  | .finishing result => (tells result).isSome
  | _ => false

/-- No pool is swapped while a response with a session id is about to be returned, and an
attempt whose result names a context of a replaced pool is a failed first attempt that
compares generations after the bump. -/
def keepsOffers (s : State) : Action → Bool
  | .run i _ =>
    match s.handlers[i]? with
    | some h =>
      match h.pc with
      | .replace .. => s.handlers.all (fun other => !other.pc.offering)
      | .ended a _ result =>
        !s.pools.replaced a.context || (tells result).isNone ||
          (a.generation.isSome && isFailure result && s.handlers.all (fun other => !other.pc.bumps))
      | _ => true
    | none => true
  | _ => true

def punctual (s : State) (action : Action) : Bool := readsInTime s action && keepsOffers s action

/-- A handler decides to return a session id when it has just seen the context in the
pool, or when its attempt has ended and is not retried. -/
theorem move_offers (moved : Move scope p i h terminating pools h') (here : h'.pc = .finishing result)
    (told : tells result = some c) :
    c ∈ pools.contexts ∨ (pools = p ∧ ∃ a replaced, h.pc = .ended a replaced result ∧
      ∀ generation, a.generation = some generation → p.generation = generation ∨ isFailure result = false) := by
  cases moved with
  | settle at_ final =>
    obtain rfl := by simpa [Handler.goto] using here
    exact Or.inr ⟨rfl,_,_,at_,final⟩
  | echo at_ ok echoes =>
    obtain rfl := by simpa [Handler.goto] using here
    simp only [ok,tells,echoes] at told
    obtain ⟨_,inside⟩ := Option.filter_eq_some_iff.mp told
    exact Or.inl (by simpa using inside)
  | refuse _ _ silent | miss _ _ _ silent | retire _ _ silent | giveUp _ silent =>
    obtain rfl := by simpa [Handler.goto] using here
    simp [tells_silent silent] at told
  | @create retry => cases retry <;> simp [bindContext,Handler.goto] at here
  | @reuse retry => cases retry <;> simp [bindContext,Handler.goto] at here
  | walk at_ running inside plain =>
    simp only at here
    simp [here,Pc.plain] at plain
  | _ => contradiction

/-- Whoever is about to return a session id returns one of the current pool. -/
theorem offered_current (mode : scope.sessionMode = .dedicated)
    (run : (machine scope).Reach (fun s action => punctual s action = true) s) :
    ∀ (i : Nat) (h : Handler), s.handlers[i]? = some h → ∀ result c, h.pc = .finishing result →
      tells result = some c → s.pools.replaced c = false := by
  refine Machine.Reach.invariant (P := fun s => ∀ (i : Nat) (h : Handler), s.handlers[i]? = some h →
    ∀ result c, h.pc = .finishing result → tells result = some c → s.pools.replaced c = false)
    (by simp [machine,initial]) (fun s action t run before met taken => ?_) run
  have base := generations run.reachable
  have offers := (Bool.and_eq_true_iff.mp met).2
  refine each_step (P := fun p _ h => ∀ result c, h.pc = .finishing result → tells result = some c →
    p.replaced c = false) taken (by simp) ?_ ?_ before
  · intro i h pools h' at_ turn _ _ _ result c here told
    cases turn with
    | move asks moved runs =>
      rcases move_offers moved here told with inside | ⟨rfl,a,replaced,ended,final⟩
      · exact Bool.eq_false_iff.mpr fun gone => (move_valid base.pools moved).outside gone inside
      · refine Bool.eq_false_iff.mpr fun gone => ?_
        obtain rfl : c = a.context := by
          have shaped := shaped_run run.reachable i h at_
          rw [ended] at shaped
          exact shaped c told
        simp only [runs,keepsOffers,at_,ended,gone,told,Bool.not_true,Option.isNone_some,Bool.false_or,
          Bool.and_eq_true,List.all_eq_true,Bool.not_eq_true'] at offers
        obtain ⟨⟨first,failed⟩,compared⟩ := offers
        obtain ⟨generation,first⟩ := Option.isSome_iff_exists.mp first
        have timely := timely_run run (fun _ _ met => (Bool.and_eq_true_iff.mp met).1) i h at_
        rcases timely.moved a generation (by rw [ended]; rfl) first gone with moved | ⟨j,k,back,found,bumps⟩
        · rcases final generation first with same | succeeded
          · exact moved same.symm
          · simp [failed] at succeeded
        · simpa [bumps,Pc.bumps] using compared k (List.mem_of_getElem? found)
    | grant asks => cases at_ : h.pc <;> simp [at_,Pc.asks,Handler.granted,Pc.granted] at asks here
    | drop => simp at here
  · intro j k found _ current result c here told
    have known := (carried_intact mode run.reachable j k found c (by rw [here]; exact told)).1
    rcases step_number taken with ⟨same,_⟩ | ⟨i,choice,h,dead,back,rfl,at_,swaps,_,_⟩
    · rw [(step_later taken).replaced_same same known]
      exact current result c here told
    · simp only [keepsOffers,at_,swaps,List.all_eq_true,Bool.not_eq_true'] at offers
      have := offers k (List.mem_of_getElem? found)
      simp [here,Pc.offering,told] at this

def Pc.early : Pc → Bool
  | .arrived | .echoing | .echo | .lookingUp | .lookup => true
  | _ => false

theorem early_granted (pc : Pc) : pc.granted.early = pc.early := by cases pc <;> rfl

theorem Request.contextId_of_session {req : Request} (session : req.session scope = some c) : req.contextId = some c := by
  unfold Request.session at session
  split at session
  · exact session
  · contradiction

/-- Once its session is looked up, the context a request names is accounted for. -/
theorem move_session (early : h.pc.early = true) (session : h.req.session scope = some c) (alive : terminating = false)
    (moved : Move scope p i h terminating pools h') : h'.pc.early = true ∨ Accounted pools h' c := by
  cases moved with
  | refuse at_ why => simp [alive,session] at why
  | look | ask => exact Or.inl rfl
  | echo at_ ok echoes =>
    by_cases inside : c ∈ p.contexts
    · refine Or.inr (Or.inr (Or.inl ?_))
      simp [Handler.goto,Pc.carries,Pc.result,ok,tells,echoes,session,inside]
    · exact Or.inr (Or.inl inside)
  | find at_ found =>
    obtain rfl := Option.some.inj (session.symm.trans found)
    exact Or.inr (Or.inr (Or.inl rfl))
  | miss at_ named outside =>
    obtain rfl := Option.some.inj (session.symm.trans named)
    exact Or.inr (Or.inl outside)
  | unlock at_ none_ => simp [none_] at session
  | giveUp at_ =>
    rcases at_ with ⟨_,_,at_⟩ | ⟨_,_,at_⟩ <;> rw [at_] at early <;> contradiction
  | observe at_ =>
    rcases at_ with ⟨_,at_,_⟩ | ⟨_,at_,_⟩ <;> rw [at_] at early <;> contradiction
  | walk attempt | fail attempt | giveBack attempt => cases here : h.pc <;> simp_all [Pc.early,Pc.attempt]
  | keep at_ | retire at_ | create at_ | reuse at_ | launch at_ | swap at_ | bumpAcquire at_ | bumpAttempt at_ | read at_
  | early at_ | leave at_ | reject at_ | lose at_ | discard at_ | retry at_ | settle at_ | leaveHandler at_ =>
    rw [at_] at early
    contradiction

theorem step_alive (taken : step scope s action = some t) (alive : t.terminating = false) : s.terminating = false := by
  cases step_steps taken with
  | terminate => simp at alive
  | _ => exact alive

theorem session_accounted (mode : scope.sessionMode = .dedicated) (run : (machine scope).Reachable s) :
    s.terminating = false → ∀ (i : Nat) (h : Handler), s.handlers[i]? = some h →
      ∀ c, h.req.session scope = some c → h.pc.early = true ∨ Accounted s.pools h c := by
  refine Machine.Reachable.invariant (P := fun s => s.terminating = false → ∀ (i : Nat) (h : Handler),
    s.handlers[i]? = some h → ∀ c, h.req.session scope = some c → h.pc.early = true ∨ Accounted s.pools h c)
    (by simp [machine,initial]) (fun s action t run before taken alive => ?_) run
  have base := generations run
  have running := step_alive taken alive
  refine each_step (P := fun p _ h => ∀ c, h.req.session scope = some c → h.pc.early = true ∨ Accounted p h c) taken
    (fun _ _ _ _ => Or.inl rfl) ?_ ?_ (before running)
  · intro i h pools h' at_ turn _ _ accounted c session
    have same : h'.req = h.req := by
      cases turn with
      | move asks moved => exact move_req moved
      | _ => rfl
    rw [same] at session
    rcases accounted c session with early | accounted
    · cases turn with
      | move asks moved => exact move_session early session running moved
      | grant asks =>
        exact Or.inl ((early_granted h.pc).trans early)
      | drop => exact Or.inr (Or.inr (Or.inr (Or.inr rfl)))
    · exact Or.inr (turn_accounted mode base (shaped_run run i h at_) at_ turn
        ((base.known i h at_).asked c (Request.contextId_of_session session)) accounted)
  · intro j h at_ _ accounted c session
    exact (accounted c session).imp_right fun kept => kept.later (step_later taken)
      ((base.known j h at_).asked c (Request.contextId_of_session session))

/-- In a run whose answers are punctual, a response that is returned names no context of a
replaced pool and none its own request removed; and, in every run, a continuation that is
answered without a session has lost its context. -/
theorem session_contract (scope : ValidScope) (mode : scope.sessionMode = .dedicated) (s t : State)
    (run : (machine scope).Reach (fun s action => punctual s action = true) s) (i : Nat) (h : Handler) (reply : Reply)
    (choice : Choice) (at_ : s.handlers[i]? = some h) (here : h.pc = .finishing (.ok reply))
    (returns : step scope s (.run i choice) = some t) (alive : t.terminating = false) :
    (∀ c, reply.contextId = some c → t.pools.home c = t.pools.number ∧
      (c ∈ t.pools.contexts ∨ ∃ remover, (c,remover) ∈ t.pools.removed ∧ remover ≠ some i)) ∧
    (reply.contextId = none → ∀ c, h.req.session scope = some c → c ∉ t.pools.contexts) := by
  obtain rfl : t = { s with handlers := s.handlers.set i { h with outer := false, pc := .returned (.ok reply) } } := by
    simp only [step,at_,here,Pc.asks,next,finishNext] at returns
    exact (Option.some.inj returns).symm
  constructor
  · intro c told
    have current := offered_current mode run i h at_ (.ok reply) c here told
    refine ⟨Classical.byContradiction fun moved => ?_,?_⟩
    · simp [Pools.replaced_iff.mpr moved] at current
    · have carried := (carried_intact mode run.reachable i h at_ c (by rw [here]; exact told)).2
      exact carried.resolve_left (by simp [current])
  · intro silent c session
    rcases session_accounted mode run.reachable alive i h at_ c session with early | gone | carries | rejected | dropped
    · simp [here,Pc.early] at early
    · exact gone
    · simp [here,Pc.carries,Pc.result,tells,silent] at carries
    · simp [here,Pc.rejected,Pc.result,isStatus] at rejected
    · simp [here] at dropped

/-- The first request of a worker is answered with the session it started. -/
theorem session_contract_first_request :
    ∃ s t, (machine (ValidScope.small .dedicated)).exec (creates 0 ++ prepares 0 ++ (answers 0).dropLast)
        (machine (ValidScope.small .dedicated)).initial = some s ∧
      step (ValidScope.small .dedicated) s (.run 0 .go) = some t ∧ t.pools.home 0 = t.pools.number := by
  have ran : (machine (ValidScope.small .dedicated)).exec (creates 0 ++ prepares 0 ++ (answers 0).dropLast)
    (machine (ValidScope.small .dedicated)).initial = some _ := rfl
  have meets : (machine (ValidScope.small .dedicated)).Meets (fun s action => punctual s action = true)
    (creates 0 ++ prepares 0 ++ (answers 0).dropLast) (machine (ValidScope.small .dedicated)).initial := by decide +kernel
  exact ⟨_,_,ran,rfl,((session_contract (ValidScope.small .dedicated) rfl _ _ (Machine.Reach.exec_meets .initial ran meets)
    0 _ (Page.fine.reply (some 0)) .go rfl rfl rfl rfl).1 0 rfl).1⟩

/-- A request fails on a pool that was replaced before it read the generation, and its
client is told the session of the old pool. -/
theorem late_read_tells_dead_session :
    ¬∀ scope : ValidScope, scope.sessionMode = .dedicated → ∀ s, (machine scope).Reachable s → s.terminating = false →
      ∀ (i : Nat) (h : Handler) reply c, s.handlers[i]? = some h → h.pc = .finishing (.ok reply) →
      reply.contextId = some c → s.pools.home c = s.pools.number := by
  intro never
  have ran : (machine (ValidScope.small .dedicated)).exec (outlived false ++ [.run 0 .go])
    (machine (ValidScope.small .dedicated)).initial = some _ := rfl
  have told := never (ValidScope.small .dedicated) rfl _ (Machine.reachable_of_exec ran) rfl 0 _
    (.failure .browserError (some 0)) 0 rfl rfl rfl
  exact absurd told (by decide +kernel)

end BrowserHive.Worker
