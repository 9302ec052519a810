import BrowserHive.Pool.Calls

/-! Where the CDP contexts and tabs of a pool are. Whatever Chrome has opened is held by a
context in the pool, owned by a running task, or has been given to disposal. Two drops of
a caller's future break this: with an unread creation in the channel, and with a built
context waiting for the lock. -/
namespace BrowserHive.Pool

open BrowserHive Transition

variable {cfg : Config} {p pool : PoolState} {tasks : List Pc} {pc pc' : Pc} {spawned : List Pc}

def PoolState.resources (p : PoolState) (c : ContextId) : List Resource :=
  resourcesOf (p.ctx c).tab (p.ctx c).cdpContextId

def Opened (p : PoolState) : Resource → Prop
  | .tab id => id < p.nextTab
  | .cdpContext id => id < p.nextCdpContext

/-- The contexts outside the pool that a task is about to put into it or to release. -/
def Pc.keeps : Pc → List ContextId
  | .pushing c => [c]
  | .swapping new _ _ => [new]
  | .releasing todo _ => todo
  | _ => []

def Pc.slots (p : PoolState) : Pc → List Slot
  | .closure _ (.newTab _ cdpContextId) => [⟨none,cdpContextId⟩]
  | .answering j => (p.calls j).thread.value.toList
  | .waiting j | .rebuilding j _ _ =>
    (CdpCall.unread (p.calls j).channel).toList ++ (p.calls j).caller.value.toList
  | _ => []

def Pc.holds (p : PoolState) (pc : Pc) (r : Resource) : Prop :=
  (∃ c ∈ pc.keeps, r ∈ p.resources c) ∨ ∃ slot ∈ pc.slots p, r ∈ slot.resources

/-- Held by a context in the pool, owned by a task that is still running, or given to
disposal. -/
def Referenced (s : State) (r : Resource) : Prop :=
  (∃ c ∈ s.pool.contexts, r ∈ s.pool.resources c) ∨
  (∃ pc ∈ s.tasks, pc.holds s.pool r) ∨
  r ∈ s.pool.disposed

instance {p : PoolState} {pc : Pc} {r : Resource} : Decidable (pc.holds p r) :=
  inferInstanceAs (Decidable (_ ∨ _))

instance {s : State} {r : Resource} : Decidable (Referenced s r) :=
  inferInstanceAs (Decidable (_ ∨ _ ∨ _))

/-- Tab locks are free: `release_context` neither times out nor suspends. -/
def tabLocksFree (s : State) : Action → Bool
  | .run _ choice => choice ≠ .tabLockTimeout
  | .cancel i =>
    match s.tasks[i]? with
    | some (.releasing ..) => false
    | _ => true
  | _ => true

/-- No caller's future is dropped while a finished creation waits unread in its channel, or
while a built context waits for the lock to be put into the pool. -/
def keepsCreations (s : State) : Action → Bool
  | .cancel i =>
    match s.tasks[i]? with
    | some (.waiting j) => (CdpCall.unread (s.pool.calls j).channel).isNone
    | some (.pushing _) => false
    | _ => true
  | _ => true

def Pc.spent : Pc → List ContextId
  | .rebuilding _ old _ | .swapping _ old _ => [old]
  | _ => []

def InFlight (p : PoolState) (r : Resource) : Prop :=
  ∃ j, j < p.nextCall ∧ (p.calls j).channel.closed = false ∧
    ∃ slot, CdpCall.unread (p.calls j).channel = some slot ∧ r ∈ slot.resources

/-- Where a step may leave something it had in its hands. -/
def Home (pool : PoolState) (pc' : Pc) (r : Resource) : Prop :=
  (∃ c ∈ pool.contexts, r ∈ pool.resources c) ∨ pc'.holds pool r ∨ r ∈ pool.disposed ∨ InFlight pool r

structure Kept (p : PoolState) (pc : Pc) (pool : PoolState) (pc' : Pc) : Prop where
  disposed : ∀ r ∈ p.disposed, r ∈ pool.disposed
  ctx : ∀ c, c ≠ p.fresh → ∀ r ∈ p.resources c, r ∈ pool.resources c ∨ r ∈ pool.disposed
  shrinks : ∀ c, c ≠ p.fresh → ∀ r ∈ pool.resources c, r ∈ p.resources c
  contexts : ∀ c ∈ p.contexts, c ∈ pool.contexts ∨ c ∈ pc'.keeps ∨ c ∈ pc.spent
  keeps : ∀ c ∈ pc.keeps, c ∈ pc'.keeps ∨ c ∈ pool.contexts ∨ ∀ r ∈ p.resources c, r ∈ pool.disposed
  slots : ∀ slot ∈ pc.slots p, ∀ r ∈ slot.resources, Home pool pc' r
  opened : ∀ r, Opened pool r → Opened p r ∨ pc'.holds pool r
  spent : ∀ c ∈ pc'.spent, c ∈ pc.spent ∨ ∀ r ∈ pool.resources c, r ∈ pool.disposed
  cleaned : ∀ j slot, pc = .answering j → (p.calls j).thread = .orphaned slot →
    ∀ r ∈ slot.resources, r ∈ pool.disposed
  received : ∀ j, pc.caller = some j → pc'.caller = none → CdpCall.unread (p.calls j).channel = none

section Frame

variable (p : PoolState) (c d : ContextId) (f : BrowserContext → BrowserContext) (busy : Bool)
  (cfg : Config) (slot : Slot)

@[simp] theorem PoolState.addContext_resources (older : c ≠ p.fresh) :
    (p.addContext slot busy).resources c = p.resources c := by
  simp [resources,addContext,older]

@[simp] theorem PoolState.addContext_resources_fresh :
    (p.addContext slot busy).resources p.fresh = slot.resources := by
  simp [resources,addContext,Slot.resources,BrowserContext.new]

theorem PoolState.modify_resources (tab : (f (p.ctx c)).tab = (p.ctx c).tab)
    (cdp : (f (p.ctx c)).cdpContextId = (p.ctx c).cdpContextId) :
    (p.modify c f).resources d = p.resources d := by
  by_cases same : d = c
  · subst same
    simp [resources,modify,tab,cdp]
  · simp [resources,modify,same]

@[simp] theorem PoolState.setBusy_resources : (p.setBusy c busy).resources d = p.resources d :=
  modify_resources p c d _ rfl rfl

/-- What `release_context` takes out of a context it hands over. -/
theorem PoolState.release_disposes (connected : cfg.disposer = true) :
    ∀ r ∈ p.resources c, r ∈ (p.release cfg c).disposed := by
  intro r member
  exact List.mem_append_right _ (by simpa [connected,resources] using member)

theorem PoolState.release_resources_subset :
    ∀ r ∈ (p.release cfg c).resources d, r ∈ p.resources d := by
  intro r member
  by_cases same : d = c
  · subst same
    exact List.mem_append_right _ (by simpa [resources,release,modify,resourcesOf] using member)
  · simpa [resources,release,modify,same] using member

theorem PoolState.release_resources_kept (connected : cfg.disposer = true) :
    ∀ r ∈ p.resources d, r ∈ (p.release cfg c).resources d ∨ r ∈ (p.release cfg c).disposed := by
  intro r member
  by_cases same : d = c
  · subst same
    exact .inr (release_disposes p d cfg connected r member)
  · exact .inl (by simpa [resources,release,modify,same] using member)

theorem PoolState.discard_disposes (connected : cfg.disposer = true) :
    ∀ r ∈ slot.resources, r ∈ (p.discard cfg slot).disposed := by
  intro r member
  exact List.mem_append_right _ (by simpa [connected,Slot.resources] using member)

end Frame

/-- A step that opens and closes nothing, and at most moves contexts between the pool and
the task. -/
theorem Kept.still (resources : ∀ c, pool.resources c = p.resources c) (disposed : pool.disposed = p.disposed)
    (tabs : pool.nextTab = p.nextTab) (cdps : pool.nextCdpContext = p.nextCdpContext)
    (contexts : ∀ c ∈ p.contexts, c ∈ pool.contexts ∨ c ∈ pc'.keeps ∨ c ∈ pc.spent)
    (keeps : ∀ c ∈ pc.keeps, c ∈ pc'.keeps ∨ c ∈ pool.contexts) (spent : ∀ c ∈ pc'.spent, c ∈ pc.spent)
    (slots : ∀ slot ∈ pc.slots p, ∀ r ∈ slot.resources, Home pool pc' r)
    (cleaned : ∀ j slot, pc = .answering j → (p.calls j).thread ≠ .orphaned slot)
    (received : ∀ j, pc.caller = some j → pc'.caller = none → CdpCall.unread (p.calls j).channel = none) :
    Kept p pc pool pc' where
  disposed r member := disposed ▸ member
  ctx c _ r member := .inl (by rwa [resources c])
  shrinks c _ r member := by rwa [← resources c]
  contexts := contexts
  keeps c member := (keeps c member).imp_right .inl
  slots := slots
  opened r open_ := .inl (by cases r <;> simpa [Opened,tabs,cdps] using open_)
  spent c member := .inl (spent c member)
  cleaned j slot answers orphaned := absurd orphaned (cleaned j slot answers)
  received := received

/-- Such a step of a task that has nothing in its hands. -/
theorem Kept.quiet (resources : ∀ c, pool.resources c = p.resources c) (disposed : pool.disposed = p.disposed)
    (tabs : pool.nextTab = p.nextTab) (cdps : pool.nextCdpContext = p.nextCdpContext)
    (contexts : ∀ c ∈ p.contexts, c ∈ pool.contexts ∨ c ∈ pc'.keeps ∨ c ∈ pc.spent)
    (keeps : ∀ c ∈ pc.keeps, c ∈ pc'.keeps ∨ c ∈ pool.contexts) (slots : pc.slots p = [])
    (spent : ∀ c ∈ pc'.spent, c ∈ pc.spent) (thread : pc.thread = none) (caller : pc.caller = none) :
    Kept p pc pool pc' := by
  apply Kept.still resources disposed tabs cdps contexts keeps spent
  · intro slot member
    simp [slots] at member
  · intro j slot answers
    simp [answers,Pc.thread] at thread
  · intro j own
    simp [caller] at own

theorem await_kept {choice : Choice} (valid : ∀ j, CdpCall.Invariant (p.calls j)) (waits : pc.caller = some j)
    (holds : ∀ p, pc.slots p = (CdpCall.unread (p.calls j).channel).toList ++ (p.calls j).caller.value.toList)
    (keeps : pc.keeps = []) (chosen : choice.event = some event) (stepped : Steps name p j event call) :
    Kept p pc (p.setCall j call) pc := by
  have stays : ¬CdpCall.DropsUnread (p.calls j) event := fun drops => (caller_event chosen).1 drops.1
  refine .still (fun _ => rfl) rfl rfl rfl (fun _ inside => .inl inside) (by simp [keeps]) (fun _ member => member)
    ?_ ?_ ?_
  · intro slot member r inside
    have before : CdpCall.unread (p.calls j).channel = some slot ∨ (p.calls j).caller.value = some slot := by
      simpa [holds] using member
    have after := CdpCall.step_caller_value (valid j) stepped stays before
    exact .inr (.inl (.inr ⟨slot,by simpa [holds,PoolState.setCall] using after,inside⟩))
  · rintro k slot rfl
    simp [Pc.caller] at waits
  · intro k own gone
    simp [waits] at gone

/-- A call that has returned has nothing left in its channel. -/
theorem drained_of_returned (valid : CdpCall.Invariant (p.calls j)) (returned : (p.calls j).caller = .returned result) :
    CdpCall.unread (p.calls j).channel = none := by
  rw [CdpCall.unread,(valid.received (by rw [returned]; rfl)).1]
  rfl

/-- What a call returned goes into the context made from it. -/
theorem create_kept (slot : Slot) (busy : Bool) (waits : pc.caller = some j)
    (holds : pc.slots p = (CdpCall.unread (p.calls j).channel).toList ++ (p.calls j).caller.value.toList)
    (keeps : pc.keeps = []) (valid : CdpCall.Invariant (p.calls j))
    (returned : (p.calls j).caller = .returned result) (value : ∀ s, result = .ok s → s = slot)
    (created : p.fresh ∈ pc'.keeps) (spent : ∀ c ∈ pc'.spent, c ∈ pc.spent) :
    Kept p pc (p.addContext slot busy) pc' := by
  have drained := drained_of_returned valid returned
  constructor
  case slots =>
    intro s member r inside
    have same : s = slot := by
      cases result <;> simp_all [CdpCall.Caller.value]
    refine .inr (.inl (.inl ⟨p.fresh,created,?_⟩))
    rwa [PoolState.addContext_resources_fresh,← same]
  case cleaned => exact fun k slot answers => by simp [answers,Pc.caller] at waits
  case received =>
    intro k own _
    obtain rfl := Option.some.inj (waits.symm.trans own)
    exact drained
  case contexts => exact fun c inside => .inl inside
  case keeps => simp [keeps]
  case ctx => exact fun c older r member => .inl (by rwa [PoolState.addContext_resources p c busy slot older])
  case shrinks => exact fun c older r member => by rwa [PoolState.addContext_resources p c busy slot older] at member
  case disposed => exact fun r member => member
  case opened => exact fun r open_ => .inl (by cases r <;> exact open_)
  case spent => exact fun c member => .inl (spent c member)

attribute [simp] Pc.keeps Pc.spent

theorem Kept.counted (kept : Kept p pc pool pc') (created : Nat) :
    Kept p pc { pool with totalContextsCreated := created } pc' :=
  ⟨kept.disposed,kept.ctx,kept.shrinks,kept.contexts,kept.keeps,kept.slots,kept.opened,kept.spent,kept.cleaned,
    kept.received⟩

theorem Walk.kept (free : choice ≠ .tabLockTimeout) (walks : Walk cfg p tasks choice pc pc') : Kept p pc p pc' := by
  cases walks with
  | tabLockTimeout chosen => exact absurd chosen free
  | @answered j sent kept =>
    have none_ : (p.calls j).thread.value = none := by
      cases at_ : (p.calls j).thread with
      | returned result => exact absurd at_ (sent result)
      | orphaned slot => exact absurd at_ (kept slot)
      | _ => rfl
    refine .still (fun _ => rfl) rfl rfl rfl (fun _ inside => .inl inside) (by simp) (by simp) ?_ ?_ ?_
    · simp [Pc.slots,none_]
    · intro k slot answers
      obtain rfl : j = k := by simpa using answers
      exact kept slot
    · simp [Pc.caller]
  | _ => exact .quiet (fun _ => rfl) rfl rfl rfl (fun _ inside => .inl inside) (by simp) rfl (by simp) rfl rfl

theorem release_kept (connected : cfg.disposer = true) :
    Kept p (.releasing (c :: todo) after) (p.release cfg c) (.releasing todo after) := by
  constructor
  case keeps =>
    intro d member
    rcases List.mem_cons.mp member with rfl | later
    · exact .inr (.inr (p.release_disposes d cfg connected))
    · exact .inl later
  case ctx => exact fun d _ => p.release_resources_kept c d cfg connected
  case shrinks => exact fun d _ => p.release_resources_subset c d cfg
  case disposed => exact fun r member => List.mem_append_left _ member
  case contexts => exact fun d inside => .inl inside
  case opened => exact fun r open_ => .inl (by cases r <;> exact open_)
  all_goals simp [Pc.slots,Pc.caller]

/-- What the monitor recycles is disposed of before its successor is built. -/
theorem recycle_kept (connected : cfg.disposer = true) :
    Kept p (.recycling (old :: todo)) (spawnCall (p.release cfg old)) (.rebuilding p.nextCall old todo) := by
  constructor
  case spent =>
    intro c member
    obtain rfl : c = old := by simpa using member
    exact .inr fun r inside =>
      p.release_disposes c cfg connected r (p.release_resources_subset c c cfg r inside)
  case ctx => exact fun c _ => p.release_resources_kept old c cfg connected
  case shrinks => exact fun c _ => p.release_resources_subset old c cfg
  case disposed => exact fun r member => List.mem_append_left _ member
  case contexts => exact fun c inside => .inl inside
  case opened => exact fun r open_ => .inl (by cases r <;> exact open_)
  all_goals simp [Pc.slots,Pc.caller]

/-- The new context is in the pool where the recycled one was. -/
theorem swap_kept (member : old ∈ p.contexts) (contexts : pool.contexts = p.contexts.set (p.contexts.idxOf old) new)
    (resources : ∀ c, pool.resources c = p.resources c) (disposed : pool.disposed = p.disposed)
    (tabs : pool.nextTab = p.nextTab) (cdps : pool.nextCdpContext = p.nextCdpContext) :
    Kept p (.swapping new old todo) pool (.recycling todo) := by
  obtain ⟨left,right,split,swapped⟩ := set_idxOf member new
  refine .quiet resources disposed tabs cdps (fun c inside => ?_) (fun c kept => ?_) rfl (by simp) rfl rfl
  · rw [contexts,swapped]
    rw [split] at inside
    simp only [List.mem_append,List.mem_cons,Pc.keeps,Pc.spent,List.not_mem_nil,or_false] at inside ⊢
    tauto
  · obtain rfl : c = new := by simpa using kept
    right
    rw [contexts,swapped]
    simp

theorem remove_kept (unheld : pc.keeps = []) (slots : pc.slots p = []) (thread : pc.thread = none)
    (caller : pc.caller = none) :
    Kept p pc (removeContext p c).1 (.releasing (removeContext p c).2 after) := by
  refine .quiet (fun _ => rfl) rfl rfl rfl (fun d inside => ?_) (fun d kept => ?_) slots (by simp) thread caller
  · by_cases same : d = c
    · exact .inr (.inl (List.mem_filter.mpr ⟨inside,by simpa using same⟩))
    · exact .inl (List.mem_filter.mpr ⟨inside,by simpa using same⟩)
  · rw [unheld] at kept
    contradiction

/-- The blocking thread has its result: what it had opened is in it, or was given back. -/
theorem return_kept (q : PoolState) (ctx : q.ctx = p.ctx) (contexts : q.contexts = p.contexts)
    (disposed : ∀ r ∈ p.disposed, r ∈ q.disposed)
    (goes : ∀ slot ∈ (Pc.closure j stage).slots p, ∀ r ∈ slot.resources,
      r ∈ q.disposed ∨ ∃ made, result = .ok made ∧ r ∈ made.resources)
    (opened : ∀ r, Opened q r → Opened p r ∨ ∃ made, result = .ok made ∧ r ∈ made.resources)
    (stepped : Steps createCall p j (.closureReturns result) call) :
    Kept p (.closure j stage) (q.setCall j call) (.answering j) := by
  have holds : ∀ r, (∃ made, result = .ok made ∧ r ∈ made.resources) →
      (Pc.answering j).holds (q.setCall j call) r := by
    rintro r ⟨made,rfl,inside⟩
    refine .inr ⟨made,?_,inside⟩
    have value : call.thread = .returned (.ok made) := CdpCall.closure_returned stepped
    simp [Pc.slots,PoolState.setCall,value,CdpCall.Thread.value,CdpCall.produced]
  constructor
  case slots =>
    intro slot member r inside
    rcases goes slot member r inside with gone | made
    · exact .inr (.inr (.inl gone))
    · exact .inr (.inl (holds r made))
  case opened => exact fun r open_ => (opened r (by cases r <;> exact open_)).imp_right (holds r)
  case disposed => exact disposed
  case ctx => exact fun c _ r member => .inl (by simpa [PoolState.resources,PoolState.setCall,ctx] using member)
  case shrinks => exact fun c _ r member => by simpa [PoolState.resources,PoolState.setCall,ctx] using member
  case contexts => exact fun c inside => .inl (by simpa [contexts] using inside)
  all_goals simp [Pc.caller]

theorem Returns.kept (connected : cfg.disposer = true) (made : Returns cfg p choice stage q result)
    (stepped : Steps createCall p j (.closureReturns result) call) :
    Kept p (.closure j stage) (q.setCall j call) (.answering j) := by
  cases made with
  | noCdpContext | withoutCdpContext =>
    exact return_kept p rfl rfl (fun _ member => member) (by simp [Pc.slots]) (fun _ open_ => .inl open_) stepped
  | @noTab cdp =>
    refine return_kept (p.discard cfg ⟨none,cdp⟩) rfl rfl (fun _ member => List.mem_append_left _ member) ?_ ?_ stepped
    · intro slot member r inside
      obtain rfl : slot = ⟨none,cdp⟩ := by simpa [Pc.slots] using member
      exact .inl (p.discard_disposes cfg _ connected r inside)
    · intro r open_
      exact .inl (by cases r <;> exact open_)
  | @withoutTab cdp =>
    refine return_kept p rfl rfl (fun _ member => member) ?_ (fun _ open_ => .inl open_) stepped
    intro slot member r inside
    obtain rfl : slot = ⟨none,cdp⟩ := by simpa [Pc.slots] using member
    exact .inr ⟨_,rfl,inside⟩
  | @tab pipeline cdp =>
    refine return_kept { p with nextTab := p.nextTab + 1 } rfl rfl (fun _ member => member) ?_ ?_ stepped
    · intro slot member r inside
      obtain rfl : slot = ⟨none,cdp⟩ := by simpa [Pc.slots] using member
      exact .inr ⟨_,rfl,List.mem_append_right _ (by simpa [Slot.resources,resourcesOf] using inside)⟩
    · intro r open_
      cases r with
      | cdpContext id => exact .inl open_
      | tab id =>
        rcases Nat.lt_succ_iff_lt_or_eq.mp open_ with old | rfl
        · exact .inl old
        · exact .inr ⟨_,rfl,by simp [Slot.resources,resourcesOf]⟩

theorem cdpContext_kept (j : Nat) (pipeline : Pipeline) :
    Kept p (.closure j (.cdpContext pipeline)) { p with nextCdpContext := p.nextCdpContext + 1 }
      (.closure j (.newTab pipeline (some p.nextCdpContext))) := by
  constructor
  case opened =>
    intro r open_
    cases r with
    | tab id => exact .inl open_
    | cdpContext id =>
      rcases Nat.lt_succ_iff_lt_or_eq.mp open_ with old | rfl
      · exact .inl old
      · exact .inr (.inr ⟨⟨none,some p.nextCdpContext⟩,by simp [Pc.slots],by simp [Slot.resources,resourcesOf]⟩)
  case ctx => exact fun c _ r member => .inl member
  case shrinks => exact fun c _ r member => member
  case disposed => exact fun r member => member
  all_goals simp +contextual [Pc.slots,Pc.caller]

/-- A result that is sent is in the channel, or stays with the thread. -/
theorem send_kept (known : j < p.nextCall) (returned : (p.calls j).thread = .returned result)
    (stepped : Steps createCall p j .send call) : Kept p (.answering j) (p.setCall j call) (.answering j) := by
  refine .still (fun _ => rfl) rfl rfl rfl (fun _ inside => .inl inside) (by simp) (by simp) ?_ ?_ ?_
  · intro slot member r inside
    have value : (p.calls j).thread.value = some slot := by simpa [Pc.slots] using member
    rcases CdpCall.step_thread_value stepped value with kept | ⟨sent,open_⟩ | ⟨cleans,_⟩
    · exact .inr (.inl (.inr ⟨slot,by simpa [Pc.slots,PoolState.setCall] using kept,inside⟩))
    · refine .inr (.inr (.inr ⟨j,known,?_⟩))
      exact ⟨by simpa [PoolState.setCall] using open_,slot,by simpa [PoolState.setCall] using sent,inside⟩
    · contradiction
  · intro k slot answers
    obtain rfl : j = k := by simpa using answers
    simp [returned]
  · simp [Pc.caller]

theorem discard_kept (connected : cfg.disposer = true) (orphaned : (p.calls j).thread = .orphaned orphan) :
    Kept p (.answering j) ((p.setCall j call).discard cfg orphan) .finished := by
  have given := (p.setCall j call).discard_disposes cfg orphan connected
  constructor
  case slots =>
    intro slot member r inside
    obtain rfl : slot = orphan := by simpa [Pc.slots,orphaned,CdpCall.Thread.value] using member
    exact .inr (.inr (.inl (given r inside)))
  case cleaned =>
    intro k slot answers orphaned'
    obtain rfl : j = k := by simpa using answers
    obtain rfl : orphan = slot := by simpa [orphaned] using orphaned'
    exact given
  case ctx => exact fun c _ r member => .inl member
  case shrinks => exact fun c _ r member => member
  case disposed => exact fun r member => List.mem_append_left _ member
  case opened => exact fun r open_ => .inl (by cases r <;> exact open_)
  all_goals simp +contextual [Pc.caller]

theorem Move.kept (connected : cfg.disposer = true) (free : choice ≠ .tabLockTimeout)
    (calls : ∀ j, CdpCall.Invariant (p.calls j)) (known : ∀ j, pc.thread = some j → j < p.nextCall)
    (inside : Section p.contexts pc) (move : Move cfg p tasks choice pc pool pc' spawned) : Kept p pc pool pc' := by
  cases move with
  | walk walks => exact walks.kept free
  | purged | purgedRoom | purgedFull | drained =>
    refine .quiet (fun _ => rfl) rfl rfl rfl (fun c listed => ?_) (by simp) rfl (by simp) rfl rfl
    simpa using inside.complete c listed
  | recycle => exact recycle_kept connected
  | rebuilt returned made =>
    refine create_kept _ false rfl rfl rfl (calls _) returned (fun s ok => ?_) (by simp) (by simp)
    rcases made with rfl | ⟨⟨_,rfl⟩,_⟩
    · exact (Except.ok.inj ok).symm
    · contradiction
  | built returned =>
    exact (create_kept _ true rfl rfl rfl (calls _) returned (by simp +contextual) (by simp) (by simp)).counted _
  | @unbuilt j e returned =>
    have drained := drained_of_returned (calls j) returned
    refine .still (fun _ => rfl) rfl rfl rfl (fun _ listed => .inl listed) (by simp) (by simp) ?_ ?_ ?_
    · simp [Pc.slots,drained,returned,CdpCall.Caller.value]
    · simp
    · simp [Pc.caller,drained]
  | awaitRebuild chosen stepped | awaitBuild chosen stepped =>
    exact await_kept calls rfl (fun _ => rfl) rfl chosen stepped
  | swap _ member => exact swap_kept member rfl (fun _ => rfl) rfl rfl rfl
  | @replace c =>
    refine .quiet (fun _ => rfl) rfl rfl rfl (fun d listed => ?_) (by simp) rfl (by simp) rfl rfl
    by_cases same : d = c
    · exact .inr (.inl (by simp [same]))
    · exact .inl (List.mem_filter.mpr ⟨listed,by simpa using same⟩)
  | push =>
    exact .quiet (fun _ => rfl) rfl rfl rfl (fun _ listed => .inl (List.mem_append_left _ listed)) (by simp) rfl
      (by simp) rfl rfl
  | @endSession c =>
    refine .quiet (p.setBusy_resources c · true) rfl rfl rfl (fun d listed => ?_) (by simp) rfl (by simp) rfl rfl
    by_cases same : d = c
    · exact .inr (.inl (by simp [same]))
    · exact .inl ((List.mem_erase_of_ne same).mpr listed)
  | remove | cleanUp => exact remove_kept rfl rfl rfl rfl
  | @touch c | @block _ c | @stamp c =>
    exact .quiet (fun d => p.modify_resources c d _ rfl rfl) rfl rfl rfl (fun _ listed => .inl listed) (by simp)
      rfl (by simp) rfl rfl
  | release => exact release_kept connected
  | @released after =>
    cases after <;>
      exact .quiet (fun _ => rfl) rfl rfl rfl (fun _ listed => .inl listed) (by simp) rfl (by simp [After.next]) rfl rfl
  | cdpContext => exact cdpContext_kept _ _
  | returns made stepped => exact made.kept connected stepped
  | send returned stepped => exact send_kept (known _ rfl) returned stepped
  | discard orphaned => exact discard_kept connected orphaned
  | pickClaim | claim | claimUsedUp | continues | clear | clearAlwaysNew =>
    exact .quiet (by simp) rfl rfl rfl (fun _ listed => .inl listed) (by simp) rfl (by simp) rfl rfl
  | _ => exact .quiet (fun _ => rfl) rfl rfl rfl (fun _ listed => .inl listed) (by simp) rfl (by simp) rfl rfl

theorem next_kept (connected : cfg.disposer = true) (free : choice ≠ .tabLockTimeout)
    (calls : ∀ j, CdpCall.Invariant (p.calls j)) (known : ∀ j, pc.thread = some j → j < p.nextCall)
    (inside : Section p.contexts pc) (moved : next cfg p tasks choice pc = some (pool,pc',spawned)) :
    Kept p pc pool pc' := (next_move moved).kept connected free calls known inside

theorem cancelled_kept {s : State} {i : Nat} (at_ : s.tasks[i]? = some pc)
    (free : tabLocksFree s (.cancel i) = true) (keeps : keepsCreations s (.cancel i) = true)
    (dropped : cancelled s.pool pc = some (pool,pc')) :
    Kept s.pool pc pool pc' := by
  cases cancelled_drop dropped with
  | @waiting j call stepped =>
    have unread : CdpCall.unread (s.pool.calls j).channel = none := by
      simpa [keepsCreations,at_] using keeps
    have value := CdpCall.dropped_value stepped
    refine .still (fun _ => rfl) rfl rfl rfl (fun _ inside => .inl inside) (by simp) (by simp) ?_ ?_ ?_
    · simp [Pc.slots,unread,value]
    · simp
    · simp [Pc.caller,unread]
  | pushing => simp [keepsCreations,at_] at keeps
  | build | replace | serve | refuse | sessionEnded | done => simp [tabLocksFree,at_] at free
  | _ => exact .quiet (fun _ => rfl) rfl rfl rfl (fun _ inside => .inl inside) (by simp) rfl (by simp) rfl rfl

/-- What the parties of a call hold stays with them, goes into the open channel, or is
given to disposal. -/
theorem Kept.values (kept : Kept p pc pool pc') (calling : Calling p pc pool pc' spawned)
    (calls : ∀ j, CdpCall.Invariant (p.calls j)) (j : Nat) (known : j < p.nextCall) :
    (∀ slot, (p.calls j).thread.value = some slot → (pool.calls j).thread.value = some slot ∨
      ∀ r ∈ slot.resources, r ∈ pool.disposed ∨ InFlight pool r) ∧
    (∀ slot, CdpCall.unread (p.calls j).channel = some slot ∨ (p.calls j).caller.value = some slot →
      CdpCall.unread (pool.calls j).channel = some slot ∨ (pool.calls j).caller.value = some slot) := by
  cases calling with
  | quiet same =>
    rw [same]
    exact ⟨fun _ value => .inl value,fun _ value => value⟩
  | spawn stage same =>
    rw [same,Function.update_of_ne (Nat.ne_of_lt known)]
    exact ⟨fun _ value => .inl value,fun _ value => value⟩
  | event k name event call stepped same next spawns party thread caller drops cleans =>
    by_cases apart : j = k
    · subst apart
      have here : pool.calls j = call := by rw [same,Function.update_self]
      rw [here]
      constructor
      · intro slot value
        rcases CdpCall.step_thread_value stepped value with stays | ⟨sent,open_⟩ | ⟨cleaned,orphaned⟩
        · exact .inl stays
        · refine .inr fun r inside => .inr ⟨j,next ▸ known,?_⟩
          rw [here]
          exact ⟨open_,slot,sent,inside⟩
        · exact .inr fun r inside => .inl (kept.cleaned j slot (cleans cleaned) orphaned r inside)
      · refine fun slot value => CdpCall.step_caller_value (calls j) stepped ?_ value
        rintro ⟨dropped,unread⟩
        obtain ⟨own,left_⟩ := drops dropped
        rw [kept.received j own left_] at unread
        contradiction
    · rw [same,Function.update_of_ne apart]
      exact ⟨fun _ value => .inl value,fun _ value => value⟩

/-- A step takes nothing from the other tasks. -/
theorem Kept.others (kept : Kept p pc pool pc') (calling : Calling p pc pool pc' spawned)
    (calls : ∀ j, CdpCall.Invariant (p.calls j)) (x : Pc) (older : ∀ c ∈ x.keeps, c ≠ p.fresh)
    (known : ∀ j, x.caller = some j ∨ x.thread = some j → j < p.nextCall) (holds : x.holds p r) :
    x.holds pool r ∨ r ∈ pool.disposed ∨ InFlight pool r := by
  rcases holds with ⟨c,mine,inside⟩ | ⟨slot,member,inside⟩
  · rcases kept.ctx c (older c mine) r inside with stays | gone
    · exact .inl (.inl ⟨c,mine,stays⟩)
    · exact .inr (.inl gone)
  · cases x with
    | waiting j | rebuilding j =>
      have value := (kept.values calling calls j (known j (.inl rfl))).2 slot (by simpa [Pc.slots] using member)
      exact .inl (.inr ⟨slot,by simpa [Pc.slots] using value,inside⟩)
    | answering j =>
      rcases (kept.values calling calls j (known j (.inr rfl))).1 slot (by simpa [Pc.slots] using member) with
        stays | gone
      · exact .inl (.inr ⟨slot,by simpa [Pc.slots] using stays,inside⟩)
      · exact .inr (gone r inside)
    | closure j stage => exact .inl (.inr ⟨slot,by cases stage <;> exact member,inside⟩)
    | _ => simp [Pc.slots] at member

structure LeakInvariant (s : State) : Prop where
  referenced : ∀ r, Opened s.pool r → Referenced s r
  spent : ∀ (i : Nat) (pc : Pc) (c : ContextId), s.tasks[i]? = some pc → c ∈ pc.spent →
    ∀ r ∈ s.pool.resources c, r ∈ s.pool.disposed

/-- An open channel has a receiver, and that task owns what is in it. -/
theorem InFlight.referenced {s : State} (calls : CallInvariant s) (flies : InFlight s.pool r) : Referenced s r := by
  obtain ⟨j,known,open_,slot,unread,inside⟩ := flies
  obtain ⟨i,pc,at_,own⟩ := calls.owned j known open_
  refine .inr (.inl ⟨pc,List.mem_of_getElem? at_,.inr ⟨slot,?_,inside⟩⟩)
  cases pc with
  | waiting k | rebuilding k =>
    obtain rfl : k = j := by simpa [Pc.caller] using own
    simp [Pc.slots,unread]
  | _ => simp [Pc.caller] at own

theorem mentions_of_keeps (keeps : c ∈ pc.keeps) : c ∈ pc.mentions := by
  cases pc <;> simp_all

theorem mentions_of_spent (spent : c ∈ pc.spent) : c ∈ pc.mentions := by
  cases pc <;> simp_all

/-- What has a home after a step is referenced. -/
theorem Home.referenced {tasks : List Pc} {i : Nat} (home : Home pool pc' r) (here : tasks[i]? = some pc')
    (calls : CallInvariant ⟨pool,tasks⟩) : Referenced ⟨pool,tasks⟩ r := by
  rcases home with inside | holds | gone | flies
  · exact .inl inside
  · exact .inr (.inl ⟨pc',List.mem_of_getElem? here,holds⟩)
  · exact .inr (.inr gone)
  · exact InFlight.referenced calls flies

/-- What an older context is made of has a home where the context goes. -/
theorem Kept.moved (kept : Kept p pc pool pc') (older : c ≠ p.fresh) (inside : r ∈ p.resources c)
    (place : c ∈ pool.contexts ∨ c ∈ pc'.keeps) : Home pool pc' r := by
  rcases kept.ctx c older r inside with stays | gone
  · rcases place with placed | taken
    · exact .inl ⟨c,placed,stays⟩
    · exact .inr (.inl (.inl ⟨c,taken,stays⟩))
  · exact .inr (.inr (.inl gone))

/-- What the moving task held has a home after its step. -/
theorem Kept.held (kept : Kept p pc pool pc') (older : ∀ c ∈ pc.mentions, c ≠ p.fresh) (holds : pc.holds p r) :
    Home pool pc' r := by
  rcases holds with ⟨c,mine,inside⟩ | ⟨slot,member,inside⟩
  · have apart := older c (mentions_of_keeps mine)
    rcases kept.keeps c mine with taken | placed | gone
    · exact kept.moved apart inside (.inr taken)
    · exact kept.moved apart inside (.inl placed)
    · exact .inr (.inr (.inl (gone r inside)))
  · exact kept.slots slot member r inside

theorem LeakInvariant.move {s : State} {i : Nat} (leases : LeaseInvariant s) (calls : CallInvariant s)
    (valid : LeakInvariant s) (at_ : s.tasks[i]? = some pc) (leased : Leased s.pool pc pool pc' spawned)
    (calling : Calling s.pool pc pool pc' spawned) (kept : Kept s.pool pc pool pc') :
    LeakInvariant ⟨pool,s.tasks.set i pc' ++ spawned⟩ := by
  have bound : i < s.tasks.length := (List.getElem?_eq_some_iff.mp at_).1
  have here : (s.tasks.set i pc' ++ spawned)[i]? = some pc' := by simp [List.getElem?_append,bound]
  have older : ∀ (k : Nat) (x : Pc), s.tasks[k]? = some x → ∀ c ∈ x.mentions, c ≠ s.pool.fresh :=
    fun k x atK c member => Nat.ne_of_lt (leases.mentioned k x atK c member)
  have after := calls.move at_ calling
  constructor
  case referenced =>
    intro r open_
    rcases kept.opened r open_ with before | holds
    · rcases valid.referenced r before with ⟨c,pooled,inside⟩ | ⟨x,member,holds⟩ | gone
      · have apart := Nat.ne_of_lt (leases.known c pooled)
        rcases kept.contexts c pooled with stays | taken | spent
        · exact (kept.moved apart inside (.inl stays)).referenced here after
        · exact (kept.moved apart inside (.inr taken)).referenced here after
        · exact .inr (.inr (kept.disposed r (valid.spent i pc c at_ spent r inside)))
      · obtain ⟨k,atK⟩ := List.mem_iff_getElem?.mp member
        by_cases same : k = i
        · subst same
          obtain rfl := Option.some.inj (at_.symm.trans atK)
          exact (kept.held (older k pc at_) holds).referenced here after
        · have stays : (s.tasks.set i pc' ++ spawned)[k]? = some x := by
            have bound : k < s.tasks.length := (List.getElem?_eq_some_iff.mp atK).1
            rw [List.getElem?_append_left (by simpa using bound),List.getElem?_set_ne (Ne.symm same)]
            exact atK
          rcases kept.others calling calls.valid x (fun c mine => older k x atK c (mentions_of_keeps mine))
            (fun j => calls.known k x j atK) holds with still | gone | flies
          · exact .inr (.inl ⟨x,List.mem_of_getElem? stays,still⟩)
          · exact .inr (.inr gone)
          · exact InFlight.referenced after flies
      · exact .inr (.inr (kept.disposed r gone))
    · exact .inr (.inl ⟨pc',List.mem_of_getElem? here,holds⟩)
  case spent =>
    intro k x c atK spent r inside
    have earlier : ∀ (k : Nat) (y : Pc), s.tasks[k]? = some y → c ∈ y.spent → r ∈ pool.disposed := by
      intro k y atK before
      have apart := older k y atK c (mentions_of_spent before)
      exact kept.disposed r (valid.spent k y c atK before r (kept.shrinks c apart r inside))
    rcases Tasks.getElem?_set_append at_ pc' spawned atK with ⟨_,rfl⟩ | ⟨_,atK⟩ | ⟨_,born⟩
    · rcases kept.spent c spent with before | gone
      · exact earlier i pc at_ before
      · exact gone r inside
    · exact earlier k x atK spent
    · have member := mentions_of_spent spent
      rw [leased.newborn x born] at member
      contradiction

theorem createNewContext_resources (cfg : Config) (p : PoolState) (older : c ≠ p.fresh) :
    (createNewContext cfg p).resources c = p.resources c :=
  p.addContext_resources c false _ older

/-- What the first contexts are made of is theirs. -/
theorem populate_referenced (cfg : Config) (n : Nat) (p : PoolState) (known : ∀ c ∈ p.contexts, c < p.fresh)
    (held : ∀ r, Opened p r → ∃ c ∈ p.contexts, r ∈ p.resources c) :
    ∀ r, Opened (populateInitialContexts cfg n p) r →
      ∃ c ∈ (populateInitialContexts cfg n p).contexts, r ∈ (populateInitialContexts cfg n p).resources c := by
  induction n generalizing p with
  | zero => exact held
  | succ n ih =>
    refine ih { createNewContext cfg p with contexts := p.contexts ++ [p.fresh] } ?_ ?_
    · intro c inside
      change c ∈ p.contexts ++ [p.fresh] at inside
      change c < p.fresh + 1
      rcases List.mem_append.mp inside with old | new
      · exact Nat.lt_succ_of_lt (known c old)
      · exact (List.mem_singleton.mp new) ▸ Nat.lt_succ_self _
    · intro r open_
      have origin : Opened p r ∨ r ∈ (createNewContext cfg p).resources p.fresh := by
        change Opened (createNewContext cfg p) r at open_
        cases isolation : cfg.scope.contextIsolation <;>
          cases r <;> simp_all [Opened,createNewContext,PoolState.resources,PoolState.addContext,resourcesOf,
            BrowserContext.new] <;> omega
      change ∃ c ∈ p.contexts ++ [p.fresh], r ∈ (createNewContext cfg p).resources c
      rcases origin with before | new
      · obtain ⟨c,pooled,inside⟩ := held r before
        refine ⟨c,List.mem_append_left _ pooled,?_⟩
        rwa [createNewContext_resources cfg p (Nat.ne_of_lt (known c pooled))]
      · exact ⟨p.fresh,List.mem_append_right _ (List.mem_singleton.mpr rfl),new⟩

theorem LeakInvariant.initial : LeakInvariant (initial cfg) := by
  have nothing : ∀ r, ¬Opened PoolState.empty r := by
    intro r open_
    cases r <;> exact Nat.not_lt_zero _ open_
  constructor
  case referenced =>
    intro r open_
    cases mode : cfg.scope.sessionMode with
    | reusable =>
      simp only [Pool.initial,mode] at open_ ⊢
      exact .inl (populate_referenced cfg _ PoolState.empty (by simp) (fun r open_ => absurd open_ (nothing r))
        r open_)
    | alwaysNew | dedicated =>
      simp only [Pool.initial,mode] at open_
      exact absurd open_ (nothing r)
  case spent =>
    intro i pc c at_ spent
    rw [initial_task at_] at spent
    contradiction

theorem LeakInvariant.step {s t : State} (connected : cfg.disposer = true) (locked : LockInvariant s)
    (leases : LeaseInvariant s) (calls : CallInvariant s) (valid : LeakInvariant s)
    (free : tabLocksFree s action = true) (keeps : keepsCreations s action = true)
    (taken : step cfg s action = some t) : LeakInvariant t := by
  rcases step_cases taken with ⟨_,_,rfl⟩ | ⟨pc,arrives,rfl⟩ | ⟨i,choice,pc,pool,pc',spawned,rfl,at_,moved,rfl⟩ |
    ⟨i,pc,pool,pc',rfl,at_,dropped,rfl⟩
  · exact ⟨fun r open_ => valid.referenced r (by cases r <;> exact open_),valid.spent⟩
  · refine ⟨fun r open_ => ?_,fun i x c at_ spent => ?_⟩
    · rcases valid.referenced r open_ with pooled | ⟨x,member,holds⟩ | gone
      · exact .inl pooled
      · exact .inr (.inl ⟨x,List.mem_append_left _ member,holds⟩)
      · exact .inr (.inr gone)
    · rcases List.mem_append.mp (List.mem_of_getElem? at_) with old | new
      · obtain ⟨k,atK⟩ := List.mem_iff_getElem?.mp old
        exact valid.spent k x c atK spent
      · obtain rfl := List.mem_singleton.mp new
        rcases arrival_cases arrives with ⟨_,rfl⟩ | ⟨_,rfl⟩ | ⟨_,rfl⟩ <;> contradiction
  · have owned : ∀ c, pc.owns c ≤ busyCount s.pool c := fun c =>
      Nat.le_trans (Tasks.weight_le at_) (leases.held c)
    have inside := locked.sections i pc at_
    exact valid.move leases calls at_ (next_leased inside (leases.mentioned i pc at_) owned moved)
      (next_calling moved) (next_kept connected (by simpa [tabLocksFree] using free) calls.valid
        (fun j own => calls.known i pc j at_ (.inr own)) inside moved)
  · simpa using valid.move leases calls at_ (cancelled_leased dropped) (cancelled_calling dropped)
      (cancelled_kept at_ free keeps dropped)

/-- Along runs with free tab locks in which no finished creation is dropped unread and no
built context is dropped before it is in the pool, nothing that is open in Chrome is ever
lost. -/
theorem nothing_leaks (cfg : Config) (connected : cfg.disposer = true) (s : State)
    (run : (machine cfg).Reach (fun s action => tabLocksFree s action = true ∧ keepsCreations s action = true) s)
    (r : Resource) (opened : Opened s.pool r) : Referenced s r := by
  have valid : LeakInvariant s :=
    run.invariant LeakInvariant.initial (fun s action t before valid met taken =>
      valid.step connected (lock_invariant before.reachable) (lease_invariant before.reachable)
        (call_invariant before.reachable) met.1 met.2 taken)
  exact valid.referenced r opened

theorem nothing_leaks_first_request :
    ∃ s, (machine (Config.small .dedicated)).exec (firstRequest .createDedicatedContext)
        (machine (Config.small .dedicated)).initial = some s ∧
      Opened s.pool (.tab 0) ∧ Referenced s (.tab 0) := by
  have ran : (machine (Config.small .dedicated)).exec (firstRequest .createDedicatedContext)
    (machine (Config.small .dedicated)).initial = some _ := rfl
  have met : (machine (Config.small .dedicated)).Meets
      (fun s action => tabLocksFree s action = true ∧ keepsCreations s action = true)
      (firstRequest .createDedicatedContext) (machine (Config.small .dedicated)).initial := by decide +kernel
  exact ⟨_,ran,Nat.zero_lt_one,
    nothing_leaks _ rfl _ (Machine.Reach.exec_meets .initial ran met) (.tab 0) Nat.zero_lt_one⟩

/-- The request's future is dropped when its creation has been sent and not received, or
when its context is built and waits for the lock: the tab stays open and nobody knows it. -/
def dropsCreation (built : Bool) : List Action :=
  (firstRequest .createDedicatedContext).take (if built then 8 else 6) ++ [.cancel 1]

theorem dropsCreation_loses (built : Bool) :
    ∃ s, (machine (Config.small .dedicated)).exec (dropsCreation built)
        (machine (Config.small .dedicated)).initial = some s ∧
      (machine (Config.small .dedicated)).Meets (fun s action => tabLocksFree s action = true)
        (dropsCreation built) (machine (Config.small .dedicated)).initial ∧
      Opened s.pool (.tab 0) ∧ ¬Referenced s (.tab 0) := by
  cases built <;> exact ⟨_,rfl,by decide +kernel,Nat.zero_lt_one,by decide +kernel⟩

theorem dropped_creation_leaks :
    ¬∀ cfg : Config, cfg.disposer = true → ∀ s,
      (machine cfg).Reach (fun s action => tabLocksFree s action = true) s →
      ∀ r, Opened s.pool r → Referenced s r := by
  intro never
  obtain ⟨s,ran,met,opened,lost⟩ := dropsCreation_loses false
  exact lost (never _ rfl s (Machine.Reach.exec_meets .initial ran met) (.tab 0) opened)

end BrowserHive.Pool
