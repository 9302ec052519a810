import Mathlib.Logic.Relation
import BrowserHive.Pool.Capacity

/-! What a pool advertises. The free slots of `get_stats` are compared with what the three
acquisition functions do for the next request, when nothing else moves in between: the
request and the thread that creates for it are followed phase by phase. -/
namespace BrowserHive.Pool

open BrowserHive Transition Relation

structure BrowserPoolStats where
  totalContexts : Nat
  totalSlots : Nat
  availableSlots : Nat
  activeRequests : Nat
  /-- Slots that cannot be given to a new client. -/
  claimedContexts : Nat
  totalRequests : Nat
  totalContextsCreated : Nat
  totalContextsRecycled : Nat
  deriving DecidableEq, Repr

/-- `get_stats` under the read lock. The flags are read one by one and the pending counter
after them, so what it reads of both is given to it. -/
def getStats (cfg : Config) (p : PoolState) (busy : ContextId → Bool) (pending : Nat) : BrowserPoolStats :=
  let totalSlots := cfg.scope.maxContexts
  let activeRequests := p.contexts.countP busy + pending
  let claimedContexts :=
    match cfg.scope.sessionMode with
    | .dedicated => max (p.contexts.length + pending) activeRequests
    | _ => activeRequests
  { totalContexts := p.contexts.length
    totalSlots := totalSlots
    availableSlots := totalSlots - claimedContexts
    activeRequests := activeRequests
    claimedContexts := claimedContexts
    totalRequests := (p.contexts.map fun c => (p.ctx c).totalRequests).sum
    totalContextsCreated := p.totalContextsCreated
    totalContextsRecycled := p.totalContextsRecycled }

def PoolState.stats (cfg : Config) (p : PoolState) : BrowserPoolStats :=
  getStats cfg p p.isBusy p.pendingCreations

theorem stats_bounded (bounded : p.occupiedSlots ≤ cfg.scope.maxContexts) (busy : ContextId → Bool)
    (fewer : pending ≤ p.pendingCreations) :
    (getStats cfg p busy pending).activeRequests ≤ (getStats cfg p busy pending).claimedContexts ∧
    (getStats cfg p busy pending).claimedContexts ≤ cfg.scope.maxContexts ∧
    (getStats cfg p busy pending).availableSlots + (getStats cfg p busy pending).claimedContexts =
      cfg.scope.maxContexts := by
  have active : p.contexts.countP busy ≤ p.contexts.length := List.countP_le_length
  simp only [PoolState.occupiedSlots] at bounded
  cases mode : cfg.scope.sessionMode <;> simp only [getStats,mode] <;> omega

def Pc.quiet : Pc → Bool
  | .sleeping | .session _ | .found _ | .continuing _ | .serving _ | .stamping _ | .clearing _
  | .closure .. | .answering _ | .finished => true
  | _ => false

/-- The one party that moves while task `n` gets its context: the request, or the thread
that creates for it. Nothing fails and no time passes. -/
def alone (n : Nat) (s : State) : Action :=
  match s.tasks[n]? with
  | some (.waiting j) =>
    match (s.pool.calls j).caller with
    | .returned _ => .run n .go
    | _ => if (s.pool.calls j).channel.value.isSome then .run n .poll else .run (n + 1) .go
  | _ => .run n .go

def Pc.answered : Pc → Bool
  | .handover _ | .finished => true
  | _ => false

def Alone (cfg : Config) (n : Nat) (s t : State) : Prop :=
  (∀ pc, s.tasks[n]? = some pc → pc.answered = false) ∧ step cfg s (alone n s) = some t

def Leads (cfg : Config) (n : Nat) (s : State) (answer : Pc) : Prop :=
  ∃ t, ReflTransGen (Alone cfg n) s t ∧ t.tasks[n]? = some answer

/-- A session-less request arrives next and moves alone until it has its answer. -/
def Ends (cfg : Config) (s : State) (lookup : Lookup) (answer : Pc) : Prop :=
  ∃ arrived, step cfg s (.call (acquireContext cfg.scope.sessionMode lookup)) = some arrived ∧
    Leads cfg s.tasks.length arrived answer

def Given (cfg : Config) (s : State) (lookup : Lookup) : Prop := ∃ c, Ends cfg s lookup (.handover c)

def Refused (cfg : Config) (s : State) (lookup : Lookup) : Prop := Ends cfg s lookup .finished

theorem alone_unique : Relator.RightUnique (Alone cfg n) := by
  rintro s t u ⟨_,stepped⟩ ⟨_,other⟩
  exact Option.some.inj (stepped.symm.trans other)

theorem answered_stuck (answered : pc.answered = true) (at_ : s.tasks[n]? = some pc)
    (path : ReflTransGen (Alone cfg n) s t) : t = s := by
  rcases path.cases_head with same | ⟨u,⟨moving,_⟩,_⟩
  · exact same.symm
  · rw [moving pc at_] at answered
    contradiction

theorem ends_unique (first : Ends cfg s lookup a) (second : Ends cfg s lookup b)
    (answeredA : a.answered = true) (answeredB : b.answered = true) : a = b := by
  obtain ⟨_,arrived,t,path,atA⟩ := first
  obtain ⟨_,arrived',t',path',atB⟩ := second
  obtain rfl := Option.some.inj (arrived.symm.trans arrived')
  have same : t = t' := by
    rcases ReflTransGen.total_of_right_unique alone_unique path path' with later | later
    · exact (answered_stuck answeredA atA later).symm
    · exact answered_stuck answeredB atB later
  subst same
  exact Option.some.inj (atA.symm.trans atB)

theorem Leads.after (path : ReflTransGen (Alone cfg n) s t) (leads : Leads cfg n t answer) : Leads cfg n s answer := by
  obtain ⟨u,later,at_⟩ := leads
  exact ⟨u,path.trans later,at_⟩

section Phases

variable {cfg : Config} {p pool : PoolState} {tasks : List Pc} {pc pc' : Pc}

theorem alone_go (moving : pc.answered = false) (awake : ∀ j, pc ≠ .waiting j)
    (moved : next cfg p (tasks ++ [pc]) .go pc = some (pool,pc',[])) :
    Alone cfg tasks.length ⟨p,tasks ++ [pc]⟩ ⟨pool,tasks ++ [pc']⟩ := by
  have at_ : (tasks ++ [pc])[tasks.length]? = some pc := by simp
  refine ⟨fun x atX => ?_,?_⟩
  · obtain rfl := Option.some.inj (at_.symm.trans atX)
    exact moving
  · have turn : alone tasks.length ⟨p,tasks ++ [pc]⟩ = .run tasks.length .go := by
      simp only [alone,at_]
      cases pc <;> first | rfl | exact absurd rfl (awake _)
    simp only [turn,step,at_,moved]
    simp

theorem alone_thread (waits : ∀ result, (p.calls j).caller ≠ .returned result) (unsent : (p.calls j).channel.value = none)
    (moved : next cfg p (tasks ++ [.waiting j,pc]) .go pc = some (pool,pc',[])) :
    Alone cfg tasks.length ⟨p,tasks ++ [.waiting j,pc]⟩ ⟨pool,tasks ++ [.waiting j,pc']⟩ := by
  have at_ : (tasks ++ [.waiting j,pc])[tasks.length]? = some (.waiting j) := by simp
  have thread : (tasks ++ [.waiting j,pc])[tasks.length + 1]? = some pc := by
    rw [List.getElem?_append_right (by omega)]
    simp
  refine ⟨fun x atX => ?_,?_⟩
  · obtain rfl := Option.some.inj (at_.symm.trans atX)
    rfl
  · have turn : alone tasks.length ⟨p,tasks ++ [.waiting j,pc]⟩ = .run (tasks.length + 1) .go := by
      simp only [alone,at_,unsent]
      cases caller : (p.calls j).caller with
      | returned result => exact absurd caller (waits result)
      | _ => rfl
    simp only [turn,step,thread,moved]
    simp

/-- Selection under a lock that nobody else can take the list from. -/
theorem selecting_phase (cfg : Config) (p : PoolState) (tasks : List Pc) (todo found : List ContextId) (access : Access)
    (selection : Selection) (lookup : Lookup) :
    ReflTransGen (Alone cfg tasks.length) ⟨p,tasks ++ [.selecting access selection todo found lookup]⟩
      ⟨p,tasks ++ [.claiming access selection (selection.sort p.now p.ctx
        (found ++ todo.filter fun c => selection.admits cfg.scope.lifecycle p.now (p.ctx c))) lookup]⟩ := by
  induction todo generalizing found with
  | nil =>
    refine .single (alone_go rfl (by simp) ?_)
    simp [next,acquireNext]
  | cons c todo ih =>
    by_cases admitted : selection.admits cfg.scope.lifecycle p.now (p.ctx c) = true
    · refine .head (alone_go rfl (by simp) (by simp only [next,acquireNext,admitted]; rfl)) ?_
      simpa [admitted] using ih (found ++ [c])
    · refine .head (alone_go rfl (by simp) (by simp only [next,acquireNext,admitted]; rfl)) ?_
      simpa [admitted] using ih found

theorem purging_phase (todo kept leaked : List ContextId) :
    ReflTransGen (Alone cfg tasks.length) ⟨p,tasks ++ [.purging .request todo kept leaked]⟩
      ⟨p,tasks ++ [.purging .request [] (kept ++ todo.filter p.isBusy)
        (leaked ++ todo.filter fun c => !p.isBusy c)]⟩ := by
  induction todo generalizing kept leaked with
  | nil => simpa using ReflTransGen.refl
  | cons c todo ih =>
    by_cases busy : p.isBusy c = true
    · refine .head (alone_go rfl (by simp) (by simp only [next,purgeNext,busy]; rfl)) ?_
      simpa [busy] using ih (kept ++ [c]) leaked
    · refine .head (alone_go rfl (by simp) (by simp only [next,purgeNext,busy]; rfl)) ?_
      simpa [busy] using ih kept (leaked ++ [c])

theorem releasing_phase (cfg : Config) (tasks : List Pc) (p : PoolState) (todo : List ContextId) (after : After) :
    ∃ pool, ReflTransGen (Alone cfg tasks.length) ⟨p,tasks ++ [.releasing todo after]⟩
      ⟨pool,tasks ++ [.releasing [] after]⟩ := by
  induction todo generalizing p with
  | nil => exact ⟨p,.refl⟩
  | cons c todo ih =>
    obtain ⟨pool,path⟩ := ih (p.release cfg c)
    exact ⟨pool,.head (alone_go rfl (by simp) rfl) path⟩

/-- One step of a request whose thread is still there. -/
theorem alone_beside (choice : Choice) (moving : pc.answered = false)
    (turn : alone tasks.length ⟨p,tasks ++ [pc,other]⟩ = .run tasks.length choice)
    (moved : next cfg p (tasks ++ [pc,other]) choice pc = some (pool,pc',[])) :
    Alone cfg tasks.length ⟨p,tasks ++ [pc,other]⟩ ⟨pool,tasks ++ [pc',other]⟩ := by
  have at_ : (tasks ++ [pc,other])[tasks.length]? = some pc := by simp
  refine ⟨fun x atX => ?_,?_⟩
  · obtain rfl := Option.some.inj (at_.symm.trans atX)
    exact moving
  · simp only [turn,step,at_,moved]
    simp

/-- A tab that Chrome opens: the thread sends what was created, the request reads it, and
the context made from it goes into the pool. -/
theorem creating_phase (cfg : Config) (p : PoolState) (free : canWrite tasks = true)
    (starts : p.calls j = CdpCall.State.initial) (cdp : Option Nat) :
    ∃ c, Leads cfg tasks.length ⟨p,tasks ++ [.waiting j,.closure j (.newTab .build cdp)]⟩ (.handover c) := by
  let slot : Slot := ⟨some p.nextTab,cdp⟩
  let returned : CdpCall.State Slot Unit :=
    { CdpCall.State.initial with thread := .returned (.ok slot), made := some slot }
  let sent : CdpCall.State Slot Unit := { returned with thread := .finished, channel := ⟨some (.ok slot),false⟩ }
  let read : CdpCall.State Slot Unit := { sent with caller := .returned (.ok slot), channel := ⟨none,true⟩ }
  let opened : PoolState := { p with nextTab := p.nextTab + 1 }
  have opens : Alone cfg tasks.length ⟨p,tasks ++ [.waiting j,.closure j (.newTab .build cdp)]⟩
      ⟨opened.setCall j returned,tasks ++ [.waiting j,.answering j]⟩ := by
    apply alone_thread (by simp [starts,CdpCall.State.initial]) (by simp [starts,CdpCall.State.initial])
    simp only [next,closureNext,returnSlot,stepCall,starts]
    rfl
  have sends : Alone cfg tasks.length ⟨opened.setCall j returned,tasks ++ [.waiting j,.answering j]⟩
      ⟨(opened.setCall j returned).setCall j sent,tasks ++ [.waiting j,.answering j]⟩ := by
    refine alone_thread (by simp [PoolState.setCall,returned,CdpCall.State.initial])
      (by simp [PoolState.setCall,returned,CdpCall.State.initial]) ?_
    simp only [next,closureNext,stepCall,PoolState.setCall,Function.update_self]
    rfl
  let received := ((opened.setCall j returned).setCall j sent).setCall j read
  have reads : Alone cfg tasks.length ⟨(opened.setCall j returned).setCall j sent,tasks ++ [.waiting j,.answering j]⟩
      ⟨received,tasks ++ [.waiting j,.answering j]⟩ := by
    refine alone_beside .poll rfl ?_ ?_
    · simp [alone,PoolState.setCall,sent,returned,CdpCall.State.initial]
    · have waits : ((opened.setCall j returned).setCall j sent).calls j = sent := by simp [PoolState.setCall]
      simp only [next,buildNext,waits]
      change awaitCall createCall _ j .poll (.waiting j) = _
      simp only [awaitCall,Choice.event,Option.bind_some,stepCall,waits]
      rfl
  let made : PoolState :=
    { received.addContext slot true with totalContextsCreated := received.totalContextsCreated + 1 }
  have makes : Alone cfg tasks.length ⟨received,tasks ++ [.waiting j,.answering j]⟩
      ⟨made,tasks ++ [.pushing received.fresh,.answering j]⟩ := by
    refine alone_beside .go rfl ?_ ?_
    · simp [alone,received,PoolState.setCall,read]
    · have answer : (received.calls j).caller = .returned (.ok slot) := by simp [received,PoolState.setCall,read]
      simp only [next,buildNext,answer]
      rfl
  have pushes : Alone cfg tasks.length ⟨made,tasks ++ [.pushing received.fresh,.answering j]⟩
      ⟨unreserve { made with contexts := made.contexts ++ [received.fresh] },
        tasks ++ [.handover received.fresh,.answering j]⟩ := by
    apply alone_beside .go rfl (by simp [alone])
    have open_ : canWrite (tasks ++ [.pushing received.fresh,.answering j]) = true := by
      simpa [canWrite,List.all_append] using free
    simp only [next,buildNext,open_,↓reduceIte]
  exact ⟨received.fresh,_,.head opens (.head sends (.head reads (.head makes (.single pushes)))),by simp⟩

/-- A creation that Chrome answers, from the reservation on. -/
theorem building_phase (cfg : Config) (p : PoolState) (free : canWrite tasks = true) :
    ∃ c, Leads cfg tasks.length ⟨p,tasks ++ [.building]⟩ (.handover c) := by
  have starts : (spawnCall p).calls p.nextCall = CdpCall.State.initial := by simp [spawnCall,PoolState.setCall]
  have spawns : Alone cfg tasks.length ⟨p,tasks ++ [.building]⟩
      ⟨spawnCall p,tasks ++ [.waiting p.nextCall,.closure p.nextCall (firstStage cfg .build)]⟩ := by
    refine ⟨fun x atX => ?_,?_⟩
    · obtain rfl : Pc.building = x := by simpa using atX
      rfl
    · simp [alone,step,next,buildNext]
  cases isolation : cfg.scope.contextIsolation with
  | shared =>
    obtain ⟨c,given⟩ := creating_phase cfg (spawnCall p) free starts none
    simp only [firstStage,isolation] at spawns
    exact ⟨c,.after (.single spawns) given⟩
  | isolated =>
    let isolated := { spawnCall p with nextCdpContext := (spawnCall p).nextCdpContext + 1 }
    obtain ⟨c,given⟩ := creating_phase cfg isolated free starts (some (spawnCall p).nextCdpContext)
    simp only [firstStage,isolation] at spawns
    have creates : Alone cfg tasks.length
        ⟨spawnCall p,tasks ++ [.waiting p.nextCall,.closure p.nextCall (.cdpContext .build)]⟩
        ⟨isolated,tasks ++ [.waiting p.nextCall,
          .closure p.nextCall (.newTab .build (some (spawnCall p).nextCdpContext))]⟩ :=
      alone_thread (by simp [starts,CdpCall.State.initial]) (by simp [starts,CdpCall.State.initial]) rfl
    exact ⟨c,.after (.head spawns (.single creates)) given⟩

theorem handed (c : ContextId) : Leads cfg tasks.length ⟨p,tasks ++ [.handover c]⟩ (.handover c) :=
  ⟨_,.refl,by simp⟩

theorem refused : Leads cfg tasks.length ⟨p,tasks ++ [.finished]⟩ .finished := ⟨_,.refl,by simp⟩

theorem canWrite_beside (pc : Pc) (free : canWrite tasks = true) (read : pc.holdsRead = false) (write : pc.holdsWrite = false) :
    canWrite (tasks ++ [pc]) = true := by
  simp only [canWrite,List.all_append,List.all_cons,List.all_nil,read,write,Bool.not_false,Bool.and_true]
  exact free

theorem canRead_beside (pc : Pc) (free : canWrite tasks = true) (write : pc.holdsWrite = false) :
    canRead (tasks ++ [pc]) = true := by
  simp only [canRead,List.all_append,List.all_cons,List.all_nil,write,Bool.not_false,Bool.and_true]
  exact List.all_eq_true.mpr fun x inside => (Bool.and_eq_true_iff.mp (List.all_eq_true.mp free x inside)).1

theorem dedicated_phase (cfg : Config) (p : PoolState) (free : canWrite tasks = true) :
    if p.occupiedSlots < cfg.scope.maxContexts
    then ∃ c, Leads cfg tasks.length ⟨p,tasks ++ [.acquiring .createDedicatedContext]⟩ (.handover c)
    else Leads cfg tasks.length ⟨p,tasks ++ [.acquiring .createDedicatedContext]⟩ .finished := by
  have lock := canWrite_beside (.acquiring .createDedicatedContext) free rfl rfl
  split
  · next room =>
    obtain ⟨c,given⟩ := building_phase cfg (reserve p) free
    refine ⟨c,.after (.single (alone_go rfl (by simp) ?_)) given⟩
    simp only [next,acquireNext,lock,↓reduceIte,Nat.not_le_of_lt room]
  · next full =>
    refine .after (.single (alone_go rfl (by simp) ?_)) (refused (p := p))
    simp only [next,acquireNext,lock,↓reduceIte,Nat.le_of_not_lt full]

/-- Leaked contexts leave the pool before its capacity is measured. -/
theorem alwaysNew_phase (cfg : Config) (p : PoolState) (free : canWrite tasks = true) :
    if (p.contexts.filter p.isBusy).length + p.pendingCreations < cfg.scope.maxContexts
    then ∃ c, Leads cfg tasks.length ⟨p,tasks ++ [.acquiring .createAlwaysNewContext]⟩ (.handover c)
    else Leads cfg tasks.length ⟨p,tasks ++ [.acquiring .createAlwaysNewContext]⟩ .finished := by
  have lock := canWrite_beside (.acquiring .createAlwaysNewContext) free rfl rfl
  have purges : ReflTransGen (Alone cfg tasks.length) ⟨p,tasks ++ [.acquiring .createAlwaysNewContext]⟩
      ⟨p,tasks ++ [.purging .request [] (p.contexts.filter p.isBusy) (p.contexts.filter fun c => !p.isBusy c)]⟩ := by
    refine .head (alone_go rfl (by simp) ?_) (by simpa using purging_phase p.contexts [] [])
    simp only [next,acquireNext,lock,↓reduceIte]
  let purged : PoolState := { p with contexts := p.contexts.filter p.isBusy }
  split
  · next room =>
    obtain ⟨pool,releases⟩ := releasing_phase cfg tasks (reserve purged)
      (p.contexts.filter fun c => !p.isBusy c) .build
    obtain ⟨c,given⟩ := building_phase cfg pool free
    refine ⟨c,.after purges (.after (.head (alone_go rfl (by simp) ?_) releases)
      (.after (.single (alone_go rfl (by simp) rfl)) given))⟩
    simp only [next,purgeNext,PoolState.occupiedSlots,room,↓reduceIte]
    rfl
  · next full =>
    obtain ⟨pool,releases⟩ := releasing_phase cfg tasks purged
      (p.contexts.filter fun c => !p.isBusy c) .refuse
    refine .after purges (.after (.head (alone_go rfl (by simp) ?_) releases)
      (.after (.single (alone_go rfl (by simp) rfl)) (refused (p := pool))))
    simp only [next,purgeNext,PoolState.occupiedSlots,full,↓reduceIte]
    rfl

theorem idle_of_admits {selection : Selection} (admitted : selection.admits lifecycle now (p.ctx c) = true) :
    p.isBusy c = false := by
  simp only [Selection.admits,Bool.and_eq_true,Bool.not_eq_true'] at admitted
  exact admitted.1

/-- An idle context that the selection admits is claimed: nobody else can have taken it. -/
theorem claiming_phase {selection : Selection} (access : Access) (lookup : Lookup) (free : canWrite tasks = true)
    (inside : c ∈ p.contexts) (admitted : selection.admits cfg.scope.lifecycle p.now (p.ctx c) = true) :
    ∃ d, Leads cfg tasks.length ⟨p,tasks ++ [.selecting access selection p.contexts [] lookup]⟩ (.handover d) := by
  have selects := selecting_phase cfg p tasks p.contexts [] access selection lookup
  simp only [List.nil_append] at selects
  cases found : selection.sort p.now p.ctx
      (p.contexts.filter fun c => selection.admits cfg.scope.lifecycle p.now (p.ctx c)) with
  | nil =>
    have member : c ∈ selection.sort p.now p.ctx
        (p.contexts.filter fun c => selection.admits cfg.scope.lifecycle p.now (p.ctx c)) :=
      Selection.mem_sort.mpr (List.mem_filter.mpr ⟨inside,admitted⟩)
    rw [found] at member
    contradiction
  | cons d rest =>
    rw [found] at selects
    have candidate : selection.admits cfg.scope.lifecycle p.now (p.ctx d) = true := by
      have member : d ∈ selection.sort p.now p.ctx
          (p.contexts.filter fun c => selection.admits cfg.scope.lifecycle p.now (p.ctx c)) := by
        rw [found]
        exact List.mem_cons_self
      exact (List.mem_filter.mp (Selection.mem_sort.mp member)).2
    have idle : p.isBusy d = false := idle_of_admits candidate
    by_cases replaces : access = .write ∧ selection = .usedUp
    · obtain ⟨rfl,rfl⟩ := replaces
      let taken : PoolState := { p.setBusy d true with contexts := (p.setBusy d true).contexts.filter (· ≠ d) }
      obtain ⟨pool,releases⟩ := releasing_phase cfg tasks (reserve taken) [d] .replace
      obtain ⟨e,given⟩ := building_phase cfg
        { pool with totalContextsRecycled := pool.totalContextsRecycled + 1 } free
      have claims : Alone cfg tasks.length ⟨p,tasks ++ [.claiming .write .usedUp (d :: rest) lookup]⟩
          ⟨p.setBusy d true,tasks ++ [.replacing d]⟩ := by
        apply alone_go rfl (by simp)
        simp only [next,acquireNext,idle,Bool.false_eq_true,↓reduceIte]
      have removes : Alone cfg tasks.length ⟨p.setBusy d true,tasks ++ [.replacing d]⟩
          ⟨reserve taken,tasks ++ [.releasing [d] .replace]⟩ := alone_go rfl (by simp) rfl
      exact ⟨e,.after selects (.after (.head claims (.head removes releases))
        (.after (.single (alone_go rfl (by simp) rfl)) given))⟩
    · refine ⟨d,.after selects (.after (.single (alone_go rfl (by simp) ?_)) (handed (p := p.setBusy d true) d))⟩
      simp only [next,acquireNext,idle,Bool.false_eq_true,↓reduceIte]
      cases access <;> cases selection <;> first | rfl | exact absurd ⟨rfl,rfl⟩ replaces

/-- A selection that admits nothing leaves nothing to claim. -/
theorem passing_phase {selection : Selection} (access : Access) (lookup : Lookup)
    (none_ : ∀ c ∈ p.contexts, selection.admits cfg.scope.lifecycle p.now (p.ctx c) = false) :
    ReflTransGen (Alone cfg tasks.length) ⟨p,tasks ++ [.selecting access selection p.contexts [] lookup]⟩
      ⟨p,tasks ++ [.claiming access selection [] lookup]⟩ := by
  have selects := selecting_phase cfg p tasks p.contexts [] access selection lookup
  have empty : (p.contexts.filter fun c => selection.admits cfg.scope.lifecycle p.now (p.ctx c)) = [] :=
    List.filter_eq_nil_iff.mpr fun c inside => by simp [none_ c inside]
  rw [List.nil_append,empty] at selects
  exact selects

/-- An idle context is admitted by one of the three ways to look for one. -/
theorem idle_admitted (lifecycle : ContextLifecycleConfig) (now : Nat) (context : BrowserContext) (origin : Option String)
    (idle : context.isBusy = false) (fresh : (Selection.leastUsed origin).admits lifecycle now context = false)
    (young : Selection.usedUp.admits lifecycle now context = false) :
    ∃ o, origin = some o ∧ (Selection.soonestUnquarantined o).admits lifecycle now context = true := by
  cases origin with
  | none => simp_all [Selection.admits]
  | some o =>
    refine ⟨o,rfl,?_⟩
    cases quarantined : context.quarantinedUntil now o <;> simp_all [Selection.admits]

/-- What a lookup does once it finds nothing to reuse: it takes the write lock, looks
again, and measures the pool. -/
theorem missing_phase {lookup : Lookup} (free : canWrite tasks = true)
    (default : lookup.params.requiresDedicatedContext = false)
    (none_ : ∀ c ∈ p.contexts, (Selection.leastUsed lookup.origin).admits cfg.scope.lifecycle p.now (p.ctx c) = false) :
    ReflTransGen (Alone cfg tasks.length) ⟨p,tasks ++ [.acquiring (.getOrCreateContext lookup)]⟩
      ⟨p,tasks ++ [.atCapacity lookup]⟩ := by
  have reads : Alone cfg tasks.length ⟨p,tasks ++ [.acquiring (.getOrCreateContext lookup)]⟩
      ⟨p,tasks ++ [.selecting .read (.leastUsed lookup.origin) p.contexts [] lookup]⟩ := by
    apply alone_go rfl (by simp)
    simp [next,acquireNext,default,canRead_beside (.acquiring (.getOrCreateContext lookup)) free rfl]
  have misses : Alone cfg tasks.length ⟨p,tasks ++ [.claiming .read (.leastUsed lookup.origin) [] lookup]⟩
      ⟨p,tasks ++ [.wantWrite lookup]⟩ := alone_go rfl (by simp) rfl
  have writes : Alone cfg tasks.length ⟨p,tasks ++ [.wantWrite lookup]⟩
      ⟨p,tasks ++ [.selecting .write (.leastUsed lookup.origin) p.contexts [] lookup]⟩ := by
    apply alone_go rfl (by simp)
    simp [next,acquireNext,default,canWrite_beside (.wantWrite lookup) free rfl rfl]
  have again : Alone cfg tasks.length ⟨p,tasks ++ [.claiming .write (.leastUsed lookup.origin) [] lookup]⟩
      ⟨p,tasks ++ [.atCapacity lookup]⟩ := alone_go rfl (by simp) rfl
  exact .trans (.head reads (passing_phase _ _ none_))
    (.trans (.head misses (.head writes (passing_phase _ _ none_))) (.single again))

theorem reusable_phase (cfg : Config) (p : PoolState) {lookup : Lookup} (free : canWrite tasks = true)
    (default : lookup.params.requiresDedicatedContext = false) :
    if p.occupiedSlots < cfg.scope.maxContexts ∨ ∃ c ∈ p.contexts, p.isBusy c = false
    then ∃ c, Leads cfg tasks.length ⟨p,tasks ++ [.acquiring (.getOrCreateContext lookup)]⟩ (.handover c)
    else Leads cfg tasks.length ⟨p,tasks ++ [.acquiring (.getOrCreateContext lookup)]⟩ .finished := by
  by_cases reuse : ∃ c ∈ p.contexts,
      (Selection.leastUsed lookup.origin).admits cfg.scope.lifecycle p.now (p.ctx c) = true
  · obtain ⟨c,inside,admitted⟩ := reuse
    rw [if_pos (.inr ⟨c,inside,idle_of_admits admitted⟩)]
    obtain ⟨d,given⟩ := claiming_phase .read lookup free inside admitted
    refine ⟨d,.after (.single (alone_go rfl (by simp) ?_)) given⟩
    simp [next,acquireNext,default,canRead_beside (.acquiring (.getOrCreateContext lookup)) free rfl]
  · have none_ : ∀ c ∈ p.contexts,
        (Selection.leastUsed lookup.origin).admits cfg.scope.lifecycle p.now (p.ctx c) = false := by
      simpa using reuse
    have misses := missing_phase free default none_
    by_cases room : p.occupiedSlots < cfg.scope.maxContexts
    · rw [if_pos (.inl room)]
      obtain ⟨c,given⟩ := building_phase cfg (reserve p) free
      refine ⟨c,.after misses (.after (.single (alone_go rfl (by simp) ?_)) given)⟩
      simp only [next,acquireNext,room,↓reduceIte]
    · have full : Alone cfg tasks.length ⟨p,tasks ++ [.atCapacity lookup]⟩
          ⟨p,tasks ++ [.selecting .write .usedUp p.contexts [] lookup]⟩ := by
        apply alone_go rfl (by simp)
        simp only [next,acquireNext,room,↓reduceIte]
      have replaces : ReflTransGen (Alone cfg tasks.length) ⟨p,tasks ++ [.acquiring (.getOrCreateContext lookup)]⟩
          ⟨p,tasks ++ [.selecting .write .usedUp p.contexts [] lookup]⟩ := misses.tail full
      by_cases old : ∃ c ∈ p.contexts, Selection.usedUp.admits cfg.scope.lifecycle p.now (p.ctx c) = true
      · obtain ⟨c,inside,admitted⟩ := old
        rw [if_pos (.inr ⟨c,inside,idle_of_admits admitted⟩)]
        obtain ⟨d,given⟩ := claiming_phase .write lookup free inside admitted
        exact ⟨d,.after replaces given⟩
      · have young : ∀ c ∈ p.contexts, Selection.usedUp.admits cfg.scope.lifecycle p.now (p.ctx c) = false := by
          simpa using old
        have passes := replaces.trans (passing_phase .write lookup young)
        split
        · next idle =>
          obtain ⟨c,inside,idle⟩ := idle.resolve_left room
          obtain ⟨o,origin,admitted⟩ := idle_admitted _ _ _ _ idle (none_ c inside) (young c inside)
          obtain ⟨d,given⟩ := claiming_phase .write lookup free inside admitted
          refine ⟨d,.after passes (.after (.single (alone_go rfl (by simp) ?_)) given)⟩
          simp [next,acquireNext,origin,default]
        · next busy =>
          have busy : ∀ c ∈ p.contexts, p.isBusy c = true := fun c inside => by
            by_contra idle
            exact busy (.inr ⟨c,inside,by simpa using idle⟩)
          cases origin : lookup.origin with
          | none =>
            refine .after passes (.after (.single (alone_go rfl (by simp) ?_)) (refused (p := p)))
            simp [next,acquireNext,origin]
          | some o =>
            have quarantined : ∀ c ∈ p.contexts,
                (Selection.soonestUnquarantined o).admits cfg.scope.lifecycle p.now (p.ctx c) = false := fun c inside => by
              have taken : (p.ctx c).isBusy = true := busy c inside
              simp [Selection.admits,taken]
            have last : Alone cfg tasks.length ⟨p,tasks ++ [.claiming .write .usedUp [] lookup]⟩
                ⟨p,tasks ++ [.selecting .write (.soonestUnquarantined o) p.contexts [] lookup]⟩ := by
              apply alone_go rfl (by simp)
              simp [next,acquireNext,origin,default]
            exact .after passes (.after (.head last (passing_phase _ _ quarantined))
              (.after (.single (alone_go rfl (by simp) rfl)) (refused (p := p))))

end Phases

theorem unlocked_of_quiet {tasks : List Pc} (quiet : tasks.all Pc.quiet = true) : canWrite tasks = true := by
  refine List.all_eq_true.mpr fun pc inside => ?_
  have still := List.all_eq_true.mp quiet pc inside
  cases pc <;> simp_all [Pc.quiet]

/-- A slot is free for the mode's acquisition exactly when one is advertised. -/
theorem advertised_reusable {p : PoolState} (mode : cfg.scope.sessionMode = .reusable)
    (bounded : p.occupiedSlots ≤ cfg.scope.maxContexts) :
    0 < (p.stats cfg).availableSlots ↔
      p.occupiedSlots < cfg.scope.maxContexts ∨ ∃ c ∈ p.contexts, p.isBusy c = false := by
  simp only [PoolState.occupiedSlots] at bounded ⊢
  by_cases idle : ∃ c ∈ p.contexts, p.isBusy c = false
  · have some_ : p.contexts.countP p.isBusy < p.contexts.length := by
      refine Nat.lt_of_le_of_ne List.countP_le_length fun all => ?_
      obtain ⟨c,inside,idle⟩ := idle
      rw [List.countP_eq_length.mp all c inside] at idle
      contradiction
    simp only [PoolState.stats,getStats,mode,idle,or_true,iff_true]
    omega
  · have all : p.contexts.countP p.isBusy = p.contexts.length :=
      List.countP_eq_length.mpr fun c inside => by
        by_contra idle_
        exact idle ⟨c,inside,by simpa using idle_⟩
    simp only [PoolState.stats,getStats,mode,all,idle,or_false]
    omega

theorem advertised_dedicated {p : PoolState} (mode : cfg.scope.sessionMode = .dedicated) :
    0 < (p.stats cfg).availableSlots ↔ p.occupiedSlots < cfg.scope.maxContexts := by
  have active : p.contexts.countP p.isBusy ≤ p.contexts.length := List.countP_le_length
  simp only [PoolState.stats,getStats,mode,PoolState.occupiedSlots]
  omega

theorem advertised_alwaysNew {p : PoolState} (mode : cfg.scope.sessionMode = .alwaysNew) :
    0 < (p.stats cfg).availableSlots ↔
      (p.contexts.filter p.isBusy).length + p.pendingCreations < cfg.scope.maxContexts := by
  simp only [PoolState.stats,getStats,mode,List.countP_eq_length_filter]
  omega

/-- What the next request ends with. -/
theorem next_request {s : State} (bounded : s.pool.occupiedSlots ≤ cfg.scope.maxContexts)
    (free : canWrite s.tasks = true) (lookup : Lookup) (default : lookup.params.requiresDedicatedContext = false) :
    if 0 < (s.pool.stats cfg).availableSlots then Given cfg s lookup else Refused cfg s lookup := by
  have arrived : step cfg s (.call (acquireContext cfg.scope.sessionMode lookup)) =
    some ⟨s.pool,s.tasks ++ [.acquiring (acquireContext cfg.scope.sessionMode lookup)]⟩ := rfl
  cases mode : cfg.scope.sessionMode with
  | reusable =>
    simp only [mode,acquireContext] at arrived
    have phase := reusable_phase cfg s.pool free default
    simp only [← advertised_reusable mode bounded] at phase
    split <;> next slots =>
      simp only [slots,↓reduceIte] at phase
      first
        | exact phase.imp fun c leads => ⟨_,by rw [mode]; exact arrived,leads⟩
        | exact ⟨_,by rw [mode]; exact arrived,phase⟩
  | dedicated =>
    simp only [mode,acquireContext] at arrived
    have phase := dedicated_phase cfg s.pool free
    simp only [← advertised_dedicated mode] at phase
    split <;> next slots =>
      simp only [slots,↓reduceIte] at phase
      first
        | exact phase.imp fun c leads => ⟨_,by rw [mode]; exact arrived,leads⟩
        | exact ⟨_,by rw [mode]; exact arrived,phase⟩
  | alwaysNew =>
    simp only [mode,acquireContext] at arrived
    have phase := alwaysNew_phase cfg s.pool free
    simp only [← advertised_alwaysNew mode] at phase
    split <;> next slots =>
      simp only [slots,↓reduceIte] at phase
      first
        | exact phase.imp fun c leads => ⟨_,by rw [mode]; exact arrived,leads⟩
        | exact ⟨_,by rw [mode]; exact arrived,phase⟩

/-- In every reachable state, whatever the flags read as and however many promises are
released while they are read, the report adds up; and while no acquisition, removal or
monitor step is in progress, a slot is advertised exactly when the next session-less
request without overrides is given a context, and it is refused otherwise. -/
theorem advertised_capacity (cfg : Config) (s : State) (run : (machine cfg).Reachable s) :
    (∀ (busy : ContextId → Bool) (pending : Nat), pending ≤ s.pool.pendingCreations →
      let stats := getStats cfg s.pool busy pending
      stats.activeRequests ≤ stats.claimedContexts ∧ stats.claimedContexts ≤ cfg.scope.maxContexts ∧
      stats.availableSlots + stats.claimedContexts = cfg.scope.maxContexts) ∧
    (s.tasks.all Pc.quiet = true → ∀ lookup : Lookup, lookup.params.requiresDedicatedContext = false →
      (0 < (s.pool.stats cfg).availableSlots ↔ Given cfg s lookup) ∧
      ((s.pool.stats cfg).availableSlots = 0 ↔ Refused cfg s lookup)) := by
  have valid := capacity_invariant run
  refine ⟨fun busy pending fewer => stats_bounded valid.bounded busy fewer,fun quiet lookup default => ?_⟩
  have ends := next_request valid.bounded (unlocked_of_quiet quiet) lookup default
  have apart : ¬(Given cfg s lookup ∧ Refused cfg s lookup) := by
    rintro ⟨⟨c,given⟩,refused⟩
    have same := ends_unique given refused rfl rfl
    contradiction
  split at ends
  · next slots =>
    exact ⟨⟨fun _ => ends,fun _ => slots⟩,by omega,fun refused => absurd ⟨ends,refused⟩ apart⟩
  · next slots =>
    exact ⟨⟨fun free => absurd free slots,fun given => absurd ⟨given,ends⟩ apart⟩,fun _ => ends,fun _ => by omega⟩

/-- A dedicated pool with one slot, before any request and while its only session runs. -/
theorem advertised_capacity_first_request :
    Given (Config.small .dedicated) (machine (Config.small .dedicated)).initial ⟨⟨none⟩,none⟩ ∧
    ∃ s, (machine (Config.small .dedicated)).exec (firstRequest .createDedicatedContext)
        (machine (Config.small .dedicated)).initial = some s ∧
      Refused (Config.small .dedicated) s ⟨⟨none⟩,none⟩ := by
  constructor
  · exact ((advertised_capacity _ _ .initial).2 rfl ⟨⟨none⟩,none⟩ rfl).1.mp (by decide +kernel)
  · obtain ⟨s,ran,quiet,slots⟩ : ∃ s, (machine (Config.small .dedicated)).exec (firstRequest .createDedicatedContext)
        (machine (Config.small .dedicated)).initial = some s ∧ s.tasks.all Pc.quiet = true ∧
        (s.pool.stats (Config.small .dedicated)).availableSlots = 0 := ⟨_,rfl,rfl,by decide +kernel⟩
    exact ⟨s,ran,((advertised_capacity _ s (Machine.reachable_of_exec ran)).2 quiet ⟨⟨none⟩,none⟩ rfl).2.mp slots⟩

end BrowserHive.Pool
