import Mathlib.Logic.Function.Basic
import BrowserHive.Config
import BrowserHive.Lib.Tasks
import BrowserHive.Lib.Transition

/-! The idle time of a dedicated session. `last_used_at` sits behind a lock of its own: a
request stamps it when it starts, its busy guard stamps it again when it ends, a rejected
request reads it into its answer, and the monitor reads it to judge the session. The guard
only tries the lock. Who holds it is read off the program points. -/
namespace BrowserHive.Pool.IdleTime

open BrowserHive Transition

abbrev SessionId := Nat

structure Metadata where
  isBusy : Bool
  lastUsedAt : Nat

inductive Pc where
  | claiming (session : SessionId)
  -- SESSION_BUSY: `last_used_at` is locked until the answer is built
  | rejected (session : SessionId)
  | answering (session : SessionId)
  -- under the busy guard; `Instant::now()` is read before the lock is awaited
  | guarded (session : SessionId)
  | stamping (session : SessionId) (started : Nat)
  | running (session : SessionId)
  -- the guard's drop
  | dropping (session : SessionId)
  | clearing (session : SessionId)
  | finished
  deriving DecidableEq, Repr

inductive Monitor where
  | sleeping
  | draining (todo alive expired : List SessionId)
  | judging (session : SessionId) (todo alive expired : List SessionId)
  | reading (session : SessionId) (todo alive expired : List SessionId)
  deriving DecidableEq, Repr

structure State where
  now : Nat
  contexts : List SessionId
  metadata : SessionId → Metadata
  fresh : SessionId
  monitor : Monitor
  tasks : List Pc
  /-- Ghost: when a busy guard of the session was last dropped. -/
  ended : SessionId → Option Nat

def Pc.reads (c : SessionId) : Pc → Bool
  | .answering d => c = d
  | _ => false

def Monitor.reads (c : SessionId) : Monitor → Bool
  | .reading d .. => c = d
  | _ => false

def State.lockFree (s : State) (c : SessionId) : Bool :=
  !s.tasks.any (Pc.reads c) && !s.monitor.reads c

/-- The `contexts` lock, which the monitor holds for its whole tick. -/
def State.poolFree (s : State) : Bool := s.monitor = .sleeping

def State.setBusy (s : State) (c : SessionId) (busy : Bool) : State :=
  { s with metadata := Function.update s.metadata c { s.metadata c with isBusy := busy } }

def State.stamp (s : State) (c : SessionId) (time : Nat) : State :=
  { s with metadata := Function.update s.metadata c { s.metadata c with lastUsedAt := time } }

def State.setTask (s : State) (i : Nat) (pc : Pc) : State := { s with tasks := s.tasks.set i pc }

inductive Choice where
  | go
  /-- The url is refused, or the request is done. -/
  | finish
  deriving DecidableEq, Repr

inductive Action where
  | tick (elapsed : Nat)
  | create
  | session (context : SessionId)
  | endSession (context : SessionId)
  | destroy (context : SessionId)
  | run (task : Nat) (choice : Choice)
  | cancel (task : Nat)
  /-- `condemned`: the session is used up, or its cache too large. -/
  | monitor (condemned : Bool)
  deriving DecidableEq, Repr

/-- `scrape_page_internal` on a session, as far as the flag and the timestamp go. -/
def runTask (s : State) (i : Nat) (choice : Choice) : Pc → Option State
  | .claiming c =>
    if (s.metadata c).isBusy then some (s.setTask i (.rejected c))
    else some ((s.setBusy c true).setTask i (.guarded c))
  | .rejected c => if s.lockFree c then some (s.setTask i (.answering c)) else none
  | .answering _ => some (s.setTask i .finished)
  | .guarded c =>
    match choice with
    | .go => some (s.setTask i (.stamping c s.now))
    | .finish => some (s.setTask i (.dropping c))
  | .stamping c started => if s.lockFree c then some ((s.stamp c started).setTask i (.running c)) else none
  | .running c =>
    match choice with
    | .go => none
    | .finish => some (s.setTask i (.dropping c))
  | .dropping c =>
    -- `try_lock`, and the stamp if it succeeds
    let dropped := { s with ended := Function.update s.ended c (some s.now) }
    if s.lockFree c then some ((dropped.stamp c s.now).setTask i (.clearing c))
    else some (dropped.setTask i (.clearing c))
  | .clearing c => some ((s.setBusy c false).setTask i .finished)
  | .finished => none

/-- A future is dropped at the await it is suspended in, and its guard with it. -/
def cancelTask (s : State) (i : Nat) : Pc → Option State
  | .rejected _ => some (s.setTask i .finished)
  | .stamping c _ | .running c => some (s.setTask i (.dropping c))
  | _ => none

/-- The idle clause of `should_recycle_context`. -/
def idleTooLong (config : ContextLifecycleConfig) (s : State) (c : SessionId) : Bool :=
  decide (s.now - (s.metadata c).lastUsedAt > config.maxIdleTime)

/-- The dedicated tick of `start_lifecycle_monitor`. -/
def runMonitor (config : ContextLifecycleConfig) (s : State) (condemned : Bool) : Option State :=
  match s.monitor with
  | .sleeping => some { s with monitor := .draining s.contexts [] [] }
  | .draining (c :: todo) alive expired =>
    if (s.metadata c).isBusy then some { s with monitor := .draining todo (alive ++ [c]) expired }
    else some { s with monitor := .judging c todo alive expired }
  | .draining [] alive _ => some { s with monitor := .sleeping, contexts := alive }
  | .judging c todo alive expired =>
    if condemned then some { s with monitor := .draining todo alive (expired ++ [c]) }
    else if s.lockFree c then some { s with monitor := .reading c todo alive expired }
    else none
  | .reading c todo alive expired =>
    if idleTooLong config s c then some { s with monitor := .draining todo alive (expired ++ [c]) }
    else some { s with monitor := .draining todo (alive ++ [c]) expired }

def step (config : ContextLifecycleConfig) (s : State) : Action → Option State
  | .tick elapsed => some { s with now := s.now + elapsed }
  | .create =>
    -- a context is handed out busy, and its request adopts the flag
    if s.poolFree then
      some { s with
        contexts := s.contexts ++ [s.fresh]
        metadata := Function.update s.metadata s.fresh ⟨true,s.now⟩
        fresh := s.fresh + 1
        tasks := s.tasks ++ [.guarded s.fresh] }
    else none
  | .session c =>
    if s.poolFree ∧ c ∈ s.contexts then some { s with tasks := s.tasks ++ [.claiming c] } else none
  | .endSession c =>
    -- `end_session_if_used_up` claims the context and never clears the flag
    if s.poolFree ∧ c ∈ s.contexts ∧ (s.metadata c).isBusy = false then
      some { s.setBusy c true with contexts := s.contexts.erase c }
    else none
  | .destroy c => if s.poolFree then some { s with contexts := s.contexts.filter (· ≠ c) } else none
  | .run i choice => (s.tasks[i]?).bind (runTask s i choice)
  | .cancel i => (s.tasks[i]?).bind (cancelTask s i)
  | .monitor condemned => runMonitor config s condemned

def initial : State :=
  { now := 0, contexts := [], metadata := fun _ => ⟨false,0⟩, fresh := 0, monitor := .sleeping, tasks := [],
    ended := fun _ => none }

def machine (config : ContextLifecycleConfig) : Machine State Action := ⟨initial,step config⟩

/-- What a judgement made now goes by: the session's timestamp is no older than the end of
any request that held it, so it is found idle only if none of them ended within
`max_idle_time`. -/
def IdleFromEnd (config : ContextLifecycleConfig) (s : State) : Prop :=
  ∀ c ended, s.ended c = some ended →
    ended ≤ (s.metadata c).lastUsedAt ∧ (idleTooLong config s c = true → config.maxIdleTime < s.now - ended)

/-- A guard is dropped while nobody else holds the session's timestamp, or the timestamp
is of this very moment. -/
def dropsUncontended (s : State) : Action → Bool
  | .run i _ =>
    match s.tasks[i]? with
    | some (.dropping c) => s.lockFree c || (s.metadata c).lastUsedAt = s.now
    | _ => true
  | _ => true

def Pc.session : Pc → Option SessionId
  | .claiming c | .rejected c | .answering c | .guarded c | .stamping c _ | .running c | .dropping c
  | .clearing c => some c
  | .finished => none

/-- Whether the task has the busy flag of `c`. -/
def Pc.owns (c : SessionId) : Pc → Nat
  | .guarded d | .stamping d _ | .running d | .dropping d | .clearing d => if d = c then 1 else 0
  | _ => 0

def Monitor.mentions : Monitor → List SessionId
  | .sleeping => []
  | .draining todo alive _ => todo ++ alive
  | .judging c todo alive _ | .reading c todo alive _ => c :: todo ++ alive

structure Invariant (s : State) : Prop where
  contexts : ∀ c ∈ s.contexts, c < s.fresh
  drained : ∀ c ∈ s.monitor.mentions, c < s.fresh
  known : ∀ (i : Nat) (pc : Pc) (c : SessionId), s.tasks[i]? = some pc → pc.session = some c → c < s.fresh
  owned : ∀ c, Tasks.weigh (Pc.owns c) s.tasks ≤ (s.metadata c).isBusy.toNat
  clock : ∀ c, (s.metadata c).lastUsedAt ≤ s.now
  past : ∀ c ended, s.ended c = some ended → ended ≤ s.now
  /-- A request about to stamp the session read the clock after the last guard was dropped. -/
  started : ∀ (i : Nat) (c : SessionId) (started : Nat), s.tasks[i]? = some (.stamping c started) →
    started ≤ s.now ∧ ∀ ended, s.ended c = some ended → ended ≤ started

/-- The metadata and the record after a step of one task, and its program point. -/
structure Turn (s : State) (i : Nat) (pc : Pc) (t : State) where
  pc' : Pc
  metadata : SessionId → Metadata
  ended : SessionId → Option Nat
  result : t = { s with metadata := metadata, ended := ended, tasks := s.tasks.set i pc' }
  session : ∀ c, pc'.session = some c → pc.session = some c
  owned : ∀ c, pc'.owns c + (s.metadata c).isBusy.toNat ≤ pc.owns c + (metadata c).isBusy.toNat
  record : ∀ c, ended c = s.ended c ∨ (ended c = some s.now ∧ pc = .dropping c)
  started : ∀ c started, pc' = .stamping c started → started = s.now ∧ ended = s.ended
  seen : ∀ c, (ended c = s.ended c ∧ (metadata c).lastUsedAt = (s.metadata c).lastUsedAt) ∨
    (∃ started, pc = .stamping c started ∧ (metadata c).lastUsedAt = started ∧ ended c = s.ended c) ∨
    (metadata c).lastUsedAt = s.now ∨
    (pc = .dropping c ∧ s.lockFree c = false ∧ ended c = some s.now ∧
      (metadata c).lastUsedAt = (s.metadata c).lastUsedAt)

def Turn.quiet {s : State} {i : Nat} {pc : Pc} (pc' : Pc) (session : ∀ c, pc'.session = some c → pc.session = some c)
    (owned : ∀ c, pc'.owns c ≤ pc.owns c)
    (started : ∀ c started, pc' = .stamping c started → started = s.now) :
    Turn s i pc (s.setTask i pc') where
  pc' := pc'
  metadata := s.metadata
  ended := s.ended
  result := rfl
  session := session
  owned c := Nat.add_le_add_right (owned c) _
  record _ := .inl rfl
  started c time same := ⟨started c time same,rfl⟩
  seen _ := .inl ⟨rfl,rfl⟩

theorem runTask_turn {i : Nat} (moved : runTask s i choice pc = some t) : Nonempty (Turn s i pc t) := by
  cases pc with
  | claiming c =>
    simp only [runTask] at moved
    split at moved <;> obtain rfl := Option.some.inj moved
    · exact ⟨.quiet _ (by simp [Pc.session]) (by simp [Pc.owns]) (by simp)⟩
    · next idle =>
      refine ⟨⟨.guarded c,_,s.ended,rfl,by simp [Pc.session],fun d => ?_,fun _ => .inl rfl,by simp,
        fun d => .inl ⟨rfl,?_⟩⟩⟩
      · by_cases same : d = c
        · subst same
          simp [Pc.owns,State.setBusy,idle]
        · simp [Pc.owns,State.setBusy,Ne.symm same,same]
      · by_cases same : d = c <;> simp [State.setBusy,same]
  | rejected c =>
    simp only [runTask] at moved
    split at moved
    · obtain rfl := Option.some.inj moved
      exact ⟨.quiet _ (by simp [Pc.session]) (by simp [Pc.owns]) (by simp)⟩
    · contradiction
  | answering c =>
    obtain rfl := Option.some.inj moved
    exact ⟨.quiet _ (by simp [Pc.session]) (by simp [Pc.owns]) (by simp)⟩
  | guarded c =>
    cases choice <;> obtain rfl := Option.some.inj moved
    all_goals exact ⟨.quiet _ (by simp [Pc.session]) (by simp [Pc.owns]) (by simp)⟩
  | stamping c started =>
    simp only [runTask] at moved
    split at moved
    · obtain rfl := Option.some.inj moved
      refine ⟨⟨.running c,_,s.ended,rfl,by simp [Pc.session],fun d => ?_,fun _ => .inl rfl,by simp,fun d => ?_⟩⟩
      · by_cases same : d = c
        · subst same
          simp [Pc.owns,State.stamp]
        · simp [Pc.owns,State.stamp,Ne.symm same,same]
      · by_cases same : d = c
        · subst same
          exact .inr (.inl ⟨started,rfl,by simp [State.stamp],rfl⟩)
        · exact .inl ⟨rfl,by simp [State.stamp,same]⟩
    · contradiction
  | running c =>
    cases choice
    · contradiction
    · obtain rfl := Option.some.inj moved
      exact ⟨.quiet _ (by simp [Pc.session]) (by simp [Pc.owns]) (by simp)⟩
  | dropping c =>
    simp only [runTask] at moved
    split at moved <;> obtain rfl := Option.some.inj moved
    · next free =>
      refine ⟨⟨.clearing c,_,Function.update s.ended c (some s.now),rfl,by simp [Pc.session],fun d => ?_,fun d => ?_,
        by simp,fun d => ?_⟩⟩
      all_goals by_cases same : d = c
      all_goals try subst same
      · simp [Pc.owns,State.stamp]
      · simp [Pc.owns,State.stamp,Ne.symm same,same]
      · exact .inr ⟨by simp,rfl⟩
      · exact .inl (by simp [same])
      · exact .inr (.inr (.inl (by simp [State.stamp])))
      · exact .inl ⟨by simp [same],by simp [State.stamp,same]⟩
    · next held =>
      refine ⟨⟨.clearing c,s.metadata,Function.update s.ended c (some s.now),rfl,by simp [Pc.session],fun d => ?_,
        fun d => ?_,by simp,fun d => ?_⟩⟩
      · simp [Pc.owns]
      all_goals by_cases same : d = c
      all_goals try subst same
      · exact .inr ⟨by simp,rfl⟩
      · exact .inl (by simp [same])
      · exact .inr (.inr (.inr ⟨rfl,by simpa using held,by simp,rfl⟩))
      · exact .inl ⟨by simp [same],rfl⟩
  | clearing c =>
    obtain rfl := Option.some.inj moved
    refine ⟨⟨.finished,_,s.ended,rfl,by simp [Pc.session],fun d => ?_,fun _ => .inl rfl,by simp,
      fun d => .inl ⟨rfl,?_⟩⟩⟩
    · by_cases same : d = c
      · subst same
        simp [Pc.owns,State.setBusy,Bool.toNat_le]
      · simp [Pc.owns,State.setBusy,Ne.symm same,same]
    · by_cases same : d = c <;> simp [State.setBusy,same]
  | finished => contradiction

theorem cancelTask_turn {i : Nat} (dropped : cancelTask s i pc = some t) : Nonempty (Turn s i pc t) := by
  cases pc with
  | rejected c | stamping c | running c =>
    obtain rfl := Option.some.inj dropped
    exact ⟨.quiet _ (by simp [Pc.session]) (by simp [Pc.owns]) (by simp)⟩
  | _ => contradiction

theorem Invariant.turn {i : Nat} (valid : Invariant s) (at_ : s.tasks[i]? = some pc) (turn : Turn s i pc t) :
    Invariant t := by
  obtain ⟨pc',metadata,ended,rfl,session,owned,record,started,seen⟩ := turn
  constructor
  case contexts => exact valid.contexts
  case drained => exact valid.drained
  case known =>
    intro j x c atJ on
    rcases Tasks.getElem?_set_cases at_ atJ with ⟨rfl,rfl⟩ | ⟨_,atJ⟩
    · exact valid.known j pc c at_ (session c on)
    · exact valid.known j x c atJ on
  case owned =>
    intro c
    have total := Tasks.weigh_set (w := Pc.owns c) at_ pc'
    have before := valid.owned c
    have change := owned c
    dsimp only
    omega
  case clock =>
    intro c
    rcases seen c with ⟨_,same⟩ | ⟨time,rfl,same,_⟩ | now | ⟨_,_,_,same⟩
    · exact same ▸ valid.clock c
    · exact same ▸ (valid.started i c time at_).1
    · exact Nat.le_of_eq now
    · exact same ▸ valid.clock c
  case past =>
    intro c time now
    rcases record c with same | ⟨same,_⟩
    · exact valid.past c time (same ▸ now)
    · exact Nat.le_of_eq (Option.some.inj (now.symm.trans same))
  case started =>
    intro j c time atJ
    rcases Tasks.getElem?_set_cases at_ atJ with ⟨rfl,same⟩ | ⟨apart,atJ⟩
    · obtain ⟨rfl,unchanged⟩ := started c time same.symm
      exact ⟨Nat.le_refl _,fun before recorded => valid.past c before (unchanged ▸ recorded)⟩
    · refine ⟨(valid.started j c time atJ).1,fun before recorded => ?_⟩
      rcases record c with same | ⟨_,rfl⟩
      · exact (valid.started j c time atJ).2 before (same ▸ recorded)
      · have both := Tasks.weight_pair_le (w := Pc.owns c) atJ at_ apart
        have most := valid.owned c
        have flag : (s.metadata c).isBusy.toNat ≤ 1 := Bool.toNat_le _
        simp only [Pc.owns,↓reduceIte] at both
        omega

theorem runMonitor_cases (moved : runMonitor config s condemned = some t) :
    ∃ monitor contexts, t = { s with monitor := monitor, contexts := contexts } ∧
      (∀ c ∈ monitor.mentions, c ∈ s.monitor.mentions ∨ c ∈ s.contexts) ∧
      ∀ c ∈ contexts, c ∈ s.monitor.mentions ∨ c ∈ s.contexts := by
  cases here : s.monitor with
  | sleeping =>
    simp only [runMonitor,here] at moved
    obtain rfl := Option.some.inj moved
    exact ⟨_,_,rfl,by simp [Monitor.mentions],fun c inside => .inr inside⟩
  | draining todo alive expired =>
    cases todo with
    | nil =>
      simp only [runMonitor,here] at moved
      obtain rfl := Option.some.inj moved
      exact ⟨_,_,rfl,by simp [Monitor.mentions],fun c inside => .inl (by simpa [Monitor.mentions] using inside)⟩
    | cons c todo =>
      simp only [runMonitor,here] at moved
      split at moved <;> obtain rfl := Option.some.inj moved
      all_goals exact ⟨_,_,rfl,fun d inside => .inl (by grind [Monitor.mentions]),fun d inside => .inr inside⟩
  | judging c todo alive expired | reading c todo alive expired =>
    simp only [runMonitor,here] at moved
    repeat' split at moved
    all_goals first
      | contradiction
      | (obtain rfl := Option.some.inj moved
         exact ⟨_,_,rfl,fun d inside => .inl (by grind [Monitor.mentions]),fun d inside => .inr inside⟩)

theorem Invariant.create (valid : Invariant s) : Invariant { s with
    contexts := s.contexts ++ [s.fresh]
    metadata := Function.update s.metadata s.fresh ⟨true,s.now⟩
    fresh := s.fresh + 1
    tasks := s.tasks ++ [.guarded s.fresh] } := by
  have unborn : Tasks.weigh (Pc.owns s.fresh) s.tasks = 0 := by
    refine Tasks.weigh_eq_zero_iff.mpr fun i pc at_ => ?_
    refine Classical.byContradiction fun owns => Nat.lt_irrefl _ (valid.known i pc s.fresh at_ ?_)
    cases pc <;> simp_all [Pc.owns,Pc.session]
  constructor
  case contexts => exact fun c inside => by have := valid.contexts c; simp at inside ⊢; grind
  case drained => exact fun c inside => Nat.lt_succ_of_lt (valid.drained c inside)
  case known =>
    intro i pc c at_ on
    rcases Tasks.getElem?_append_cases at_ with at_ | ⟨_,rfl⟩
    · exact Nat.lt_succ_of_lt (valid.known i pc c at_ on)
    · obtain rfl : s.fresh = c := by simpa [Pc.session] using on
      exact Nat.lt_succ_self _
  case owned =>
    intro c
    have before := valid.owned c
    by_cases same : c = s.fresh
    · subst same
      simp [Pc.owns,unborn]
    · simpa [Pc.owns,same,Ne.symm same] using before
  case clock =>
    intro c
    by_cases same : c = s.fresh
    · simp [same]
    · simpa [same] using valid.clock c
  case past => exact valid.past
  case started =>
    intro i c time at_
    rcases Tasks.getElem?_append_cases at_ with at_ | ⟨_,same⟩
    · exact valid.started i c time at_
    · contradiction

theorem Invariant.session (valid : Invariant s) (here : c ∈ s.contexts) :
    Invariant { s with tasks := s.tasks ++ [.claiming c] } := by
  refine ⟨valid.contexts,valid.drained,fun i pc d at_ on => ?_,fun d => ?_,valid.clock,valid.past,
    fun i d time at_ => ?_⟩
  · rcases Tasks.getElem?_append_cases at_ with at_ | ⟨_,rfl⟩
    · exact valid.known i pc d at_ on
    · obtain rfl : c = d := by simpa [Pc.session] using on
      exact valid.contexts c here
  · simpa [Pc.owns] using valid.owned d
  · rcases Tasks.getElem?_append_cases at_ with at_ | ⟨_,same⟩
    · exact valid.started i d time at_
    · contradiction

theorem Invariant.step (valid : Invariant s) (taken : step config s action = some t) : Invariant t := by
  cases action with
  | tick elapsed =>
    obtain rfl := Option.some.inj taken
    refine ⟨valid.contexts,valid.drained,valid.known,valid.owned,fun c => ?_,fun c time ended => ?_,
      fun i c time at_ => ⟨?_,(valid.started i c time at_).2⟩⟩
    · exact Nat.le_add_right_of_le (valid.clock c)
    · exact Nat.le_add_right_of_le (valid.past c time ended)
    · exact Nat.le_add_right_of_le (valid.started i c time at_).1
  | create =>
    simp only [IdleTime.step] at taken
    split at taken
    · obtain rfl := Option.some.inj taken
      exact valid.create
    · contradiction
  | session c =>
    simp only [IdleTime.step] at taken
    split at taken
    · next here =>
      obtain rfl := Option.some.inj taken
      exact valid.session here.2
    · contradiction
  | endSession c =>
    simp only [IdleTime.step] at taken
    split at taken
    · obtain rfl := Option.some.inj taken
      refine ⟨fun d inside => valid.contexts d (List.mem_of_mem_erase inside),valid.drained,valid.known,fun d => ?_,
        fun d => ?_,valid.past,valid.started⟩
      all_goals by_cases same : d = c
      · apply Nat.le_trans (valid.owned d)
        simp [State.setBusy,same,Bool.toNat_le]
      · simpa [State.setBusy,same] using valid.owned d
      · simpa [State.setBusy,same] using valid.clock c
      · simpa [State.setBusy,same] using valid.clock d
    · contradiction
  | destroy c =>
    simp only [IdleTime.step] at taken
    split at taken
    · obtain rfl := Option.some.inj taken
      exact ⟨fun d inside => valid.contexts d (List.mem_filter.mp inside).1,valid.drained,valid.known,valid.owned,
        valid.clock,valid.past,valid.started⟩
    · contradiction
  | run i choice =>
    obtain ⟨pc,at_,moved⟩ := Option.bind_eq_some_iff.mp taken
    exact valid.turn at_ (runTask_turn moved).some
  | cancel i =>
    obtain ⟨pc,at_,dropped⟩ := Option.bind_eq_some_iff.mp taken
    exact valid.turn at_ (cancelTask_turn dropped).some
  | monitor condemned =>
    obtain ⟨monitor,contexts,rfl,drained,kept⟩ := runMonitor_cases taken
    refine ⟨fun c inside => ?_,fun c inside => ?_,valid.known,valid.owned,valid.clock,valid.past,valid.started⟩
    · exact (kept c inside).elim (valid.drained c) (valid.contexts c)
    · exact (drained c inside).elim (valid.drained c) (valid.contexts c)

theorem Invariant.initial : Invariant initial := by
  constructor <;> simp [IdleTime.initial,Monitor.mentions]

/-- The timestamp alone says it: idle times are counted from it. -/
theorem idleFromEnd_iff : IdleFromEnd config s ↔ ∀ c ended, s.ended c = some ended → ended ≤ (s.metadata c).lastUsedAt := by
  refine ⟨fun holds c ended at_ => (holds c ended at_).1,fun holds c ended at_ => ⟨holds c ended at_,fun idle => ?_⟩⟩
  have stamped := holds c ended at_
  simp only [idleTooLong,decide_eq_true_eq] at idle
  omega

/-- The end of a request is stamped unless its guard is dropped in somebody else's way. -/
theorem turn_idle {i : Nat} (valid : Invariant s) (holds : IdleFromEnd config s) (at_ : s.tasks[i]? = some pc)
    (met : ∀ c, pc = .dropping c → s.lockFree c = false → (s.metadata c).lastUsedAt = s.now) (turn : Turn s i pc t) :
    IdleFromEnd config t := by
  rw [idleFromEnd_iff] at holds ⊢
  have later := valid.turn at_ turn
  obtain ⟨pc',metadata,ended,rfl,session,owned,record,started,seen⟩ := turn
  intro c time now
  rcases seen c with ⟨same,stamp⟩ | ⟨began,rfl,stamp,same⟩ | stamp | ⟨rfl,held,_,stamp⟩
  · exact stamp ▸ holds c time (same ▸ now)
  · exact stamp ▸ (valid.started i c began at_).2 time (same ▸ now)
  · exact stamp ▸ later.past c time now
  · exact stamp ▸ met c rfl held ▸ later.past c time now

theorem step_idle (valid : Invariant s) (holds : IdleFromEnd config s) (met : dropsUncontended s action = true)
    (taken : step config s action = some t) : IdleFromEnd config t := by
  cases action with
  | tick elapsed =>
    obtain rfl := Option.some.inj taken
    rw [idleFromEnd_iff] at holds ⊢
    exact holds
  | create =>
    simp only [step] at taken
    split at taken
    · obtain rfl := Option.some.inj taken
      rw [idleFromEnd_iff] at holds ⊢
      intro c time ended
      by_cases same : c = s.fresh
      · simpa [same] using valid.past c time ended
      · simpa [same] using holds c time ended
    · contradiction
  | session c | destroy c =>
    simp only [step] at taken
    split at taken
    · obtain rfl := Option.some.inj taken
      rw [idleFromEnd_iff] at holds ⊢
      exact holds
    · contradiction
  | endSession c =>
    simp only [step] at taken
    split at taken
    · obtain rfl := Option.some.inj taken
      rw [idleFromEnd_iff] at holds ⊢
      intro d time ended
      by_cases same : d = c
      · subst same
        simpa [State.setBusy] using holds d time ended
      · simpa [State.setBusy,same] using holds d time ended
    · contradiction
  | run i choice =>
    obtain ⟨pc,at_,moved⟩ := Option.bind_eq_some_iff.mp taken
    refine turn_idle valid holds at_ (fun c dropping held => ?_) (runTask_turn moved).some
    simpa [dropsUncontended,at_,dropping,held] using met
  | cancel i =>
    obtain ⟨pc,at_,dropped⟩ := Option.bind_eq_some_iff.mp taken
    refine turn_idle valid holds at_ (fun c dropping _ => ?_) (cancelTask_turn dropped).some
    subst dropping
    contradiction
  | monitor condemned =>
    obtain ⟨_,_,rfl,_⟩ := runMonitor_cases taken
    rw [idleFromEnd_iff] at holds ⊢
    exact holds

/-- A guard that finds the lock taken leaves the timestamp of the request's start. -/
theorem step_stale (valid : Invariant s) (unmet : ¬dropsUncontended s action = true)
    (taken : step config s action = some t) : ¬IdleFromEnd config t := by
  cases action with
  | run i choice =>
    obtain ⟨pc,at_,moved⟩ := Option.bind_eq_some_iff.mp taken
    cases pc with
    | dropping c =>
      obtain ⟨held,old⟩ : s.lockFree c = false ∧ (s.metadata c).lastUsedAt ≠ s.now := by
        simpa [dropsUncontended,at_] using unmet
      simp only [runTask,held,Bool.false_eq_true,↓reduceIte] at moved
      obtain rfl := Option.some.inj moved
      intro holds
      have stamped := (idleFromEnd_iff.mp holds) c s.now (by simp [State.setTask])
      have before := valid.clock c
      simp only [State.setTask] at stamped
      omega
    | _ => simp [dropsUncontended,at_] at unmet
  | _ => exact absurd rfl unmet

/-- In every run: every judgement of a session that could be made goes by a timestamp no
older than the end of the last request that held it, if and only if each busy guard is
dropped while no other task holds the session's timestamp, or in the very moment that the
timestamp already shows. -/
theorem idle_from_end_iff (config : ContextLifecycleConfig) (actions : List Action) :
    (machine config).Along (IdleFromEnd config) actions initial ↔
    (machine config).Meets (fun s action => dropsUncontended s action = true) actions initial :=
  Machine.along_iff_meets (I := Invariant) (J := IdleFromEnd config)
    (fun _ _ _ valid taken => valid.step taken) (fun _ _ holds => holds)
    (fun _ _ _ valid holds met taken => step_idle valid holds met taken)
    (fun _ _ _ valid unmet taken => step_stale valid unmet taken) actions _ Invariant.initial (by simp [IdleFromEnd,initial])

/-- A session's second request is rejected, and has the timestamp locked for its answer
when the first one, which ran for a hundred time units, ends. The monitor's next tick finds
the session idle. -/
def lostStamp : List Action :=
  [.create,.run 0 .go,.run 0 .go,.session 0,.run 1 .go,.tick 100,.run 1 .go,.run 0 .finish,.run 0 .go,.run 0 .go,
    .run 1 .go,.monitor false,.monitor false,.monitor false,.monitor false,.monitor false]

theorem busy_answer_ends_session :
    ∃ s, (machine (ValidScope.small .dedicated).lifecycle).exec lostStamp initial = some s ∧
      s.ended 0 = some s.now ∧ (s.metadata 0).lastUsedAt + 100 = s.now ∧ s.contexts = [] ∧
      ¬IdleFromEnd (ValidScope.small .dedicated).lifecycle s := by
  obtain ⟨s,ran,ended,stamp,gone⟩ : ∃ s, (machine (ValidScope.small .dedicated).lifecycle).exec lostStamp initial = some s ∧
      s.ended 0 = some s.now ∧ (s.metadata 0).lastUsedAt + 100 = s.now ∧ s.contexts = [] := ⟨_,rfl,rfl,rfl,rfl⟩
  refine ⟨s,ran,ended,stamp,gone,fun holds => ?_⟩
  have stamped := (holds 0 s.now ended).1
  omega

end BrowserHive.Pool.IdleTime
