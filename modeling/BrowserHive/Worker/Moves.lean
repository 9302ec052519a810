import BrowserHive.Lib.Tasks
import BrowserHive.Worker.Machine

/-! Everything a handler can do in one step, by kind, and everything an action can do to
the worker. The invariants of the worker are read off these. -/
namespace BrowserHive.Worker

open BrowserHive Transition RwLock

variable {scope : ValidScope} {s t : State}

section Handler

variable {p pools : Pools} {i : Nat} {h h' : Handler} {terminating : Bool}

def Back.attempt? : Back → Option Attempt
  | .acquire _ => none
  | .attempt a => some a

def Pc.attempt : Pc → Option Attempt
  | .claim a | .tabbing a | .tab a | .navigate a | .load a | .leaving a | .leave a | .status a
  | .discarding a _ | .discard a _ | .ended a _ _ => some a
  | .launching _ back | .replacing _ back | .replace _ back | .bump back => back.attempt?
  | _ => none

/-- The context a first attempt will run in, before the generation is read. -/
def Pc.unread : Pc → Option ContextId
  | .found c | .bound c => some c
  | _ => none

def Pc.context (pc : Pc) : Option ContextId := pc.unread.or (pc.attempt.map Attempt.context)

def Pc.starts : Pc → Nat
  | .claim _ => 1
  | _ => 0

/-- The points at which `scrape_page_internal` holds nothing but its context. -/
def Pc.plain : Pc → Bool
  | .tabbing _ | .navigate _ | .load _ | .status _ => true
  | _ => false

def Keeping (scope : ValidScope) (a : Attempt) (result : Result) : Prop :=
  ∃ reply, result = .ok reply ∧ reply.contextId = addressableContextId scope.sessionMode a.context

def Silent (result : Result) : Prop := ∃ reply, result = .ok reply ∧ reply.contextId = none

inductive Move (scope : ValidScope) (p : Pools) (i : Nat) (h : Handler) (terminating : Bool) :
    Pools → Handler → Prop where
  | refuse (at_ : h.pc = .arrived) (why : terminating = true ∨ h.req.session scope = none)
      (silent : Silent result) : Move scope p i h terminating p (h.goto (.finishing result))
  | look (at_ : h.pc = .arrived) (domain : h.req.hasDomain = true) : Move scope p i h terminating p (h.goto .lookingUp)
  | ask (at_ : h.pc = .arrived) : Move scope p i h terminating p (h.goto .echoing)
  | echo (at_ : h.pc = .echo) (ok : result = .ok reply)
      (echoes : reply.contextId = (h.req.session scope).filter (· ∈ p.contexts)) :
      Move scope p i h terminating p (h.goto (.finishing result))
  | find (at_ : h.pc = .lookup) (session : h.req.session scope = some c) (inside : c ∈ p.contexts) :
      Move scope p i h terminating p (h.goto (.found c))
  | miss (at_ : h.pc = .lookup) (session : h.req.session scope = some c) (outside : c ∉ p.contexts)
      (silent : Silent result) : Move scope p i h terminating p (h.goto (.finishing result))
  | unlock (at_ : h.pc = .lookup) (session : h.req.session scope = none) :
      Move scope p i h terminating p { h with outer := false, pc := .acquiring false false }
  | keep (at_ : h.pc = .found c) : Move scope p i h terminating p (h.goto (.bound c))
  | retire (at_ : h.pc = .found c) (inside : c ∈ p.contexts) (silent : Silent result) :
      Move scope p i h terminating (p.remove c (some i)) (h.goto (.finishing result))
  | create (at_ : h.pc = .acquire retry recovered) :
      Move scope p i h terminating p.create
        (bindContext retry p.fresh { h with created := h.created ++ [p.fresh] })
  | reuse (at_ : h.pc = .acquire retry recovered) (mode : scope.sessionMode = .reusable)
      (inside : c ∈ p.contexts) : Move scope p i h terminating p (bindContext retry c h)
  | giveUp (at_ : (∃ retry recovered, h.pc = .acquire retry recovered) ∨
        ∃ dead retry, h.pc = .launching dead (.acquire retry))
      (silent : Silent result) : Move scope p i h terminating p (h.goto (.finishing result))
  | observe (at_ : (∃ retry, h.pc = .acquire retry false ∧ back = .acquire retry) ∨
        ∃ a, h.pc = .tab a ∧ back = .attempt a)
      (dead : p.alive = false) : Move scope p i h terminating p (h.goto (.launching p.number back))
  | launch (at_ : h.pc = .launching dead back) :
      Move scope p i h terminating p (h.goto (.replacing dead back))
  | swap (at_ : h.pc = .replace dead back) :
      Move scope p i h terminating (p.replace scope) (h.goto (.bump back))
  | bumpAcquire (at_ : h.pc = .bump (.acquire retry)) :
      Move scope p i h terminating p.bump (h.goto (.acquiring retry true))
  | bumpAttempt (at_ : h.pc = .bump (.attempt a)) (silent : Silent result) :
      Move scope p i h terminating p.bump (h.goto (.ended a (p.bump.replaced a.context) result))
  | read (at_ : h.pc = .bound c) :
      Move scope p i h terminating p (h.goto (.claim ⟨some p.generation,c⟩))
  | walk (at_ : h.pc.attempt = some a) (running : ∀ replaced result, h.pc ≠ .ended a replaced result)
      (inside : pc.attempt = some a) (plain : pc.plain = true)
      (attempts : Nat) (counted : attempts = h.attempts + h.pc.starts) :
      Move scope p i h terminating p { h with attempts := attempts, pc := pc }
  | early (at_ : h.pc = .load a) (mode : scope.sessionMode = .alwaysNew) :
      Move scope p i h terminating p (h.goto (.leaving a))
  | leave (at_ : h.pc = .leave a) :
      Move scope p i h terminating (p.remove a.context (some i)) (h.goto (.status a))
  | fail (at_ : h.pc.attempt = some a) (running : ∀ replaced result, h.pc ≠ .ended a replaced result)
      (unlocked : h.pc.guard ≠ some .write) (keeping : Keeping scope a result)
      (attempts : Nat) (counted : attempts = h.attempts + h.pc.starts) :
      Move scope p i h terminating p
        { h with attempts := attempts, pc := .ended a (p.replaced a.context) result }
  | reject (at_ : h.pc = .navigate a) (invalid : h.req.validateWait = .error status) :
      Move scope p i h terminating p (h.goto (.ended a (p.replaced a.context) (.error status)))
  | lose (at_ : h.pc = .tab a) (silent : Silent result) :
      Move scope p i h terminating (p.remove a.context (some i))
        (h.goto (.ended a ((p.remove a.context (some i)).replaced a.context) result))
  | giveBack (at_ : h.pc.attempt = some a) (running : ∀ replaced result, h.pc ≠ .ended a replaced result)
      (begun : h.pc.starts = 0) (silent : reply.contextId = none) : Move scope p i h terminating p (h.goto (.discarding a reply))
  | discard (at_ : h.pc = .discard a reply) :
      Move scope p i h terminating (p.remove a.context (some i))
        (h.goto (.ended a ((p.remove a.context (some i)).replaced a.context) (.ok reply)))
  | retry (at_ : h.pc = .ended a replaced result) (first : a.generation = some generation)
      (moved : p.generation ≠ generation) (failed : isFailure result = true) :
      Move scope p i h terminating p (h.goto (.acquiring true false))
  | settle (at_ : h.pc = .ended a replaced result)
      (final : ∀ generation, a.generation = some generation → p.generation = generation ∨ isFailure result = false) :
      Move scope p i h terminating p (h.goto (.finishing result))
  | leaveHandler (at_ : h.pc = .finishing result) :
      Move scope p i h terminating p { h with outer := false, pc := .returned result }

theorem silent_failure (errorCode : ErrorCode) : Silent (.ok (.failure errorCode none)) := ⟨_,rfl,rfl⟩

theorem keeping_failure (scope : ValidScope) (a : Attempt) (errorCode : ErrorCode) :
    Keeping scope a (.ok (.failure errorCode (addressableContextId scope.sessionMode a.context))) := ⟨_,rfl,rfl⟩

theorem lookup_move (moved : lookupNext scope p i h terminating choice = some (pools,h')) :
    Move scope p i h terminating pools h' := by
  unfold lookupNext at moved
  split at moved
  · next at_ =>
    split at moved
    · next stopping =>
      obtain ⟨rfl,rfl⟩ := by simpa [finish] using moved
      exact .refuse at_ (.inl stopping) (silent_failure _)
    · split at moved
      · next domain =>
        obtain ⟨rfl,rfl⟩ := by simpa using moved
        exact .look at_ domain
      · split at moved
        · obtain ⟨rfl,rfl⟩ := by simpa using moved
          exact .ask at_
        · next session =>
          obtain ⟨rfl,rfl⟩ := by simpa [finish] using moved
          exact .refuse at_ (.inr session) (silent_failure _)
  · next at_ =>
    obtain ⟨rfl,rfl⟩ := by simpa [finish] using moved
    exact .echo at_ rfl rfl
  · next at_ =>
    split at moved
    · next c session =>
      split at moved
      · next inside =>
        obtain ⟨rfl,rfl⟩ := by simpa using moved
        exact .find at_ session inside
      · next outside =>
        obtain ⟨rfl,rfl⟩ := by simpa [finish] using moved
        exact .miss at_ session outside (silent_failure _)
    · next session =>
      obtain ⟨rfl,rfl⟩ := by simpa using moved
      exact .unlock at_ session
  · next c at_ =>
    split at moved
    · obtain ⟨rfl,rfl⟩ := by simpa using moved
      exact .keep at_
    · split at moved
      · next inside =>
        obtain ⟨rfl,rfl⟩ := by simpa [finish] using moved
        exact .retire at_ inside (silent_failure _)
      · contradiction
    · contradiction
  · contradiction

theorem acquire_move (moved : acquireNext scope p h choice = some (pools,h')) :
    Move scope p i h terminating pools h' := by
  unfold acquireNext at moved
  split at moved
  · next retry recovered at_ =>
    split at moved
    · obtain ⟨rfl,rfl⟩ := by simpa using moved
      exact .create at_
    · split at moved
      · next usable =>
        obtain ⟨rfl,rfl⟩ := by simpa using moved
        exact .reuse at_ usable.1 usable.2
      · contradiction
    · obtain ⟨rfl,rfl⟩ := by simpa [finish] using moved
      exact .giveUp (.inl ⟨_,_,at_⟩) (silent_failure _)
    · obtain ⟨rfl,rfl⟩ := by simpa [finish] using moved
      exact .giveUp (.inl ⟨_,_,at_⟩) (silent_failure _)
    · split at moved
      · contradiction
      · next dead =>
        split at moved
        · obtain ⟨rfl,rfl⟩ := by simpa [finish] using moved
          exact .giveUp (.inl ⟨_,_,at_⟩) (silent_failure _)
        · next fresh =>
          obtain ⟨rfl,rfl⟩ := by simpa using moved
          obtain rfl : recovered = false := by simpa using fresh
          exact .observe (.inl ⟨retry,at_,rfl⟩) (by simpa using dead)
    · contradiction
  · next dead back at_ =>
    split at moved
    · obtain ⟨rfl,rfl⟩ := by simpa using moved
      exact .launch at_
    · split at moved
      · obtain ⟨rfl,rfl⟩ := by simpa [finish] using moved
        exact .giveUp (.inr ⟨_,_,at_⟩) (silent_failure _)
      · obtain ⟨rfl,rfl⟩ := by simpa [failWith,endWith] using moved
        exact .fail (by rw [at_]; rfl) (by simp [at_]) (by simp [at_,Pc.guard]) (keeping_failure scope _ _)
          h.attempts (by simp [at_,Pc.starts])
    · contradiction
  · next at_ =>
    obtain ⟨rfl,rfl⟩ := by simpa using moved
    exact .swap at_
  · next at_ =>
    obtain ⟨rfl,rfl⟩ := by simpa using moved
    exact .bumpAcquire at_
  · next a at_ =>
    obtain ⟨rfl,rfl⟩ := by simpa [endWith] using moved
    exact .bumpAttempt at_ (silent_failure _)
  · contradiction

theorem attempt_move (moved : attemptNext scope p i h terminating choice = some (pools,h')) :
    Move scope p i h terminating pools h' := by
  unfold attemptNext at moved
  split at moved
  · next at_ =>
    obtain ⟨rfl,rfl⟩ := by simpa using moved
    exact .read at_
  · next a at_ =>
    split at moved
    · split at moved
      · obtain ⟨rfl,rfl⟩ := by simpa [failWith,endWith] using moved
        exact .fail (by rw [at_]; rfl) (by simp [at_]) (by simp [at_,Pc.guard]) (keeping_failure scope _ _)
          (h.attempts + 1) (by simp [at_,Pc.starts])
      · contradiction
    · split at moved
      · obtain ⟨rfl,rfl⟩ := by simpa using moved
        exact .walk (by rw [at_]; rfl) (by simp [at_]) rfl rfl (h.attempts + 1) (by simp [at_,Pc.starts])
      · obtain ⟨rfl,rfl⟩ := by simpa [failWith,endWith] using moved
        exact .fail (by rw [at_]; rfl) (by simp [at_]) (by simp [at_,Pc.guard]) (keeping_failure scope _ _)
          (h.attempts + 1) (by simp [at_,Pc.starts])
    · contradiction
  · next a at_ =>
    split at moved
    · obtain ⟨rfl,rfl⟩ := by simpa using moved
      exact .walk (by rw [at_]; rfl) (by simp [at_]) rfl rfl h.attempts (by simp [at_,Pc.starts])
    · obtain ⟨rfl,rfl⟩ := by simpa [failWith,endWith] using moved
      exact .fail (by rw [at_]; rfl) (by simp [at_]) (by simp [at_,Pc.guard]) (keeping_failure scope _ _)
        h.attempts (by simp [at_,Pc.starts])
    · obtain ⟨rfl,rfl⟩ := by simpa [failWith,endWith] using moved
      exact .fail (by rw [at_]; rfl) (by simp [at_]) (by simp [at_,Pc.guard]) (keeping_failure scope _ _)
        h.attempts (by simp [at_,Pc.starts])
    · obtain ⟨rfl,rfl⟩ := by simpa [endWith] using moved
      exact .lose at_ (silent_failure _)
    · obtain ⟨rfl,rfl⟩ := by simpa using moved
      exact .giveBack (by rw [at_]; rfl) (by simp [at_]) (by simp [at_,Pc.starts]) rfl
    · split at moved
      · contradiction
      · next dead =>
        obtain ⟨rfl,rfl⟩ := by simpa using moved
        exact .observe (.inr ⟨a,at_,rfl⟩) (by simpa using dead)
    · contradiction
  · next a at_ =>
    split at moved
    · split at moved
      · obtain ⟨rfl,rfl⟩ := by simpa using moved
        exact .walk (by rw [at_]; rfl) (by simp [at_]) rfl rfl h.attempts (by simp [at_,Pc.starts])
      · next invalid =>
        obtain ⟨rfl,rfl⟩ := by simpa [endWith] using moved
        exact .reject at_ invalid
    · obtain ⟨rfl,rfl⟩ := by simpa using moved
      exact .giveBack (by rw [at_]; rfl) (by simp [at_]) (by simp [at_,Pc.starts]) rfl
    · obtain ⟨rfl,rfl⟩ := by simpa using moved
      exact .giveBack (by rw [at_]; rfl) (by simp [at_]) (by simp [at_,Pc.starts]) rfl
    · split at moved
      · obtain ⟨rfl,rfl⟩ := by simpa [failWith,endWith] using moved
        exact .fail (by rw [at_]; rfl) (by simp [at_]) (by simp [at_,Pc.guard]) (keeping_failure scope _ _)
          h.attempts (by simp [at_,Pc.starts])
      · contradiction
    · obtain ⟨rfl,rfl⟩ := by simpa [failWith,endWith] using moved
      exact .fail (by rw [at_]; rfl) (by simp [at_]) (by simp [at_,Pc.guard]) (keeping_failure scope _ _)
        h.attempts (by simp [at_,Pc.starts])
    · contradiction
  · contradiction

theorem finish_move (moved : finishNext scope p i h terminating choice = some (pools,h')) :
    Move scope p i h terminating pools h' := by
  unfold finishNext at moved
  split at moved
  · next a at_ =>
    split at moved
    · by_cases mode : scope.sessionMode = .alwaysNew
      · obtain ⟨rfl,rfl⟩ := by simpa [mode] using moved
        exact .early at_ mode
      · obtain ⟨rfl,rfl⟩ := by simpa [mode] using moved
        exact .walk (by rw [at_]; rfl) (by simp [at_]) rfl rfl h.attempts (by simp [at_,Pc.starts])
    · obtain ⟨rfl,rfl⟩ := by simpa using moved
      exact .giveBack (by rw [at_]; rfl) (by simp [at_]) (by simp [at_,Pc.starts]) rfl
    · obtain ⟨rfl,rfl⟩ := by simpa using moved
      exact .giveBack (by rw [at_]; rfl) (by simp [at_]) (by simp [at_,Pc.starts]) rfl
    · split at moved
      · obtain ⟨rfl,rfl⟩ := by simpa [failWith,endWith] using moved
        exact .fail (by rw [at_]; rfl) (by simp [at_]) (by simp [at_,Pc.guard]) (keeping_failure scope _ _)
          h.attempts (by simp [at_,Pc.starts])
      · contradiction
    · obtain ⟨rfl,rfl⟩ := by simpa [failWith,endWith] using moved
      exact .fail (by rw [at_]; rfl) (by simp [at_]) (by simp [at_,Pc.guard]) (keeping_failure scope _ _)
        h.attempts (by simp [at_,Pc.starts])
    · contradiction
  · next a at_ =>
    obtain ⟨rfl,rfl⟩ := by simpa using moved
    exact .leave at_
  · next a at_ =>
    split at moved
    · split at moved
      · obtain ⟨rfl,rfl⟩ := by simpa using moved
        exact .giveBack (by rw [at_]; rfl) (by simp [at_]) (by simp [at_,Pc.starts]) rfl
      · obtain ⟨rfl,rfl⟩ := by simpa [endWith] using moved
        exact .fail (by rw [at_]; rfl) (by simp [at_]) (by simp [at_,Pc.guard]) ⟨_,rfl,rfl⟩ h.attempts (by simp [at_,Pc.starts])
    · obtain ⟨rfl,rfl⟩ := by simpa using moved
      exact .giveBack (by rw [at_]; rfl) (by simp [at_]) (by simp [at_,Pc.starts]) rfl
    · contradiction
  · next a reply at_ =>
    obtain ⟨rfl,rfl⟩ := by simpa [endWith] using moved
    exact .discard at_
  · next a replaced result at_ =>
    split at moved
    · next generation first =>
      split at moved
      · next again =>
        obtain ⟨rfl,rfl⟩ := by simpa using moved
        exact .retry at_ first again.1 again.2
      · next final =>
        obtain ⟨rfl,rfl⟩ := by simpa [finish] using moved
        refine .settle at_ fun g same => ?_
        obtain rfl := Option.some.inj (first.symm.trans same)
        simpa [Classical.or_iff_not_imp_left] using final
    · next none_ =>
      obtain ⟨rfl,rfl⟩ := by simpa [finish] using moved
      exact .settle at_ (by simp [none_])
  · next result at_ =>
    obtain ⟨rfl,rfl⟩ := by simpa using moved
    exact .leaveHandler at_
  · contradiction

theorem next_move (moved : next scope p i h terminating choice = some (pools,h')) :
    Move scope p i h terminating pools h' := by
  unfold next at moved
  split at moved
  all_goals first
    | contradiction
    | exact lookup_move moved
    | exact acquire_move moved
    | exact attempt_move moved
    | exact finish_move moved

end Handler

inductive Step (scope : ValidScope) (s : State) : Action → State → Prop where
  | arrive (req : Request) : Step scope s (.arrive req)
      { s with
        pools := match req.contextId with
          | some c => s.pools.name c
          | none => s.pools
        handlers := s.handlers ++ [⟨req,false,0,[],.arrived⟩] }
  | queue (choice : Choice) {i : Nat} (at_ : s.handlers[i]? = some h) (asks : h.pc.asks = some access)
      (out : s.queued i = false) : Step scope s (.run i choice) { s with queue := s.queue ++ [(i,access)] }
  | grant (choice : Choice) {i : Nat} (at_ : s.handlers[i]? = some h) (asks : h.pc.asks = some access)
      (queued : s.queued i = true) (free : s.grants i access = true) : Step scope s (.run i choice)
      { s with
        queue := s.queue.filter (fun entry => entry.1 ≠ i)
        handlers := s.handlers.set i h.granted }
  | move (choice : Choice) {i : Nat} (at_ : s.handlers[i]? = some h) (asks : h.pc.asks = none)
      (moved : next scope s.pools i h s.terminating choice = some (pools,h')) : Step scope s (.run i choice)
      { s with pools := pools, handlers := s.handlers.set i h' }
  | drop {i : Nat} (at_ : s.handlers[i]? = some h) (suspends : h.pc.suspends = true) : Step scope s (.drop i)
      { s with
        queue := s.queue.filter (fun entry => entry.1 ≠ i)
        handlers := s.handlers.set i { h with outer := false, pc := .dropped } }
  | expire (c : ContextId) : Step scope s (.expire c) { s with pools := s.pools.remove c none }
  | die : Step scope s .die { s with pools := { s.pools with alive := false } }
  | terminate : Step scope s .terminate { s with terminating := true }

theorem step_steps (taken : step scope s action = some t) : Step scope s action t := by
  cases action with
  | arrive req =>
    obtain rfl := Option.some.inj taken
    exact .arrive req
  | run i choice =>
    simp only [step] at taken
    split at taken
    · contradiction
    · next h at_ =>
      split at taken
      · next access asks =>
        simp only [lockStep] at taken
        split at taken
        · next queued =>
          split at taken
          · next free =>
            obtain rfl := Option.some.inj taken
            exact .grant choice at_ asks queued free
          · contradiction
        · next out =>
          obtain rfl := Option.some.inj taken
          exact .queue choice at_ asks (by simpa using out)
      · next asks =>
        split at taken
        · contradiction
        · next pools h' moved =>
          obtain rfl := Option.some.inj taken
          exact .move choice at_ asks moved
  | drop i =>
    simp only [step] at taken
    split at taken
    · contradiction
    · next h at_ =>
      split at taken
      · next suspends =>
        obtain rfl := Option.some.inj taken
        exact .drop at_ suspends
      · contradiction
  | expire c =>
    obtain rfl := Option.some.inj taken
    exact .expire c
  | die =>
    obtain rfl := Option.some.inj taken
    exact .die
  | terminate =>
    obtain rfl := Option.some.inj taken
    exact .terminate

inductive Turn (scope : ValidScope) (s : State) (action : Action) (i : Nat) (h : Handler) : Pools → Handler → Prop where
  | move (asks : h.pc.asks = none) (moved : Move scope s.pools i h s.terminating pools h')
      (runs : action = .run i choice) : Turn scope s action i h pools h'
  | grant (asks : h.pc.asks = some access) (free : s.grants i access = true) (runs : action = .run i choice) :
      Turn scope s action i h s.pools h.granted
  | drop (suspends : h.pc.suspends = true) (drops : action = .drop i) :
      Turn scope s action i h s.pools { h with outer := false, pc := .dropped }

/-- A fact about each handler survives a step if a new handler has it, the handler whose
turn it is keeps it, and it outlasts what the step does to the pools. -/
theorem each_step {P : Pools → Nat → Handler → Prop} (taken : step scope s action = some t)
    (arrives : ∀ req, action = .arrive req → P t.pools s.handlers.length ⟨req,false,0,[],.arrived⟩)
    (turns : ∀ i h pools h', s.handlers[i]? = some h → Turn scope s action i h pools h' → t.pools = pools →
      t.handlers = s.handlers.set i h' → P s.pools i h → P pools i h')
    (outlasts : ∀ j h, s.handlers[j]? = some h → (∀ choice, action ≠ .run j choice) → P s.pools j h → P t.pools j h)
    (each : ∀ i h, s.handlers[i]? = some h → P s.pools i h) :
    ∀ i h, t.handlers[i]? = some h → P t.pools i h := by
  intro j k found
  cases step_steps taken with
  | arrive req =>
    rcases Tasks.getElem?_append_cases found with old | ⟨rfl,rfl⟩
    · exact outlasts j k old (by simp) (each j k old)
    · exact arrives req rfl
  | queue choice at_ asks out => exact each j k found
  | @grant h access choice i at_ asks queued free =>
    rcases Tasks.getElem?_set_cases at_ found with ⟨rfl,rfl⟩ | ⟨apart,old⟩
    · exact turns j h _ _ at_ (.grant asks free rfl) rfl rfl (each j h at_)
    · exact each j k old
  | @move h pools h' choice i at_ asks moved =>
    rcases Tasks.getElem?_set_cases at_ found with ⟨rfl,rfl⟩ | ⟨apart,old⟩
    · exact turns j h _ _ at_ (.move asks (next_move moved) rfl) rfl rfl (each j h at_)
    · exact outlasts j k old (by simp [apart.symm]) (each j k old)
  | @drop h i at_ suspends =>
    rcases Tasks.getElem?_set_cases at_ found with ⟨rfl,rfl⟩ | ⟨apart,old⟩
    · exact turns j h _ _ at_ (.drop suspends rfl) rfl rfl (each j h at_)
    · exact each j k old
  | expire c => exact outlasts j k found (by simp) (each j k found)
  | die => exact outlasts j k found (by simp) (each j k found)
  | terminate => exact each j k found

end BrowserHive.Worker
