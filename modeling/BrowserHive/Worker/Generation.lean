import BrowserHive.Worker.Locking

/-! Pools and their generation over every run. The swap and the bump of the generation
happen under one write guard, so whoever compares generations outside of it can be wrong
only about a context whose generation was read too late, or compared too early. -/
namespace BrowserHive.Worker

open BrowserHive Transition RwLock

variable {scope : ValidScope} {s t : State} {p q pools : Pools} {i j : Nat} {h h' : Handler} {terminating : Bool}
  {c : ContextId}

/-- The contexts of the pool are its own, and ids nobody has seen belong to no older pool. -/
structure Pools.Valid (p : Pools) : Prop where
  inside : ∀ c ∈ p.contexts, c < p.fresh ∧ p.home c = p.number
  future : ∀ c, p.fresh ≤ c → p.home c = p.number
  past : ∀ c, p.home c ≤ p.number

/-- What time does to the pools: what is known keeps its pool, and what has left the
current pool does not come back. -/
structure Pools.Later (p q : Pools) : Prop where
  fresh : p.fresh ≤ q.fresh
  number : p.number ≤ q.number
  generation : p.generation ≤ q.generation
  home : ∀ c, c < p.fresh → q.home c = p.home c
  kept : ∀ c, c < p.fresh → c ∈ q.contexts → c ∈ p.contexts

namespace Pools

@[simp] theorem mem_remove : c ∈ (p.remove d r).contexts ↔ c ∈ p.contexts ∧ c ≠ d := by
  unfold remove
  split <;> simp_all
  grind

@[simp] theorem remove_fresh (p : Pools) (c : ContextId) (r : Option Nat) : (p.remove c r).fresh = p.fresh := by
  unfold remove; split <;> rfl

@[simp] theorem remove_number (p : Pools) (c : ContextId) (r : Option Nat) :
    (p.remove c r).number = p.number := by
  unfold remove; split <;> rfl

@[simp] theorem remove_generation (p : Pools) (c : ContextId) (r : Option Nat) :
    (p.remove c r).generation = p.generation := by
  unfold remove; split <;> rfl

@[simp] theorem remove_alive (p : Pools) (c : ContextId) (r : Option Nat) : (p.remove c r).alive = p.alive := by
  unfold remove; split <;> rfl

@[simp] theorem remove_home (p : Pools) (c : ContextId) (r : Option Nat) : (p.remove c r).home = p.home := by
  unfold remove; split <;> rfl

theorem mem_removed (p : Pools) (c : ContextId) (r : Option Nat) :
    entry ∈ (p.remove c r).removed ↔ entry ∈ p.removed ∨ (c ∈ p.contexts ∧ entry = (c,r)) := by
  unfold remove
  split <;> simp_all

theorem Valid.initial (scope : ValidScope) : Valid (initial scope).pools where
  inside := by simp [Worker.initial]
  future := by simp [Worker.initial]
  past := by simp [Worker.initial]

theorem Valid.create (valid : Valid p) : Valid p.create where
  inside c member := by
    rcases List.mem_append.mp member with old | new
    · exact ⟨Nat.lt_succ_of_lt (valid.inside c old).1,(valid.inside c old).2⟩
    · obtain rfl := List.mem_singleton.mp new
      exact ⟨Nat.lt_succ_self p.fresh,valid.future _ (Nat.le_refl p.fresh)⟩
  future c unseen := valid.future c (Nat.le_of_succ_le unseen)
  past := valid.past

theorem Valid.remove (valid : Valid p) (c : ContextId) (r : Option Nat) : Valid (p.remove c r) where
  inside d member := by simpa using valid.inside d (mem_remove.mp member).1
  future d unseen := by simpa using valid.future d (by simpa using unseen)
  past d := by simpa using valid.past d

theorem Valid.replace (valid : Valid p) (scope : ValidScope) : Valid (p.replace scope) where
  inside c member := by
    obtain ⟨lower,upper⟩ : p.fresh ≤ c ∧ c < p.fresh + initialContexts scope := by
      simpa [Pools.replace] using member
    exact ⟨upper,by simp [Pools.replace,Nat.not_lt.mpr lower]⟩
  future c unseen := by
    have : p.fresh ≤ c := Nat.le_trans (Nat.le_add_right _ _) unseen
    simp [Pools.replace,Nat.not_lt.mpr this]
  past c := by
    have := valid.past c
    simp only [Pools.replace]
    split <;> omega

theorem Valid.bump (valid : Valid p) : Valid p.bump := ⟨valid.inside,valid.future,valid.past⟩

theorem Valid.name (valid : Valid p) (c : ContextId) : Valid (p.name c) where
  inside d member := ⟨Nat.lt_of_lt_of_le (valid.inside d member).1 (Nat.le_max_left _ _),(valid.inside d member).2⟩
  future d unseen := valid.future d (Nat.le_trans (Nat.le_max_left _ _) unseen)
  past := valid.past

theorem Later.refl (p : Pools) : Later p p :=
  ⟨Nat.le_refl _,Nat.le_refl _,Nat.le_refl _,fun _ _ => rfl,fun _ _ member => member⟩

theorem Later.create (p : Pools) : Later p p.create where
  fresh := Nat.le_succ _
  number := Nat.le_refl _
  generation := Nat.le_refl _
  home _ _ := rfl
  kept c known member := by
    rcases List.mem_append.mp member with old | new
    · exact old
    · obtain rfl := List.mem_singleton.mp new
      exact absurd known (Nat.lt_irrefl _)

theorem Later.remove (p : Pools) (c : ContextId) (r : Option Nat) : Later p (p.remove c r) where
  fresh := by simp
  number := by simp
  generation := by simp
  home := by simp
  kept _ _ member := (mem_remove.mp member).1

theorem Later.replace (p : Pools) (scope : ValidScope) : Later p (p.replace scope) where
  fresh := Nat.le_add_right _ _
  number := Nat.le_succ _
  generation := Nat.le_refl _
  home c known := by simp [Pools.replace,known]
  kept c known member := by
    obtain ⟨lower,_⟩ : p.fresh ≤ c ∧ c < p.fresh + initialContexts scope := by
      simpa [Pools.replace] using member
    exact absurd known (Nat.not_lt.mpr lower)

theorem Later.bump (p : Pools) : Later p p.bump :=
  ⟨Nat.le_refl _,Nat.le_refl _,Nat.le_succ _,fun _ _ => rfl,fun _ _ member => member⟩

theorem Later.name (p : Pools) (c : ContextId) : Later p (p.name c) :=
  ⟨Nat.le_max_left _ _,Nat.le_refl _,Nat.le_refl _,fun _ _ => rfl,fun _ _ member => member⟩

theorem Later.die (p : Pools) : Later p { p with alive := false } :=
  ⟨Nat.le_refl _,Nat.le_refl _,Nat.le_refl _,fun _ _ => rfl,fun _ _ member => member⟩

theorem replaced_iff : p.replaced c = true ↔ p.home c ≠ p.number := by simp [replaced]

/-- A pool that was replaced stays replaced. -/
theorem Later.replaced (later : Later p q) (valid : Valid p) (known : c < p.fresh) (gone : p.replaced c = true) :
    q.replaced c = true := by
  have below := Nat.lt_of_le_of_ne (valid.past c) (replaced_iff.mp gone)
  rw [replaced_iff,later.home c known]
  exact Nat.ne_of_lt (Nat.lt_of_lt_of_le below later.number)

theorem Later.replaced_same (later : Later p q) (same : q.number = p.number) (known : c < p.fresh) :
    q.replaced c = p.replaced c := by
  simp only [Pools.replaced,later.home c known,same]

theorem Valid.outside (valid : Valid p) (gone : p.replaced c = true) : c ∉ p.contexts :=
  fun member => replaced_iff.mp gone (valid.inside c member).2

/-- Every known context belongs to an older pool than the one that takes the place. -/
theorem Valid.replaced_replace (valid : Valid p) (scope : ValidScope) (known : c < p.fresh) :
    (p.replace scope).replaced c = true := by
  have := valid.past c
  rw [replaced_iff]
  simp only [Pools.replace,known,if_true]
  omega

end Pools

theorem move_later (moved : Move scope p i h terminating pools h') : p.Later pools := by
  cases moved with
  | create => exact .create p
  | retire => exact .remove p _ _
  | leave => exact .remove p _ _
  | lose => exact .remove p _ _
  | discard => exact .remove p _ _
  | swap => exact .replace p scope
  | bumpAcquire => exact .bump p
  | bumpAttempt => exact .bump p
  | _ => exact .refl p

theorem move_valid (valid : p.Valid) (moved : Move scope p i h terminating pools h') : pools.Valid := by
  cases moved with
  | create => exact valid.create
  | retire => exact valid.remove _ _
  | leave => exact valid.remove _ _
  | lose => exact valid.remove _ _
  | discard => exact valid.remove _ _
  | swap => exact valid.replace scope
  | bumpAcquire => exact valid.bump
  | bumpAttempt => exact valid.bump
  | _ => exact valid

theorem step_later (taken : step scope s action = some t) : s.pools.Later t.pools := by
  cases step_steps taken with
  | arrive req =>
    cases req.contextId with
    | none => exact .refl _
    | some c => exact .name _ c
  | move choice at_ asks moved => exact move_later (next_move moved)
  | expire c => exact .remove _ c none
  | die => exact .die _
  | _ => exact .refl _

theorem step_valid (valid : s.pools.Valid) (taken : step scope s action = some t) : t.pools.Valid := by
  cases step_steps taken with
  | arrive req =>
    cases req.contextId with
    | none => exact valid
    | some c => exact valid.name c
  | move choice at_ asks moved => exact move_valid valid (next_move moved)
  | expire c => exact valid.remove c none
  | die => exact ⟨valid.inside,valid.future,valid.past⟩
  | _ => exact valid

structure Handler.Known (p : Pools) (h : Handler) : Prop where
  context : ∀ c, h.pc.context = some c → c < p.fresh
  asked : ∀ c, h.req.contextId = some c → c < p.fresh
  created : ∀ c ∈ h.created, c < p.fresh

theorem Handler.Known.later (known : h.Known p) (later : p.Later q) : h.Known q where
  context c at_ := Nat.lt_of_lt_of_le (known.context c at_) later.fresh
  asked c at_ := Nat.lt_of_lt_of_le (known.asked c at_) later.fresh
  created c member := Nat.lt_of_lt_of_le (known.created c member) later.fresh

theorem context_granted (pc : Pc) : pc.granted.context = pc.context := by cases pc <;> rfl

theorem attempt_granted (pc : Pc) : pc.granted.attempt = pc.attempt := by cases pc <;> rfl

theorem Pc.context_of_attempt {pc : Pc} (at_ : pc.attempt = some a) : pc.context = some a.context := by
  cases pc <;> simp_all [Pc.attempt,Pc.context,Pc.unread]

theorem bindContext_context (retry : Bool) (c : ContextId) (h : Handler) :
    (bindContext retry c h).pc.context = some c := by
  cases retry <;> rfl

/-- A handler is bound to the context it was bound to, or to one it finds in the pool
while it holds a read guard. -/
theorem move_context (moved : Move scope p i h terminating pools h') (bound : h'.pc.context = some c) :
    h.pc.context = some c ∨ ((h.pc = .lookup ∨ h.pc.guard = some .read) ∧ c ∈ pools.contexts) := by
  cases moved with
  | find at_ session inside =>
    obtain rfl := by simpa [Handler.goto,Pc.context,Pc.unread] using bound
    exact Or.inr ⟨Or.inl at_,inside⟩
  | create at_ =>
    obtain rfl := by simpa [bindContext_context] using bound
    exact Or.inr ⟨Or.inr (by rw [at_]; rfl),by simp [Pools.create]⟩
  | reuse at_ mode inside =>
    obtain rfl := by simpa [bindContext_context] using bound
    exact Or.inr ⟨Or.inr (by rw [at_]; rfl),inside⟩
  | keep at_ => exact Or.inl (by rw [at_]; exact bound)
  | read at_ => exact Or.inl (by rw [at_]; exact bound)
  | observe at_ =>
    rcases at_ with ⟨retry,at_,rfl⟩ | ⟨a,at_,rfl⟩
    · simp [Handler.goto,Pc.context,Pc.unread,Pc.attempt,Back.attempt?] at bound
    · exact Or.inl (by rw [at_]; exact bound)
  | launch at_ => exact Or.inl (by rw [at_]; exact bound)
  | swap at_ => exact Or.inl (by rw [at_]; exact bound)
  | bumpAttempt at_ => exact Or.inl (by rw [at_]; exact bound)
  | walk at_ running inside => exact Or.inl (by rw [Pc.context_of_attempt at_,← Pc.context_of_attempt inside]; exact bound)
  | early at_ => exact Or.inl (by rw [at_]; exact bound)
  | leave at_ => exact Or.inl (by rw [at_]; exact bound)
  | fail at_ => exact Or.inl (by rw [Pc.context_of_attempt at_]; exact bound)
  | reject at_ => exact Or.inl (by rw [at_]; exact bound)
  | lose at_ => exact Or.inl (by rw [at_]; exact bound)
  | giveBack at_ => exact Or.inl (by rw [Pc.context_of_attempt at_]; exact bound)
  | discard at_ => exact Or.inl (by rw [at_]; exact bound)
  | _ => simp [Handler.goto,Pc.context,Pc.unread,Pc.attempt] at bound

/-- An attempt keeps the generation it started with; a first attempt reads the current
one, a second attempt reads none. -/
theorem move_attempt (moved : Move scope p i h terminating pools h') (at_ : h'.pc.attempt = some a) :
    h.pc.attempt = some a ∨ a.generation = none ∨
    (h.pc = .bound a.context ∧ a.generation = some p.generation ∧ pools = p) := by
  cases moved with
  | @create retry =>
    cases retry
    · simp [bindContext,Handler.goto,Pc.attempt] at at_
    · obtain rfl := by simpa [bindContext,Handler.goto,Pc.attempt] using at_
      exact Or.inr (Or.inl rfl)
  | @reuse retry =>
    cases retry
    · simp [bindContext,Handler.goto,Pc.attempt] at at_
    · obtain rfl := by simpa [bindContext,Handler.goto,Pc.attempt] using at_
      exact Or.inr (Or.inl rfl)
  | read from_ =>
    obtain rfl := by simpa [Handler.goto,Pc.attempt] using at_
    exact Or.inr (Or.inr ⟨from_,rfl,rfl⟩)
  | observe from_ =>
    rcases from_ with ⟨retry,from_,rfl⟩ | ⟨a,from_,rfl⟩
    · simp [Handler.goto,Pc.attempt,Back.attempt?] at at_
    · exact Or.inl (by rw [from_]; exact at_)
  | launch from_ => exact Or.inl (by rw [from_]; exact at_)
  | swap from_ => exact Or.inl (by rw [from_]; exact at_)
  | bumpAttempt from_ => exact Or.inl (by rw [from_]; exact at_)
  | walk from_ running inside => exact Or.inl (by rw [from_,← inside]; exact at_)
  | early from_ => exact Or.inl (by rw [from_]; exact at_)
  | leave from_ => exact Or.inl (by rw [from_]; exact at_)
  | fail from_ => exact Or.inl (by rw [from_]; exact at_)
  | reject from_ => exact Or.inl (by rw [from_]; exact at_)
  | lose from_ => exact Or.inl (by rw [from_]; exact at_)
  | giveBack from_ => exact Or.inl (by rw [from_]; exact at_)
  | discard from_ => exact Or.inl (by rw [from_]; exact at_)
  | _ => simp [Handler.goto,Pc.attempt] at at_

theorem move_req (moved : Move scope p i h terminating pools h') : h'.req = h.req := by
  cases moved <;> rfl

theorem move_created (moved : Move scope p i h terminating pools h') (member : c ∈ h'.created) :
    c ∈ h.created ∨ h'.pc.context = some c := by
  cases moved with
  | create =>
    rcases List.mem_append.mp member with old | new
    · exact Or.inl old
    · obtain rfl := List.mem_singleton.mp new
      exact Or.inr (bindContext_context _ _ _)
  | _ => exact Or.inl member

theorem move_known (valid : p.Valid) (known : h.Known p) (moved : Move scope p i h terminating pools h') :
    h'.Known pools := by
  have later := known.later (move_later moved)
  have valid' := move_valid valid moved
  have context : ∀ c, h'.pc.context = some c → c < pools.fresh := by
    intro c bound
    rcases move_context moved bound with old | ⟨_,inside⟩
    · exact later.context c old
    · exact (valid'.inside c inside).1
  refine ⟨context,by rw [move_req moved]; exact later.asked,fun c member => ?_⟩
  rcases move_created moved member with old | bound
  · exact later.created c old
  · exact context c bound

theorem turn_later (turn : Turn scope s action i h pools h') : s.pools.Later pools := by
  cases turn with
  | move asks moved => exact move_later moved
  | _ => exact .refl _

theorem turn_known (valid : s.pools.Valid) (known : h.Known s.pools) (turn : Turn scope s action i h pools h') :
    h'.Known pools := by
  cases turn with
  | move asks moved => exact move_known valid known moved
  | grant => exact ⟨fun c bound => known.context c (context_granted h.pc ▸ bound),known.asked,known.created⟩
  | drop => exact ⟨by simp [Pc.context,Pc.unread,Pc.attempt],known.asked,known.created⟩

def Bumping (s : State) : Prop :=
  ∃ (j : Nat) (h : Handler) (back : Back), s.handlers[j]? = some h ∧ h.pc = .bump back

structure Generations (s : State) : Prop where
  lock : LockInvariant s
  pools : s.pools.Valid
  known : ∀ (i : Nat) (h : Handler), s.handlers[i]? = some h → h.Known s.pools
  reading : ∀ (i : Nat) (h : Handler), s.handlers[i]? = some h → h.pc = .lookup → h.outer = true
  pending : Bumping s → ∀ (i : Nat) (h : Handler), s.handlers[i]? = some h →
    ∀ c, h.pc.context = some c → s.pools.replaced c = true
  current : ∀ (i : Nat) (h : Handler), s.handlers[i]? = some h → ∀ a generation, h.pc.attempt = some a →
    a.generation = some generation → generation ≤ s.pools.generation ∧
      (s.pools.replaced a.context = false → generation = s.pools.generation)

/-- While the generation is to be bumped nobody reads, so nobody finds a context. -/
theorem Generations.unread_while_bumping (base : Generations s) (bumping : Bumping s)
    (at_ : s.handlers[i]? = some h) (reads : h.pc = .lookup ∨ h.pc.guard = some .read) : False := by
  obtain ⟨j,k,back,found,swapped⟩ := bumping
  have writer : (j,Access.write) ∈ s.holders :=
    State.mem_holders.mpr ⟨k,found,Handler.mem_guards.mpr (Or.inr (by rw [swapped]; rfl))⟩
  have reader : (i,Access.read) ∈ s.holders := by
    refine State.mem_holders.mpr ⟨h,at_,Handler.mem_guards.mpr ?_⟩
    exact reads.imp (fun looking => ⟨base.reading i h at_ looking,rfl⟩) id
  exact absurd (base.lock.exclusive j i .read writer reader).2 (by simp)

/-- Only the swap brings a handler to the bump. -/
theorem move_swaps (moved : Move scope p i h terminating pools h') (swapped : h'.pc = .bump back) :
    (∃ dead, h.pc = .replace dead back) ∧ pools = p.replace scope ∧ h' = h.goto (.bump back) := by
  cases moved with
  | swap at_ =>
    obtain rfl := by simpa [Handler.goto] using swapped
    exact ⟨⟨_,at_⟩,rfl,rfl⟩
  | @create retry => cases retry <;> simp [bindContext,Handler.goto] at swapped
  | @reuse retry => cases retry <;> simp [bindContext,Handler.goto] at swapped
  | walk at_ running inside plain => simp at swapped; simp [swapped,Pc.plain] at plain
  | _ => simp [Handler.goto] at swapped

theorem bumping_step (taken : step scope s action = some t) (bumping : Bumping t) :
    Bumping s ∨ ∃ (i : Nat) (h : Handler) (dead : Nat) (back : Back), s.handlers[i]? = some h ∧
      h.pc = .replace dead back ∧ t.pools = s.pools.replace scope ∧ t.handlers = s.handlers.set i (h.goto (.bump back)) := by
  obtain ⟨j,k,back,found,swapped⟩ := bumping
  cases step_steps taken with
  | arrive req =>
    rcases Tasks.getElem?_append_cases found with old | ⟨_,rfl⟩
    · exact Or.inl ⟨j,k,back,old,swapped⟩
    · simp at swapped
  | @grant h access choice i at_ asks queued free =>
    rcases Tasks.getElem?_set_cases at_ found with ⟨rfl,rfl⟩ | ⟨apart,old⟩
    · cases here : h.pc <;> simp [here,Pc.asks,Handler.granted,Pc.granted] at asks swapped
    · exact Or.inl ⟨j,k,back,old,swapped⟩
  | @move h pools h' choice i at_ asks moved =>
    rcases Tasks.getElem?_set_cases at_ found with ⟨rfl,rfl⟩ | ⟨apart,old⟩
    · obtain ⟨⟨dead,from_⟩,rfl,rfl⟩ := move_swaps (next_move moved) swapped
      exact Or.inr ⟨j,h,dead,back,at_,from_,rfl,rfl⟩
    · exact Or.inl ⟨j,k,back,old,swapped⟩
  | @drop h i at_ suspends =>
    rcases Tasks.getElem?_set_cases at_ found with ⟨rfl,rfl⟩ | ⟨apart,old⟩
    · simp at swapped
    · exact Or.inl ⟨j,k,back,old,swapped⟩
  | _ => exact Or.inl ⟨j,k,back,found,swapped⟩

/-- The generation only moves when the pool has just been swapped. -/
theorem move_generation (moved : Move scope p i h terminating pools h') :
    pools.generation = p.generation ∨ ∃ back, h.pc = .bump back := by
  cases moved with
  | bumpAcquire at_ => exact Or.inr ⟨_,at_⟩
  | bumpAttempt at_ => exact Or.inr ⟨_,at_⟩
  | retire => exact Or.inl (by simp)
  | leave => exact Or.inl (by simp)
  | lose => exact Or.inl (by simp)
  | discard => exact Or.inl (by simp)
  | _ => exact Or.inl rfl

theorem turn_generation (at_ : s.handlers[i]? = some h) (turn : Turn scope s action i h pools h') :
    pools.generation = s.pools.generation ∨ Bumping s := by
  cases turn with
  | move asks moved => exact (move_generation moved).imp_right fun ⟨back,here⟩ => ⟨i,h,back,at_,here⟩
  | _ => exact Or.inl rfl

theorem step_generation (taken : step scope s action = some t) :
    t.pools.generation = s.pools.generation ∨
    ∃ (i : Nat) (choice : Choice) (h : Handler) (back : Back), action = .run i choice ∧
      s.handlers[i]? = some h ∧ h.pc = .bump back := by
  cases step_steps taken with
  | arrive req => cases req.contextId <;> exact Or.inl rfl
  | @move h pools h' choice i at_ asks moved =>
    exact (move_generation (next_move moved)).imp_right fun ⟨back,here⟩ => ⟨i,choice,h,back,rfl,at_,here⟩
  | expire c => exact Or.inl (by simp)
  | _ => exact Or.inl rfl

/-- While a context's pool is current, so is a generation read in its time. -/
theorem Generations.still_current (base : Generations s) (at_ : s.handlers[i]? = some h)
    (bound : h.pc.context = some c) (later : s.pools.Later q)
    (moved : q.generation = s.pools.generation ∨ Bumping s)
    (current : generation ≤ s.pools.generation ∧ (s.pools.replaced c = false → generation = s.pools.generation)) :
    generation ≤ q.generation ∧ (q.replaced c = false → generation = q.generation) := by
  have known := (base.known i h at_).context c bound
  refine ⟨Nat.le_trans current.1 later.generation,fun kept => ?_⟩
  have unreplaced : s.pools.replaced c = false := by
    refine Bool.eq_false_iff.mpr fun gone => ?_
    simp [later.replaced base.pools known gone] at kept
  rcases moved with same | bumping
  · rw [same]
    exact current.2 unreplaced
  · simp [base.pending bumping i h at_ c bound] at unreplaced

theorem Generations.known_step (base : Generations s) (taken : step scope s action = some t) :
    ∀ (i : Nat) (h : Handler), t.handlers[i]? = some h → h.Known t.pools := by
  refine each_step (P := fun p _ h => h.Known p) taken ?_ (fun _ _ _ _ _ turn _ _ known => turn_known base.pools known turn)
    (fun _ _ _ _ known => known.later (step_later taken)) base.known
  rintro req rfl
  obtain rfl := Option.some.inj taken
  refine ⟨by simp [Pc.context,Pc.unread,Pc.attempt],fun c asked => ?_,by simp⟩
  have asked : req.contextId = some c := asked
  simp only [asked]
  exact Nat.lt_of_lt_of_le (Nat.lt_succ_self c) (Nat.le_max_right _ _)

theorem Generations.reading_step (base : Generations s) (taken : step scope s action = some t) :
    ∀ (i : Nat) (h : Handler), t.handlers[i]? = some h → h.pc = .lookup → h.outer = true := by
  refine each_step (P := fun _ _ h => h.pc = .lookup → h.outer = true) taken (by simp) ?_ (fun _ _ _ _ same => same)
    base.reading
  intro i h pools h' at_ turn _ _ reading
  cases turn with
  | move asks moved =>
    cases moved with
    | @create retry => cases retry <;> simp [bindContext,Handler.goto]
    | @reuse retry => cases retry <;> simp [bindContext,Handler.goto]
    | walk at_ running inside plain =>
      intro looking
      simp only at looking
      simp [looking,Pc.plain] at plain
    | _ => simp [Handler.goto]
  | grant asks => cases here : h.pc <;> simp [here,Pc.asks,Handler.granted,Pc.granted] at asks ⊢
  | drop => simp

theorem Generations.pending_step (base : Generations s) (taken : step scope s action = some t) (bumping : Bumping t) :
    ∀ (i : Nat) (h : Handler), t.handlers[i]? = some h → ∀ c, h.pc.context = some c → t.pools.replaced c = true := by
  rcases bumping_step taken bumping with already | ⟨i,h,dead,back,at_,here,pools,handlers⟩
  · refine each_step (P := fun p _ h => ∀ c, h.pc.context = some c → p.replaced c = true) taken
      (by simp [Pc.context,Pc.unread,Pc.attempt]) ?_ ?_ (base.pending already)
    · intro i h pools h' at_ turn _ _ replaced c bound
      cases turn with
      | move asks moved =>
        rcases move_context moved bound with old | ⟨reads,_⟩
        · exact (move_later moved).replaced base.pools ((base.known i h at_).context c old) (replaced c old)
        · exact (base.unread_while_bumping already at_ reads).elim
      | grant => exact replaced c (context_granted h.pc ▸ bound)
      | drop => simp [Pc.context,Pc.unread,Pc.attempt] at bound
    · intro j h at_ _ replaced c bound
      exact (step_later taken).replaced base.pools ((base.known j h at_).context c bound) (replaced c bound)
  · intro j k found c bound
    rw [pools]
    apply base.pools.replaced_replace scope
    rw [handlers] at found
    rcases Tasks.getElem?_set_cases at_ found with ⟨rfl,rfl⟩ | ⟨_,old⟩
    · exact (base.known j h at_).context c (by rw [here]; exact bound)
    · exact (base.known j k old).context c bound

theorem Generations.current_step (base : Generations s) (taken : step scope s action = some t) :
    ∀ (i : Nat) (h : Handler), t.handlers[i]? = some h → ∀ a generation, h.pc.attempt = some a →
      a.generation = some generation → generation ≤ t.pools.generation ∧
        (t.pools.replaced a.context = false → generation = t.pools.generation) := by
  refine each_step (P := fun p _ h => ∀ a generation, h.pc.attempt = some a → a.generation = some generation →
    generation ≤ p.generation ∧ (p.replaced a.context = false → generation = p.generation)) taken
    (by simp [Pc.attempt]) ?_ ?_ base.current
  · intro i h pools h' at_ turn _ _ current a generation attempt first
    have stays : h.pc.attempt = some a → _ := fun old =>
      base.still_current at_ (Pc.context_of_attempt old) (turn_later turn) (turn_generation at_ turn)
        (current a generation old first)
    cases turn with
    | move asks moved =>
      rcases move_attempt moved attempt with old | second | ⟨_,read,rfl⟩
      · exact stays old
      · simp [second] at first
      · obtain rfl := Option.some.inj (read.symm.trans first)
        exact ⟨Nat.le_refl _,fun _ => rfl⟩
    | grant => exact stays (attempt_granted h.pc ▸ attempt)
    | drop => simp [Pc.attempt] at attempt
  · intro j h at_ _ current a generation attempt first
    refine base.still_current at_ (Pc.context_of_attempt attempt) (step_later taken) ?_
      (current a generation attempt first)
    exact (step_generation taken).imp_right fun ⟨i,_,k,back,_,found,here⟩ => ⟨i,k,back,found,here⟩

theorem Generations.step (base : Generations s) (taken : step scope s action = some t) : Generations t where
  lock := base.lock.step taken
  pools := step_valid base.pools taken
  known := base.known_step taken
  reading := base.reading_step taken
  pending := base.pending_step taken
  current := base.current_step taken

theorem generations (run : (machine scope).Reachable s) : Generations s := by
  refine Machine.Reachable.invariant ?_ (fun _ _ _ _ base taken => base.step taken) run
  refine ⟨initial_lock scope,.initial scope,?_,?_,?_,?_⟩ <;> simp [machine,initial]

end BrowserHive.Worker
