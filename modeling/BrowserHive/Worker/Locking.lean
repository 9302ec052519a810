import BrowserHive.Worker.Moves

/-! The pool lock in every run of the handlers. A handler asks for it holding at most its
session-lookup guard, so it blocks itself or joins a cycle exactly when it asks again
under that guard and would have to wait. -/
namespace BrowserHive.Worker

open BrowserHive Transition RwLock

variable {scope : ValidScope} {s t : State} {p pools : Pools} {i j : Nat} {h h' : Handler} {access other : Access}

theorem State.mem_holders :
    (i,access) ∈ s.holders ↔ ∃ h, s.handlers[i]? = some h ∧ access ∈ h.guards := by
  simp only [State.holders,List.mem_flatMap,List.mem_map,Prod.exists,List.mem_zipIdx_iff_getElem?,Prod.mk.injEq]
  constructor
  · rintro ⟨h,j,at_,a,guard,rfl,rfl⟩
    exact ⟨h,at_,guard⟩
  · rintro ⟨h,at_,guard⟩
    exact ⟨h,i,at_,access,guard,rfl,rfl⟩

theorem Handler.mem_guards :
    access ∈ h.guards ↔ (h.outer = true ∧ access = .read) ∨ h.pc.guard = some access := by
  cases outer : h.outer <;> simp [Handler.guards,outer]

theorem Pc.guard_of_asks {pc : Pc} (asks : pc.asks = some access) : pc.guard = none := by
  cases pc <;> simp_all [Pc.asks,Pc.guard]

theorem Handler.guards_granted (asks : h.pc.asks = some access) (guard : other ∈ h.granted.guards) :
    other ∈ h.guards ∨ other = access := by
  rw [mem_guards] at guard ⊢
  cases at_ : h.pc <;> simp [at_,Pc.asks,Handler.granted,Pc.granted,Pc.guard] at asks guard ⊢ <;> grind

theorem Pc.plain_guard {pc : Pc} (plain : pc.plain = true) : pc.guard = none := by
  cases pc <;> simp_all [Pc.plain,Pc.guard]

theorem bindContext_guard (retry : Bool) (c : ContextId) (h : Handler) : (bindContext retry c h).pc.guard = none := by
  cases retry <;> rfl

/-- Outside the lock a handler only lets guards go. -/
theorem move_guards (moved : Move scope p i h terminating pools h') (guard : access ∈ h'.guards) :
    access ∈ h.guards := by
  rw [Handler.mem_guards] at guard ⊢
  cases moved with
  | walk at_ running inside plain => exact guard.imp_right (by simp [Pc.plain_guard plain])
  | swap at_ => exact guard.imp_right (by simp [Handler.goto,at_,Pc.guard])
  | create at_ => exact guard.imp_right (by simp [bindContext_guard])
  | reuse at_ => exact guard.imp_right (by simp [bindContext_guard])
  | unlock at_ => simp [Pc.guard] at guard
  | leaveHandler at_ => simp [Pc.guard] at guard
  | _ => exact guard.imp_right (by simp [Handler.goto,Pc.guard])

structure LockInvariant (s : State) : Prop where
  single : (s.queue.map Prod.fst).Nodup
  waiting : ∀ i access, (i,access) ∈ s.queue → ∃ h, s.handlers[i]? = some h ∧ h.pc.asks = some access
  exclusive : ∀ i j access, (i,Access.write) ∈ s.holders → (j,access) ∈ s.holders → j = i ∧ access = .write

/-- Where a guard comes from when one handler is replaced. -/
theorem holders_set (at_ : s.handlers[i]? = some h) (member : (j,other) ∈
    State.holders { s with pools := pools, queue := queue, handlers := s.handlers.set i h' }) :
    (j = i ∧ other ∈ h'.guards) ∨ (j ≠ i ∧ (j,other) ∈ s.holders) := by
  obtain ⟨k,found,guard⟩ := State.mem_holders.mp member
  rcases Tasks.getElem?_set_cases at_ found with ⟨rfl,rfl⟩ | ⟨apart,same⟩
  · exact Or.inl ⟨rfl,guard⟩
  · exact Or.inr ⟨apart,State.mem_holders.mpr ⟨k,same,guard⟩⟩

def Releases (s t : State) : Prop := ∀ entry ∈ t.holders, entry ∈ s.holders

theorem releases_of_handlers (same : t.handlers = s.handlers) : Releases s t := by
  intro entry member
  simpa [State.holders,same] using member

theorem releases_of_set (at_ : s.handlers[i]? = some h) (fewer : ∀ access ∈ h'.guards, access ∈ h.guards) :
    Releases s { s with pools := pools, queue := queue, handlers := s.handlers.set i h' } := by
  rintro ⟨j,access⟩ member
  rcases holders_set at_ member with ⟨rfl,guard⟩ | ⟨_,old⟩
  · exact State.mem_holders.mpr ⟨h,at_,fewer _ guard⟩
  · exact old

theorem releases_of_arrive (pools : Pools) (req : Request) :
    Releases s { s with pools := pools, handlers := s.handlers ++ [⟨req,false,0,[],.arrived⟩] } := by
  rintro ⟨j,access⟩ member
  obtain ⟨k,found,guard⟩ := State.mem_holders.mp member
  rcases Tasks.getElem?_append_cases found with old | ⟨_,rfl⟩
  · exact State.mem_holders.mpr ⟨k,old,guard⟩
  · simp [Handler.guards,Pc.guard] at guard

theorem LockInvariant.of_releases (lock : LockInvariant s) (fewer : Releases s t)
    (queue : t.queue.Sublist s.queue)
    (waiting : ∀ i access, (i,access) ∈ t.queue → ∃ h, t.handlers[i]? = some h ∧ h.pc.asks = some access) :
    LockInvariant t where
  single := lock.single.sublist (queue.map Prod.fst)
  waiting := waiting
  exclusive i j access writer guard := lock.exclusive i j access (fewer _ writer) (fewer _ guard)

theorem LockInvariant.grant (lock : LockInvariant s) (at_ : s.handlers[i]? = some h)
    (asks : h.pc.asks = some access) (free : s.grants i access = true) :
    LockInvariant { s with
      queue := s.queue.filter (fun entry => entry.1 ≠ i)
      handlers := s.handlers.set i h.granted } where
  single := lock.single.sublist (List.filter_sublist.map Prod.fst)
  waiting j other queued := by
    obtain ⟨queued,apart⟩ := List.mem_filter.mp queued
    obtain ⟨k,found,waits⟩ := lock.waiting j other queued
    exact ⟨k,by rw [List.getElem?_set_ne (Ne.symm (by simpa using apart))]; exact found,waits⟩
  exclusive j k other writer guard := by
    have unheld : ∀ entry ∈ s.holders, access.conflicts entry.2 = false := by
      simp only [State.grants,List.all_append,Bool.and_eq_true,List.all_eq_true,Bool.not_eq_true'] at free
      exact free.1
    have source : ∀ {j : Nat} {other : Access}, (j,other) ∈ State.holders { s with
        queue := s.queue.filter (fun entry => entry.1 ≠ i)
        handlers := s.handlers.set i h.granted } → (j,other) ∈ s.holders ∨ (j = i ∧ other = access) := by
      intro j other member
      rcases holders_set at_ member with ⟨rfl,inside⟩ | ⟨_,old⟩
      · rcases Handler.guards_granted asks inside with old | rfl
        · exact Or.inl (State.mem_holders.mpr ⟨h,at_,old⟩)
        · exact Or.inr ⟨rfl,rfl⟩
      · exact Or.inl old
    rcases source writer with old | ⟨rfl,rfl⟩
    · rcases source guard with held | ⟨rfl,rfl⟩
      · exact lock.exclusive j k other old held
      · cases other <;> simpa [Access.conflicts] using unheld _ old
    · rcases source guard with held | ⟨rfl,rfl⟩
      · cases other <;> simpa [Access.conflicts] using unheld _ held
      · exact ⟨rfl,rfl⟩

theorem waiting_set (lock : LockInvariant s) (at_ : s.handlers[i]? = some h) (idle : h.pc.asks = none)
    (queued : (j,access) ∈ s.queue) : ∃ k, (s.handlers.set i h')[j]? = some k ∧ k.pc.asks = some access := by
  obtain ⟨k,found,waits⟩ := lock.waiting j access queued
  have apart : i ≠ j := by
    rintro rfl
    obtain rfl := Option.some.inj (at_.symm.trans found)
    simp [idle] at waits
  exact ⟨k,by rw [List.getElem?_set_ne apart]; exact found,waits⟩

theorem LockInvariant.step (lock : LockInvariant s) (taken : step scope s action = some t) : LockInvariant t := by
  cases step_steps taken with
  | arrive req =>
    refine lock.of_releases (releases_of_arrive _ req) (.refl _) fun j access queued => ?_
    obtain ⟨k,found,waits⟩ := lock.waiting j access queued
    exact ⟨k,by rw [List.getElem?_append_left (List.getElem?_eq_some_iff.mp found).1]; exact found,waits⟩
  | @queue h access choice i at_ asks out =>
    refine ⟨?_,?_,lock.exclusive⟩
    · have fresh : ∀ j other, (j,other) ∈ s.queue → j ≠ i := by simpa [State.queued] using out
      simpa [List.nodup_append,lock.single] using fresh
    · intro j other queued
      rcases List.mem_append.mp queued with old | new
      · exact lock.waiting j other old
      · obtain ⟨rfl,rfl⟩ := by simpa using new
        exact ⟨h,at_,asks⟩
  | grant choice at_ asks queued free => exact lock.grant at_ asks free
  | move choice at_ asks moved =>
    exact lock.of_releases (releases_of_set at_ fun _ guard => move_guards (next_move moved) guard) (.refl _)
      fun j access queued => waiting_set lock at_ asks queued
  | @drop h i at_ suspends =>
    apply lock.of_releases (releases_of_set at_ (by simp [Handler.guards,Pc.guard])) List.filter_sublist
    intro j access queued
    obtain ⟨queued,apart⟩ := List.mem_filter.mp queued
    obtain ⟨k,found,waits⟩ := lock.waiting j access queued
    exact ⟨k,by rw [List.getElem?_set_ne (Ne.symm (by simpa using apart))]; exact found,waits⟩
  | expire c => exact lock.of_releases (releases_of_handlers rfl) (.refl _) lock.waiting
  | die => exact lock.of_releases (releases_of_handlers rfl) (.refl _) lock.waiting
  | terminate => exact lock.of_releases (releases_of_handlers rfl) (.refl _) lock.waiting

theorem initial_lock (scope : ValidScope) : LockInvariant (initial scope) where
  single := by simp [initial]
  waiting := by simp [initial]
  exclusive := by simp [initial,State.holders]

theorem lock_invariant (run : (machine scope).Reachable s) : LockInvariant s :=
  Machine.Reachable.invariant (initial_lock scope) (fun _ _ _ _ lock taken => lock.step taken) run

def unnested (s : State) : Action → Bool
  | .run i _ =>
    match s.handlers[i]? with
    | some h =>
      match h.pc.asks with
      | some access =>
        s.queued i || !h.outer || (access = .read && s.queue.all (fun entry => entry.2 = .read))
      | none => true
    | none => true
  | _ => true

theorem grantable_of_grants (free : s.grants i access = true) :
    Grantable s.lock (s.queue.takeWhile (fun entry => entry.1 ≠ i)) access := by
  intro entry member
  simp only [State.grants,List.all_eq_true,Bool.not_eq_true'] at free
  exact free entry member

/-- A handler that holds its lookup guard and asks to read behind no write can be granted. -/
theorem grantable_of_nested_read (lock : LockInvariant s) (at_ : s.handlers[i]? = some h) (holds : h.outer = true)
    (readers : s.queue.all (fun entry => entry.2 = .read) = true) : Grantable s.lock s.queue .read := by
  have own : (i,Access.read) ∈ s.holders :=
    State.mem_holders.mpr ⟨h,at_,Handler.mem_guards.mpr (Or.inl ⟨holds,rfl⟩)⟩
  rintro ⟨j,other⟩ member
  cases other with
  | read => rfl
  | write =>
    rcases List.mem_append.mp member with guard | queued
    · exact absurd (lock.exclusive j i .read guard own).2 (by simp)
    · exact absurd (List.all_eq_true.mp readers _ queued) (by simp)

theorem unblocked_step (lock : LockInvariant s) (free : HoldersUnblocked s.lock) (met : unnested s action = true)
    (taken : step scope s action = some t) : HoldersUnblocked t.lock := by
  have quiet : ∀ {t : State}, Releases s t → t.queue = s.queue → HoldersUnblocked t.lock := by
    intro t fewer same
    have unchanged : t.queue = s.queue.filter (fun _ => true) := by simp [same]
    exact free.release fewer unchanged
  cases step_steps taken with
  | arrive req => exact quiet (releases_of_arrive _ req) rfl
  | @queue h access choice i at_ asks out =>
    refine free.ask fun ⟨own,holds⟩ => ?_
    obtain ⟨k,found,guard⟩ := State.mem_holders.mp holds
    obtain rfl := Option.some.inj (at_.symm.trans found)
    rw [Handler.mem_guards,Pc.guard_of_asks asks] at guard
    obtain ⟨outer,_⟩ : h.outer = true ∧ own = .read := by simpa using guard
    obtain ⟨rfl,readers⟩ : access = .read ∧ s.queue.all (fun entry => entry.2 = .read) = true := by
      simpa [unnested,at_,asks,out,outer] using met
    exact grantable_of_nested_read lock at_ outer readers
  | @grant h access choice i at_ asks _ granted =>
    refine HoldersUnblocked.grant free (t := i) ?_ (grantable_of_grants granted) ?_ rfl
    · intro queued member
      obtain ⟨k,found,waits⟩ := lock.waiting i queued member
      obtain rfl := Option.some.inj (at_.symm.trans found)
      exact Option.some.inj (waits.symm.trans asks)
    · rintro ⟨j,other⟩ member
      rcases holders_set at_ member with ⟨rfl,guard⟩ | ⟨_,old⟩
      · rcases Handler.guards_granted asks guard with old | rfl
        · exact Or.inl (State.mem_holders.mpr ⟨h,at_,old⟩)
        · exact Or.inr rfl
      · exact Or.inl old
  | move choice at_ asks moved =>
    exact quiet (releases_of_set at_ fun _ guard => move_guards (next_move moved) guard) rfl
  | drop at_ suspends =>
    exact free.release (releases_of_set at_ (by simp [Handler.guards,Pc.guard])) rfl
  | expire c => exact quiet (releases_of_handlers rfl) rfl
  | die => exact quiet (releases_of_handlers rfl) rfl
  | terminate => exact quiet (releases_of_handlers rfl) rfl

/-- A nested request that is not unnested closes a cycle at once. -/
theorem deadlocked_of_nested (unmet : unnested s action ≠ true) (taken : step scope s action = some t) :
    Deadlocked t.lock := by
  cases step_steps taken with
  | @queue h access choice i at_ asks out =>
    obtain ⟨outer,waits⟩ : h.outer = true ∧ (access = .read → ∃ j, (j,Access.write) ∈ s.queue) := by
      simp only [unnested,at_,asks,out] at unmet
      cases access <;> simp_all
      obtain ⟨j,other,queued,writes⟩ := unmet.2
      cases other
      · contradiction
      · exact ⟨j,queued⟩
    have holds : (i,Access.read) ∈ s.holders :=
      State.mem_holders.mpr ⟨h,at_,Handler.mem_guards.mpr (Or.inl ⟨outer,rfl⟩)⟩
    cases access with
    | write => exact deadlocked_of_upgrade (List.mem_append_right _ (by simp)) holds
    | read =>
      obtain ⟨j,writer⟩ := waits rfl
      exact deadlocked_of_nested_read (l := ⟨s.holders,s.queue ++ [(i,.read)]⟩) rfl writer holds
  | grant choice at_ asks queued => simp [unnested,at_,asks,queued] at unmet
  | _ => simp_all [unnested]

/-- The handlers never deadlock on the pool lock in a run exactly when none of them asks
for it, under its session-lookup guard, in a way that has to wait. -/
theorem deadlock_free_iff (scope : ValidScope) (actions : List Action) :
    (machine scope).Along (fun s => ¬Deadlocked s.lock) actions (initial scope) ↔
      (machine scope).Meets (fun s action => unnested s action = true) actions (initial scope) := by
  refine Machine.along_iff_meets (I := LockInvariant) (J := fun s => HoldersUnblocked s.lock)
    (fun _ _ _ lock taken => lock.step taken)
    (fun _ lock free => not_deadlocked lock.single free)
    (fun _ _ _ lock free met taken => unblocked_step lock free met taken)
    (fun _ _ _ _ unmet taken => not_not_intro (deadlocked_of_nested unmet taken))
    actions (initial scope) (initial_lock scope) ?_
  intro ahead behind t access split
  simp [State.lock,initial] at split

def upgrades : List Action :=
  creates 0 ++ prepares 0 ++ answers 0 ++ continues 1 0 ++ prepares 1 ++
    [.die,.run 1 .dead,.run 1 .go,.run 1 .go]

theorem continuation_deadlocks :
    ¬∀ (scope : ValidScope) (s : State), (machine scope).Reachable s → ¬Deadlocked s.lock := by
  intro never
  obtain ⟨s,ran,queued,holds⟩ : ∃ s, (machine (ValidScope.small .dedicated)).exec upgrades
      (machine (ValidScope.small .dedicated)).initial = some s ∧
      (1,Access.write) ∈ s.lock.queue ∧ (1,Access.read) ∈ s.lock.holders := ⟨_,rfl,by decide,by decide⟩
  exact never _ s (Machine.reachable_of_exec ran) (deadlocked_of_upgrade queued holds)

end BrowserHive.Worker
