import BrowserHive.Worker.Generation

/-! Replacing a dead browser's pool, and retrying the requests that ran on it. Between the
observation of a death and the swap nothing is checked again, and the generation that
tells a request its pool was replaced is read and compared outside of the lock. -/
namespace BrowserHive.Worker

open BrowserHive Transition RwLock

variable {scope : ValidScope} {s t : State} {p pools : Pools} {i j : Nat} {h h' : Handler} {terminating : Bool}
  {c : ContextId}

def Pc.recreating : Pc → Option Nat
  | .launching dead _ | .replacing dead _ | .replace dead _ => some dead
  | _ => none

def Swaps (s : State) (action : Action) (dead : Nat) : Prop :=
  ∃ (i : Nat) (choice : Choice) (h : Handler) (back : Back), action = .run i choice ∧
    s.handlers[i]? = some h ∧ h.pc = .replace dead back

/-- A pool is swapped only when nobody else is on the way to replace it too. -/
def alone (s : State) : Action → Bool
  | .run i _ =>
    match s.handlers[i]? with
    | some h =>
      match h.pc with
      | .replace .. => s.handlers.zipIdx.all (fun other => other.2 = i || other.1.pc.recreating.isNone)
      | _ => true
    | none => true
  | _ => true

theorem Pc.plain_recreating {pc : Pc} (plain : pc.plain = true) : pc.recreating = none := by
  cases pc <;> simp_all [Pc.plain,Pc.recreating]

theorem move_recreating (moved : Move scope p i h terminating pools h') (going : h'.pc.recreating = some dead) :
    (h.pc.recreating = some dead ∨ (dead = p.number ∧ p.alive = false)) ∧ pools = p := by
  cases moved with
  | observe at_ gone =>
    obtain rfl : p.number = dead := by simpa [Handler.goto,Pc.recreating] using going
    exact ⟨Or.inr ⟨rfl,gone⟩,rfl⟩
  | launch at_ => exact ⟨Or.inl (by rw [at_]; exact going),rfl⟩
  | @create retry => cases retry <;> simp [bindContext,Handler.goto,Pc.recreating] at going
  | @reuse retry => cases retry <;> simp [bindContext,Handler.goto,Pc.recreating] at going
  | walk at_ running inside plain => simp [Pc.plain_recreating plain] at going
  | _ => simp [Handler.goto,Pc.recreating] at going

theorem recreating_granted (pc : Pc) : pc.granted.recreating = pc.recreating := by cases pc <;> rfl

/-- Only a swap changes which pool is current or brings a browser to life. -/
theorem step_number (taken : step scope s action = some t) :
    (t.pools.number = s.pools.number ∧ (s.pools.alive = false → t.pools.alive = false)) ∨
    ∃ (i : Nat) (choice : Choice) (h : Handler) (dead : Nat) (back : Back), action = .run i choice ∧
      s.handlers[i]? = some h ∧ h.pc = .replace dead back ∧ t.pools = s.pools.replace scope ∧
      t.handlers = s.handlers.set i (h.goto (.bump back)) := by
  cases step_steps taken with
  | arrive req => cases req.contextId <;> exact Or.inl ⟨rfl,id⟩
  | @move h pools h' choice i at_ asks moved =>
    cases next_move moved with
    | swap here => exact Or.inr ⟨i,choice,h,_,_,rfl,at_,here,rfl,rfl⟩
    | retire => exact Or.inl (by simp)
    | leave => exact Or.inl (by simp)
    | lose => exact Or.inl (by simp)
    | discard => exact Or.inl (by simp)
    | _ => exact Or.inl ⟨rfl,id⟩
  | expire c => exact Or.inl (by simp)
  | die => exact Or.inl ⟨rfl,fun _ => rfl⟩
  | _ => exact Or.inl ⟨rfl,id⟩

/-- Whoever is on the way to replace a pool will replace the one it saw dead. -/
def Aimed (s : State) : Prop :=
  ∀ (i : Nat) (h : Handler), s.handlers[i]? = some h → ∀ dead, h.pc.recreating = some dead →
    dead = s.pools.number ∧ s.pools.alive = false

theorem aimed_step (aimed : Aimed s) (met : alone s action = true) (taken : step scope s action = some t) :
    Aimed t := by
  refine each_step (P := fun p _ h => ∀ dead, h.pc.recreating = some dead → dead = p.number ∧ p.alive = false) taken
    (by simp [Pc.recreating]) ?_ ?_ aimed
  · intro i h pools h' at_ turn _ _ before dead going
    cases turn with
    | move asks moved =>
      obtain ⟨from_,rfl⟩ := move_recreating moved going
      exact from_.elim (before dead) id
    | grant => exact before dead (recreating_granted h.pc ▸ going)
    | drop => simp [Pc.recreating] at going
  · intro j k found apart before dead going
    obtain ⟨rfl,gone⟩ := before dead going
    rcases step_number taken with ⟨same,stays⟩ | ⟨i,choice,h,_,back,rfl,at_,here,_,_⟩
    · exact ⟨same.symm,stays gone⟩
    · simp only [alone,at_,here,List.all_eq_true] at met
      have := met (k,j) (List.mem_zipIdx_iff_getElem?.mpr found)
      simp only [going,Option.isNone_some,Bool.or_false,decide_eq_true_eq] at this
      exact absurd rfl (this ▸ apart choice)

theorem aimed (run : (machine scope).Reach (fun s action => alone s action = true) s) : Aimed s :=
  Machine.Reach.invariant (by simp [Aimed,machine,initial])
    (fun _ _ _ _ aimed met taken => aimed_step aimed met taken) run

theorem step_number_le (taken : step scope s action = some t) : s.pools.number ≤ t.pools.number :=
  (step_later taken).number

/-- In a run in which nobody swaps a pool that others are about to replace as well, a swap
replaces the very pool whose death was observed, still dead, and no later swap replaces
that pool or an older one. -/
theorem replaced_once (scope : ValidScope) (s mid : State) (action : Action) (dead : Nat)
    (run : (machine scope).Reach (fun s action => alone s action = true) s) (met : alone s action = true)
    (swap : Swaps s action dead) (taken : step scope s action = some mid) :
    (dead = s.pools.number ∧ s.pools.alive = false) ∧
    ∀ later u another newer, (machine scope).exec later mid = some u →
      (machine scope).Meets (fun s action => alone s action = true) later mid → Swaps u another newer → dead < newer := by
  have aims : ∀ {s action dead}, (machine scope).Reach (fun s action => alone s action = true) s →
      Swaps s action dead → dead = s.pools.number ∧ s.pools.alive = false := by
    rintro s _ dead run ⟨i,choice,h,back,rfl,at_,here⟩
    exact aimed run i h at_ dead (by rw [here]; rfl)
  refine ⟨aims run swap,fun later u another newer ran meets again => ?_⟩
  obtain ⟨rfl,_⟩ := aims run swap
  obtain ⟨rfl,_⟩ := aims (Machine.Reach.exec_meets (run.step met taken) ran meets) again
  have risen : s.pools.number < mid.pools.number := by
    obtain ⟨i,choice,h,back,rfl,at_,here⟩ := swap
    simp only [step,at_,here,Pc.asks,next,acquireNext] at taken
    obtain rfl := Option.some.inj taken
    exact Nat.lt_succ_self _
  exact Nat.lt_of_lt_of_le risen
    (Machine.exec_mono (f := fun s => s.pools.number) (fun _ _ _ taken => step_number_le taken) ran)

def recreates (i : Nat) : List Action := .run i .dead :: List.replicate 3 (.run i .go)

def acquires (i : Nat) : List Action := .arrive (Request.page none) :: List.replicate 6 (.run i .go)

theorem replaced_once_recreation :
    ∃ s mid, (machine (ValidScope.small .dedicated)).exec (acquires 0 ++ .die :: recreates 0)
        (initial (ValidScope.small .dedicated)) = some s ∧
      step (ValidScope.small .dedicated) s (.run 0 .go) = some mid ∧ s.pools.number = 0 ∧ mid.pools.number = 1 ∧
      s.pools.alive = false := by
  have ran : (machine (ValidScope.small .dedicated)).exec (acquires 0 ++ .die :: recreates 0)
    (machine (ValidScope.small .dedicated)).initial = some _ := rfl
  have meets : (machine (ValidScope.small .dedicated)).Meets (fun s action => alone s action = true)
    (acquires 0 ++ .die :: recreates 0) (machine (ValidScope.small .dedicated)).initial := by decide +kernel
  exact ⟨_,_,ran,rfl,rfl,rfl,(replaced_once _ _ _ (.run 0 .go) 0 (Machine.Reach.exec_meets .initial ran meets) rfl
    ⟨0,.go,_,_,rfl,rfl,rfl⟩ rfl).1.2⟩

/-- Two requests see the same browser dead; both launch a new one and both swap. -/
theorem second_recreation_replaces_healthy_pool :
    ¬∀ (scope : ValidScope) (s : State) (action : Action) (dead : Nat), (machine scope).Reachable s →
      Swaps s action dead → dead = s.pools.number ∧ s.pools.alive = false := by
  intro never
  have ran : (machine (ValidScope.small .dedicated)).exec
      (acquires 0 ++ acquires 1 ++ [.die,.run 0 .dead,.run 1 .dead] ++ List.replicate 5 (.run 0 .go) ++
        List.replicate 3 (.run 1 .go))
      (machine (ValidScope.small .dedicated)).initial = some _ := rfl
  have aimed := never _ _ (.run 1 .go) 0 (Machine.reachable_of_exec ran) ⟨1,.go,_,_,rfl,rfl,rfl⟩
  exact absurd aimed.1 (by decide +kernel)

end BrowserHive.Worker
