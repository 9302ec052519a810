import BrowserHive.Coordinator.Attempts
import BrowserHive.Coordinator.Ties

/-! When a request is given up. An outcome another pod could still serve reaches the client
only when time, attempts or pods have run out; a pod that is left is tried. -/
namespace BrowserHive.Coordinator

open Transition

def Handler.tried (h : Handler) (pod : String) : Prop := pod ∈ h.trail.map Attempt.worker

/-- The healthy pods of the request's scope it was not sent to. -/
def Untried (s : Shared) (h : Handler) (w : WorkerEndpoint) : Prop :=
  ∃ ws, s.routable h.req.scopeName = some ws ∧ w ∈ ws ∧ w.podName ∈ s.healthy ∧ ¬h.tried w.podName

/-- Why the outcome of the latest attempt is the request's. -/
inductive GivesUp (s : Shared) (h : Handler) (outcome : Outcome) : Prop where
  | final (unplanned : outcome.plan h.req.noSession = none)
  | time (short : h.requestDeadline - s.now < minRetryTimeRemaining)
  | attempts (planned : outcome.plan h.req.noSession = some plan) (made : plan.maxAttempts ≤ h.trail.length)
  | pods (full : ∀ w, Untried s h w → s.freeSlots w = 0)

section Choice

variable {candidates : List WorkerEndpoint} {freeSlots : WorkerEndpoint → Nat}

theorem pickMostFree_none (rotation : Nat) (none_ : pickMostFree candidates freeSlots rotation = none) :
    candidates = [] := by
  rw [pickMostFree_eq,List.getElem?_eq_none_iff,rotated_length] at none_
  rw [← ties_nil freeSlots,← List.length_eq_zero_iff]
  by_contra some_
  exact absurd (Nat.mod_lt rotation (Nat.pos_of_ne_zero some_)) (Nat.not_lt.mpr none_)

theorem pickMostFree_most (rotation : Nat) (picked : pickMostFree candidates freeSlots rotation = some (w,slots)) :
    ∀ v ∈ candidates, freeSlots v ≤ slots := by
  rw [pickMostFree_eq] at picked
  have listed := (rotated_perm_ties candidates freeSlots).mem_iff.mp (List.mem_of_getElem? picked)
  obtain ⟨tied,among,same⟩ := List.mem_map.mp listed
  obtain ⟨rfl,rfl⟩ := Prod.mk.inj same
  exact (mem_ties.mp among).2

end Choice

section Moves

variable {s s' : Shared} {h h' : Handler}

/-- In the loop the excluded pods are pods of attempts. -/
def Handler.Excluding (h : Handler) : Prop := h.pc.over = false → ∀ pod ∈ h.excluded, h.tried pod

theorem Handler.tried_record (h : Handler) (outcome : Outcome) (pod : String) :
    (h.recordOutcome outcome).tried pod ↔ h.tried pod := by
  unfold Handler.tried Handler.recordOutcome
  split
  · next a older trail => simp [trail]
  · rfl

/-- The pod an attempt is under way at was tried. -/
theorem Handler.Sound.current (sound : h.Sound)
    (at_ : h.pc = .connecting target ∨ ∃ forwarded, h.pc = .calling target forwarded) : h.tried target.workerId := by
  obtain ⟨a,older,trail,worker,_⟩ := sound.awaiting at_
  simp [Handler.tried,trail,worker]

theorem Handler.Excluding.move (sound : h.Sound) (excluding : h.Excluding) (moved : Move s h (s',h')) :
    h'.Excluding := by
  have within_ (inside : h.pc.over = false) : ∀ pod ∈ h.excluded, h.tried pod := excluding inside
  cases moved with
  | accept at_ | look at_ | found at_ | forget at_ | miss at_ | confirm at_ | connect at_ =>
    exact fun _ => within_ (by simp [at_,Pc.over])
  | select at_ => exact fun _ => within_ (by simp [at_,Pc.over])
  | dispatch at_ => exact fun _ pod member => List.mem_cons_of_mem _ (within_ (by simp [at_,Pc.over]) pod member)
  | judge at_ judged =>
    have inside : h.pc.over = false := by
      rcases at_ with at_ | ⟨_,at_⟩ <;> simp [at_,Pc.over]
    cases judged with
    | break_ => rintro ⟨⟩
    | another =>
      intro _ pod member
      refine (h.tried_record _ pod).mpr ?_
      rcases List.mem_cons.mp member with rfl | earlier
      · exact sound.current at_
      · exact within_ inside pod earlier
  | retry at_ retried =>
    cases retried with
    | break_ => rintro ⟨⟩
    | again => exact fun _ => within_ (by simp [at_,Pc.over])
  | respond at_ responded => cases responded <;> rintro ⟨⟩
  | refuse | invalid | unreachable | drop => rintro ⟨⟩

/-- An attempt that is not followed by another has an outcome that allows none. -/
theorem judge_gives_up (sound : h.Sound)
    (left : (judge s h target outcome).2.pc = .finishing target' outcome') : GivesUp s h outcome' := by
  unfold judge at left
  simp only [Handler.recordOutcome_req] at left
  split at left
  · next unplanned =>
    obtain ⟨_,rfl⟩ := Pc.finishing.inj left
    exact .final unplanned
  · next plan planned =>
    split at left
    · next short =>
      obtain ⟨_,rfl⟩ := Pc.finishing.inj left
      exact .time (by simpa [Handler.requestDeadline] using short)
    · split at left
      · next made =>
        obtain ⟨_,rfl⟩ := Pc.finishing.inj left
        exact .attempts planned (by simpa [sound.counted] using made)
      · cases left

/-- Of the pods a request was not sent to, the choice has the most free slots; without a
choice they have none. -/
theorem retry_chooses (excluding : ∀ pod, pod ∈ h.excluded ↔ h.tried pod) (target : Target) (outcome : Outcome)
    (remaining : Nat) :
    (∀ w, Untried s h w → s.freeSlots w = 0) ∧
        (retry s h target outcome remaining).2.pc = .finishing target outcome ∨
      ∃ w choice, Untried s h w ∧ 0 < s.freeSlots w ∧ (∀ v, Untried s h v → s.freeSlots v ≤ s.freeSlots w) ∧
        (retry s h target outcome remaining).2.pc = .dispatching w.target choice := by
  unfold retry
  cases listed : s.routable h.req.scopeName with
  | none =>
    refine .inl ⟨?_,rfl⟩
    rintro w ⟨ws,listed',_⟩
    simp [listed] at listed'
  | some ws =>
    have candidate (w : WorkerEndpoint) :
        Untried s h w ↔ w ∈ ws.filter fun w => w.podName ∈ s.healthy ∧ w.podName ∉ h.excluded := by
      simp [Untried,listed,excluding]
    simp only
    cases picked : pickMostFree (ws.filter fun w => w.podName ∈ s.healthy ∧ w.podName ∉ h.excluded) s.freeSlots
        s.rotation with
    | none =>
      refine .inl ⟨fun w untried => ?_,rfl⟩
      rw [candidate,pickMostFree_none _ picked] at untried
      cases untried
    | some pick =>
      obtain ⟨best,freeSlots⟩ := pick
      obtain ⟨member,rfl⟩ := pickMostFree_mem picked
      have most := pickMostFree_most _ picked
      simp only
      split
      · next full =>
        exact .inl ⟨fun w untried => Nat.le_zero.mp (full ▸ most w ((candidate w).mp untried)),rfl⟩
      · next free =>
        exact .inr ⟨best,_,(candidate best).mpr member,Nat.pos_of_ne_zero free,
          fun v untried => most v ((candidate v).mp untried),rfl⟩

/-- An attempt is judged, or still under way, or refused by its worker. -/
def Pc.awaits : Pc → Bool
  | .calling .. | .refused => true
  | _ => false

theorem next_of_awaiting {r : Shared × Handler}
    (at_ : h.pc = .connecting target ∨ ∃ forwarded, h.pc = .calling target forwarded)
    (moved : next s h event = some r) :
    (∃ target outcome, r = judge s h target outcome) ∨ r.2.pc.awaits = true := by
  rcases at_ with at_ | ⟨forwarded,at_⟩
  · simp only [next,at_,attemptNext] at moved
    cases event with
    | go => exact .inr (Option.some.inj moved ▸ rfl)
    | connectFailed message => exact .inl ⟨_,_,(Option.some.inj moved).symm⟩
    | _ => contradiction
  · simp only [next,at_,attemptNext] at moved
    cases event with
    | answered resp => exact .inl ⟨_,_,(Option.some.inj moved).symm⟩
    | broke message => exact .inl ⟨_,_,(Option.some.inj moved).symm⟩
    | invalidArgument => exact .inr (Option.some.inj moved ▸ rfl)
    | _ => contradiction

theorem next_of_retrying {r : Shared × Handler} (at_ : h.pc = .retrying target outcome plan remaining)
    (moved : next s h event = some r) : r = retry s h target outcome remaining := by
  simp only [next,at_,attemptNext] at moved
  cases event with
  | go => exact (Option.some.inj moved).symm
  | _ => contradiction

/-- A step that ends the loop, or that begins another pass of it after an attempt. -/
theorem next_settles {r : Shared × Handler} (sound : h.Sound) (excluding : h.Excluding)
    (moved : next s h event = some r) :
    (∀ target outcome, r.2.pc = .finishing target outcome → GivesUp s h outcome) ∧
      ∀ target choice, r.2.pc = .dispatching target choice → h.trail ≠ [] →
        ∃ w, w.target = target ∧ Untried s h w ∧ 0 < s.freeSlots w ∧
          ∀ v, Untried s h v → s.freeSlots v ≤ s.freeSlots w := by
  have first (before : h.pc.untried = true) (some_ : h.trail ≠ []) : False := some_ (sound.untried before)
  cases next_move moved with
  | accept | look | miss | dispatch | connect | refuse | invalid | unreachable | drop | forget =>
    constructor <;> rintro _ _ ⟨⟩
  | found at_ | confirm at_ =>
    exact ⟨by rintro _ _ ⟨⟩,fun _ _ _ some_ => (first (by simp [at_,Pc.untried]) some_).elim⟩
  | select at_ new listed selected full =>
    refine ⟨fun target outcome left => ?_,fun _ _ _ some_ => (first (by simp [at_,Pc.untried]) some_).elim⟩
    rcases full with ⟨rfl,_⟩ | ⟨rfl,_⟩ <;> cases left
  | respond at_ responded => cases responded <;> constructor <;> rintro _ _ ⟨⟩
  | judge at_ judged =>
    rcases next_of_awaiting at_ moved with ⟨target,outcome,rfl⟩ | under_way
    · refine ⟨fun _ _ left => judge_gives_up sound left,fun _ _ again => ?_⟩
      have judged := judge_cases s h target outcome
      generalize judge s h target outcome = r at judged again
      cases judged <;> cases again
    · constructor
      · intro _ _ left
        simp [left,Pc.awaits] at under_way
      · intro _ _ again
        simp [again,Pc.awaits] at under_way
  | retry at_ retried =>
    obtain ⟨_,_,_,excluded⟩ := by simpa only [Handler.Standing,at_] using sound.standing
    have both (pod : String) : pod ∈ h.excluded ↔ h.tried pod := by
      constructor
      · exact excluding (by simp [at_,Pc.over]) pod
      · rintro tried
        obtain ⟨a,member,rfl⟩ := List.mem_map.mp tried
        exact excluded a member
    obtain rfl := next_of_retrying at_ moved
    rcases retry_chooses both _ _ _ with ⟨full,pc⟩ | ⟨w,choice,untried,free,most,pc⟩
    · refine ⟨fun _ _ _ => .pods full,fun _ _ again => ?_⟩
      rw [pc] at again
      cases again
    · constructor
      · intro _ _ left
        rw [pc] at left
        cases left
      · intro _ _ again _
        rw [pc] at again
        exact ⟨w,(Pc.dispatching.inj again).1,untried,free,most⟩

end Moves

variable {fleet : Fleet} {s t : State} {i : Nat} {h h' : Handler}

theorem excluding_of_reachable (reached : (machine fleet).Reachable s) (here : s.handlers[i]? = some h) :
    h.Excluding := by
  refine (each_request (P := fun h => h.Sound ∧ h.Excluding) ?_ ?_ reached i h here).2
  · intro req now
    exact ⟨⟨rfl,Nat.zero_le _,List.nodup_nil,trivial,rfl⟩,by simp [Handler.Excluding,Handler.new]⟩
  · exact fun _ _ _ _ sane moved => ⟨sane.1.move moved,sane.2.move sane.1 moved⟩

/-- In every run: a request leaves its retry loop only when its latest outcome is final, less
than ten seconds are left, the plan's attempts are made, or no healthy pod of its scope it was
not sent to has a free slot; and when it goes on, it goes on with the freest of these. -/
theorem gives_up_last (reached : (machine fleet).Reachable s) (here : s.handlers[i]? = some h)
    (taken : step fleet s (.advance i event) = some t) (after : t.handlers[i]? = some h') :
    (∀ target outcome, h'.pc = .finishing target outcome → GivesUp s.shared h outcome) ∧
      ∀ target choice, h'.pc = .dispatching target choice → h.trail ≠ [] →
        ∃ w, w.target = target ∧ Untried s.shared h w ∧ 0 < s.shared.freeSlots w ∧
          ∀ v, Untried s.shared h v → s.shared.freeSlots v ≤ s.shared.freeSlots w := by
  obtain ⟨h₁,shared,h₂,here₁,moved,rfl⟩ := take_cases (fun shared h => next shared h event) taken
  obtain rfl := Option.some.inj (here.symm.trans here₁)
  have bound := (List.getElem?_eq_some_iff.mp here).1
  obtain rfl : h₂ = h' := by simpa [bound] using after
  exact next_settles (sound_of_reachable reached here) (excluding_of_reachable reached here) moved

def onlyPod : List Action :=
  [.discover [.ready "web-0" "web" 1],.monitor ["web-0"],.arrive (.page "web" "")] ++ dispatched 0 ++
    [.advance 0 (.answered (.failure capacityExhausted))]

theorem gives_up_last_only_pod : ∃ s t h h' target,
    (machine (.discovered fun _ => "web")).exec onlyPod (machine (.discovered fun _ => "web")).initial = some s ∧
    step (.discovered fun _ => "web") s (.advance 0 .go) = some t ∧
    s.handlers[0]? = some h ∧ t.handlers[0]? = some h' ∧
    h'.pc = .finishing target (.answered (.failure capacityExhausted)) ∧
    GivesUp s.shared h (.answered (.failure capacityExhausted)) := by
  obtain ⟨s,t,h,h',target,ran,taken,here,after,left⟩ : ∃ s t h h' target,
      (machine (.discovered fun _ => "web")).exec onlyPod (machine (.discovered fun _ => "web")).initial = some s ∧
      step (.discovered fun _ => "web") s (.advance 0 .go) = some t ∧
      s.handlers[0]? = some h ∧ t.handlers[0]? = some h' ∧
      h'.pc = .finishing target (.answered (.failure capacityExhausted)) := ⟨_,_,_,_,_,rfl,rfl,rfl,rfl,rfl⟩
  exact ⟨s,t,h,h',target,ran,taken,here,after,left,
    (gives_up_last (Machine.reachable_of_exec ran) here taken after).1 _ _ left⟩

end BrowserHive.Coordinator
