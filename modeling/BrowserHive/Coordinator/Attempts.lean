import BrowserHive.Coordinator.Moves

/-! The retry loop: how often a request is dispatched, to which pods, and after which
answers it is dispatched again. -/
namespace BrowserHive.Coordinator

open Transition

def Excuses (noSession : Bool) (made : Nat) : Outcome → Prop
  | .answered resp =>
    resp.errorCode = ErrorCode.terminating.code ∧ made < maxTerminatingAttempts ∨
      noSession = true ∧ resp.errorCode = capacityExhausted ∧ made < maxCapacityAttempts
  | .unreachable _ => noSession = true ∧ made < maxUnreachableAttempts

/-- Attempt `b` was made after `a`, the last of `made`: the outcome of `a` excused it, ten
seconds of the budget were left, and its pod was healthy and showed a free slot. -/
def Follows (noSession : Bool) (made : Nat) (a b : Attempt) : Prop :=
  (∃ outcome, a.outcome = some outcome ∧ Excuses noSession made outcome) ∧
    ∃ remaining freeSlots, b.choice = .retry remaining true freeSlots ∧
      seconds 10 ≤ remaining ∧ 0 < freeSlots

def Justified (noSession : Bool) : List Attempt → Prop
  | b :: a :: older => Follows noSession (older.length + 1) a b ∧ Justified noSession (a :: older)
  | _ => True

def Handler.Settled (h : Handler) : Prop :=
  ∃ a ∈ h.trail, ∃ resp, a.outcome = some (.answered resp) ∧
    resp.errorCode ≠ ErrorCode.terminating.code ∧ resp.errorCode ≠ capacityExhausted

/-- What the client can rely on about one request's attempts. -/
structure RetryContract (h : Handler) : Prop where
  bounded : h.trail.length ≤ maxTerminatingAttempts
  distinct : (h.trail.map Attempt.worker).Nodup
  justified : Justified h.req.noSession h.trail
  translated : ∀ response, h.pc = .responded response → response.errorCode ≠ capacityExhausted

section Outcomes

variable {noSession : Bool} {outcome : Outcome}

/-- A plan with attempts left is an excuse. -/
theorem excuses_of_plan (planned : outcome.plan noSession = some plan) (left : made < plan.maxAttempts) :
    Excuses noSession made outcome := by
  cases outcome with
  | answered resp =>
    simp only [Outcome.plan,classifyRetry] at planned
    split at planned
    · next terminating =>
      obtain rfl := Option.some.inj planned
      exact .inl ⟨terminating,left⟩
    · split at planned
      · next full =>
        obtain rfl := Option.some.inj planned
        exact .inr ⟨full.2,full.1,left⟩
      · contradiction
  | unreachable message =>
    simp only [Outcome.plan,classifyUnreachableRetry] at planned
    split at planned
    · next new =>
      obtain rfl := Option.some.inj planned
      exact ⟨new,left⟩
    · contradiction

theorem Excuses.few (excused : Excuses noSession made outcome) : made < maxTerminatingAttempts := by
  unfold maxTerminatingAttempts
  cases outcome with
  | answered resp =>
    rcases excused with ⟨_,left⟩ | ⟨_,_,left⟩
    · exact left
    · exact Nat.lt_succ_of_lt left
  | unreachable message => exact Nat.lt_succ_of_lt excused.2

/-- The outcome of the latest attempt is no part of what justifies the attempts. -/
theorem Justified.record (justified : Justified noSession (a :: older)) :
    Justified noSession ({ a with outcome := outcome } :: older) := by
  cases older with
  | nil => trivial
  | cons b older => exact justified

theorem Justified.latest (justified : Justified noSession (a :: older)) (earlier : b ∈ older)
    (outcome : b.outcome = some (.answered resp)) :
    resp.errorCode = ErrorCode.terminating.code ∨ resp.errorCode = capacityExhausted := by
  induction older generalizing a with
  | nil => cases earlier
  | cons c older ih =>
    rcases List.mem_cons.mp earlier with rfl | deeper
    · obtain ⟨answer,found,excused⟩ := justified.1.1
      obtain rfl := Option.some.inj (outcome.symm.trans found)
      exact excused.imp And.left (fun full => full.2.1)
    · exact ih justified.2 deeper

end Outcomes

def Pc.untried : Pc → Bool
  | .arrived | .looking | .routing | .forgetting | .missing | .refreshing _ => true
  | _ => false

/-- Where the attempts stand at each point of the request. -/
def Handler.Standing (h : Handler) : Prop :=
  match h.pc with
  | .dispatching target choice =>
    h.trail = [] ∨ (∃ a older, h.trail = a :: older ∧
      Follows h.req.noSession h.trail.length a ⟨target.workerId,choice,none⟩) ∧
      (∀ a ∈ h.trail, a.worker ∈ h.excluded) ∧ target.workerId ∉ h.excluded
  | .connecting target | .calling target _ =>
    ∃ a older, h.trail = a :: older ∧ a.worker = target.workerId ∧ a.outcome = none ∧
      ∀ b ∈ older, b.worker ∈ h.excluded
  | .retrying _ outcome _ remaining =>
    (∃ a older, h.trail = a :: older ∧ a.outcome = some outcome) ∧
      Excuses h.req.noSession h.trail.length outcome ∧ seconds 10 ≤ remaining ∧
      ∀ a ∈ h.trail, a.worker ∈ h.excluded
  | .responded response => response.errorCode ≠ capacityExhausted
  | .finishing .. | .refused | .dropped => True
  | _ => h.trail = []

structure Handler.Sound (h : Handler) : Prop where
  counted : h.attempt = h.trail.length
  bounded : h.trail.length ≤ maxTerminatingAttempts
  distinct : (h.trail.map Attempt.worker).Nodup
  justified : Justified h.req.noSession h.trail
  standing : h.Standing

theorem ErrorCode.code_ne_capacityExhausted (code : ErrorCode) : code.code ≠ capacityExhausted := by
  cases code <;> decide

section Sound

variable {s s' : Shared} {h h' : Handler}

theorem Handler.Sound.untried (sound : h.Sound) (at_ : h.pc.untried = true) : h.trail = [] := by
  have standing := sound.standing
  unfold Handler.Standing at standing
  cases here : h.pc <;> simp_all [Pc.untried]

theorem Handler.Sound.dispatch (sound : h.Sound) (at_ : h.pc = .dispatching target choice) :
    { h with
      attempt := h.attempt + 1
      trail := ⟨target.workerId,choice,none⟩ :: h.trail
      pc := .connecting target }.Sound := by
  have standing := sound.standing
  simp only [Handler.Standing,at_] at standing
  rcases standing with first | ⟨⟨a,older,trail,follows⟩,excluded,fresh⟩
  · exact ⟨by simp [sound.counted],by simp [first,maxTerminatingAttempts],by simp [first],
      by simp [first,Justified],⟨_,h.trail,rfl,rfl,rfl,by simp [first]⟩⟩
  · obtain ⟨⟨outcome,_,excused⟩,_⟩ := id follows
    refine ⟨by simp [sound.counted],excused.few,?_,?_,⟨_,h.trail,rfl,rfl,rfl,excluded⟩⟩
    · refine List.nodup_cons.mpr ⟨fun tried => ?_,sound.distinct⟩
      obtain ⟨b,member,same⟩ := List.mem_map.mp tried
      have worker : b.worker = target.workerId := same
      exact fresh (worker ▸ excluded b member)
    · have justified := sound.justified
      rw [trail] at follows justified ⊢
      exact ⟨follows,justified⟩

theorem Handler.Sound.awaiting (sound : h.Sound)
    (at_ : h.pc = .connecting target ∨ ∃ forwarded, h.pc = .calling target forwarded) :
    ∃ a older, h.trail = a :: older ∧ a.worker = target.workerId ∧ a.outcome = none ∧
      ∀ b ∈ older, b.worker ∈ h.excluded := by
  have standing := sound.standing
  rcases at_ with at_ | ⟨_,at_⟩ <;> simpa only [Handler.Standing,at_] using standing

theorem Handler.Sound.judged (sound : h.Sound)
    (at_ : h.pc = .connecting target ∨ ∃ forwarded, h.pc = .calling target forwarded)
    (judged : Judged s h target outcome (s',h')) : h'.Sound := by
  obtain ⟨a,older,trail,worker,_,excluded⟩ := sound.awaiting at_
  have recorded : h.recordOutcome outcome =
      { h with trail := { a with outcome := some outcome } :: older } := by
    simp [Handler.recordOutcome,trail]
  have counted := sound.counted
  have bounded := sound.bounded
  have distinct := sound.distinct
  have justified := sound.justified
  rw [trail] at counted bounded distinct justified
  cases judged with
  | break_ tried =>
    rw [recorded]
    exact ⟨counted,bounded,distinct,justified.record,trivial⟩
  | another planned left time =>
    rw [recorded]
    refine ⟨counted,bounded,distinct,justified.record,⟨_,older,rfl,rfl⟩,?_,time,?_⟩
    · exact excuses_of_plan planned (by simpa [counted] using left)
    · intro b member
      rcases List.mem_cons.mp member with rfl | earlier
      · simp [worker]
      · exact List.mem_cons_of_mem _ (excluded b earlier)

theorem Handler.Sound.retried (sound : h.Sound) (at_ : h.pc = .retrying target outcome plan remaining)
    (retried : Retried s h target outcome remaining (s',h')) : h'.Sound := by
  have standing := sound.standing
  simp only [Handler.Standing,at_] at standing
  obtain ⟨⟨a,older,trail,answered⟩,excused,time,excluded⟩ := standing
  cases retried with
  | break_ same => exact ⟨sound.counted,sound.bounded,sound.distinct,sound.justified,trivial⟩
  | again listed member healthy untried free slots =>
    refine ⟨sound.counted,sound.bounded,sound.distinct,sound.justified,.inr ⟨?_,excluded,untried⟩⟩
    exact ⟨a,older,trail,⟨outcome,answered,excused⟩,remaining,_,rfl,time,free⟩

theorem Handler.Sound.move (sound : h.Sound) (moved : Move s h (s',h')) : h'.Sound := by
  have stays (metrics : RequestMetrics) (session : Option SessionInfo) (pc : Pc)
      (standing : Handler.Standing { h with metrics := metrics, session := session, pc := pc }) :
      Handler.Sound { h with metrics := metrics, session := session, pc := pc } :=
    ⟨sound.counted,sound.bounded,sound.distinct,sound.justified,standing⟩
  cases moved with
  | accept at_ | look at_ | miss at_ => exact stays _ _ _ (sound.untried (by simp [at_,Pc.untried]))
  | refuse why => exact stays _ _ _ (ErrorCode.code_ne_capacityExhausted _)
  | found at_ => exact stays _ _ _ (.inl (sound.untried (by simp [at_,Pc.untried])))
  | forget at_ => exact stays _ _ _ (sound.untried (by simp [at_,Pc.untried]))
  | select at_ new listed selected full =>
    have untried : h.trail = [] := sound.untried (by simp [at_,Pc.untried])
    rcases full with ⟨rfl,_⟩ | ⟨rfl,_⟩
    · exact stays _ _ _ untried
    · exact stays _ _ _ (.inl untried)
  | confirm at_ => exact stays _ _ _ (.inl (sound.untried (by simp [at_,Pc.untried])))
  | dispatch at_ => exact sound.dispatch at_
  | connect at_ => exact stays _ _ _ (sound.awaiting (.inl at_))
  | judge at_ judged => exact sound.judged at_ judged
  | retry at_ retried => exact sound.retried at_ retried
  | invalid at_ | drop at_ => exact stays _ _ _ trivial
  | unreachable at_ => exact stays _ _ _ (ErrorCode.code_ne_capacityExhausted .workerUnreachable)
  | respond at_ responded =>
    cases responded with
    | plain metrics code | session metrics code => exact stays _ _ _ code

def Pc.over : Pc → Bool
  | .finishing .. | .responded _ | .refused | .dropped => true
  | _ => false

theorem Handler.Settled.over (settled : h.Settled) (sound : h.Sound) : h.pc.over = true := by
  obtain ⟨b,member,resp,answered,terminating,full⟩ := settled
  have latest (a : Attempt) (older : List Attempt) (trail : h.trail = a :: older) : b = a := by
    rw [trail] at member
    refine (List.mem_cons.mp member).resolve_right fun earlier => ?_
    exact ((trail ▸ sound.justified).latest earlier answered).elim terminating full
  have excuse (outcome : Outcome) (same : b.outcome = some outcome)
      (excused : Excuses h.req.noSession h.trail.length outcome) : False := by
    obtain rfl := Option.some.inj (answered.symm.trans same)
    rcases excused with ⟨code,_⟩ | ⟨_,code,_⟩
    · exact terminating code
    · exact full code
  have standing := sound.standing
  unfold Handler.Standing at standing
  cases at_ : h.pc with
  | finishing | responded | refused | dropped => rfl
  | arrived | looking | routing | forgetting | missing | refreshing =>
    simp [sound.untried (by simp [at_,Pc.untried])] at member
  | dispatching target choice =>
    simp only [at_] at standing
    rcases standing with first | ⟨⟨a,older,trail,⟨outcome,found,excused⟩,_⟩,_⟩
    · simp [first] at member
    · exact (excuse outcome (latest a older trail ▸ found) excused).elim
  | connecting target =>
    obtain ⟨a,older,trail,_,pending,_⟩ := sound.awaiting (.inl at_)
    simp [latest a older trail,pending] at answered
  | calling target forwarded =>
    obtain ⟨a,older,trail,_,pending,_⟩ := sound.awaiting (.inr ⟨_,at_⟩)
    simp [latest a older trail,pending] at answered
  | retrying target outcome plan remaining =>
    simp only [at_] at standing
    obtain ⟨⟨a,older,trail,found⟩,excused,_⟩ := standing
    exact (excuse outcome (latest a older trail ▸ found) excused).elim

theorem Move.trail_of_over (moved : Move s h (s',h')) (past : h.pc.over = true) : h'.trail = h.trail := by
  cases moved with
  | unreachable at_ | drop at_ => rfl
  | respond at_ responded => cases responded <;> rfl
  | refuse why => rfl
  | judge at_ judged => rcases at_ with at_ | ⟨_,at_⟩ <;> simp [at_,Pc.over] at past
  | retry at_ retried => simp [at_,Pc.over] at past
  | dispatch at_ => simp [at_,Pc.over] at past
  | _ => rfl

end Sound

variable {fleet : Fleet} {s t : State} {i : Nat} {h : Handler}

theorem sound_of_reachable (reached : (machine fleet).Reachable s) (here : s.handlers[i]? = some h) :
    h.Sound := by
  refine each_request (P := Handler.Sound) ?_ (fun _ _ _ _ sound moved => sound.move moved) reached i h here
  intro req now
  exact ⟨rfl,Nat.zero_le _,List.nodup_nil,trivial,rfl⟩

theorem settled_step (sound : h.Sound) (here : s.handlers[i]? = some h) (settled : h.Settled)
    (taken : step fleet s a = some t) : ∃ h' : Handler, t.handlers[i]? = some h' ∧ h'.trail = h.trail := by
  cases step_turn taken with
  | @request j h₁ shared h₂ _ before moved act =>
    by_cases same : j = i
    · subst same
      obtain rfl := Option.some.inj (here.symm.trans before)
      have bound := (List.getElem?_eq_some_iff.mp here).1
      exact ⟨h₂,by simp [bound],moved.trail_of_over (settled.over sound)⟩
    · exact ⟨h,by simpa [same] using here,rfl⟩
  | arrive =>
    have bound := (List.getElem?_eq_some_iff.mp here).1
    exact ⟨h,(List.getElem?_append_left bound).trans here,rfl⟩
  | background works act => exact ⟨h,here,rfl⟩

theorem settled_exec (reached : (machine fleet).Reachable s) (here : s.handlers[i]? = some h)
    (settled : h.Settled) (ran : (machine fleet).exec actions s = some t) :
    ∃ h' : Handler, t.handlers[i]? = some h' ∧ h'.trail = h.trail := by
  induction actions generalizing s h with
  | nil => exact ⟨h,Option.some.inj ran ▸ here,rfl⟩
  | cons a rest ih =>
    obtain ⟨mid,taken,later⟩ := Option.bind_eq_some_iff.mp ran
    obtain ⟨h₁,here₁,trail₁⟩ := settled_step (sound_of_reachable reached here) here settled taken
    have settled₁ : h₁.Settled := by simpa only [Handler.Settled,trail₁] using settled
    obtain ⟨h₂,here₂,trail₂⟩ := ih (reached.step trivial taken) here₁ settled₁ later
    exact ⟨h₂,here₂,trail₂.trans trail₁⟩

/-- The contract of the retry loop, in every run: at most three attempts at pods of
different names, each but the first excused by the one before it; after a final answer
no run of the coordinator dispatches the request again. -/
theorem retry_contract (reached : (machine fleet).Reachable s) (here : s.handlers[i]? = some h) :
    RetryContract h ∧
    (h.Settled → ∀ actions t, (machine fleet).exec actions s = some t →
      ∃ h' : Handler, t.handlers[i]? = some h' ∧ h'.trail = h.trail) := by
  have sound := sound_of_reachable reached here
  refine ⟨⟨sound.bounded,sound.distinct,sound.justified,fun response at_ => ?_⟩,
    fun settled actions t ran => settled_exec reached here settled ran⟩
  have standing := sound.standing
  simpa only [Handler.Standing,at_] using standing

def secondPod : List Action :=
  [.discover [.ready "web-0" "web" 1,.ready "web-1" "web" 1],.monitor ["web-0","web-1"],.arrive (.page "web" "")] ++
    dispatched 0 ++ [.advance 0 (.answered (.failure capacityExhausted))] ++
    List.replicate 3 (.advance 0 .go) ++ [.advance 0 (.answered ⟨true,200,"",0,""⟩)]

theorem retry_contract_second_pod : ∃ s h, (machine (.discovered fun _ => "web")).exec secondPod
      (machine (.discovered fun _ => "web")).initial = some s ∧ s.handlers[0]? = some h ∧
    h.trail.map Attempt.worker = ["web-1","web-0"] ∧ RetryContract h := by
  obtain ⟨s,h,ran,here,tried⟩ : ∃ s h, (machine (.discovered fun _ => "web")).exec secondPod
        (machine (.discovered fun _ => "web")).initial = some s ∧ s.handlers[0]? = some h ∧
      h.trail.map Attempt.worker = ["web-1","web-0"] := ⟨_,_,rfl,rfl,by decide +kernel⟩
  exact ⟨s,h,ran,here,tried,(retry_contract (Machine.reachable_of_exec ran) here).1⟩

end BrowserHive.Coordinator
