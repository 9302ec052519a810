import BrowserHive.Lib.CounterVec
import BrowserHive.Coordinator.Labels

/-! What the coordinator's own counters say of the requests: each is counted once, when its
guard is dropped, and each attempt that is followed by another is counted when that happens. -/
namespace BrowserHive.Coordinator

open Transition

def RejectReason.asStr : RejectReason → String
  | .scopeNotFound => "scope_not_found"
  | .noWorkers => "no_workers"
  | .scopeUnavailable => "scope_unavailable"
  | .noSlots => "no_slots"
  | .sessionNotFound => "session_not_found"
  | .terminating => "terminating"
  | .workerUnreachable => "worker_unreachable"

def allRejectReasons : List RejectReason :=
  [.scopeNotFound,.noWorkers,.scopeUnavailable,.noSlots,.sessionNotFound,.terminating,.workerUnreachable]

def RetryReason.asStr : RetryReason → String
  | .terminating => "terminating"
  | .noSlots => "no_slots"
  | .workerUnreachable => "worker_unreachable"

def allRetryReasons : List RetryReason := [.terminating,.noSlots,.workerUnreachable]

theorem RejectReason.asStr_injective : Function.Injective RejectReason.asStr := by
  intro a b same
  cases a <;> cases b <;> first | rfl | simp [asStr] at same

theorem RetryReason.asStr_injective : Function.Injective RetryReason.asStr := by
  intro a b same
  cases a <;> cases b <;> first | rfl | simp [asStr] at same

def RejectReason.errorCode : RejectReason → ErrorCode
  | .scopeNotFound => .scopeNotFound
  | .noWorkers | .scopeUnavailable | .noSlots => .noWorkersAvailable
  | .sessionNotFound => .sessionNotFound
  | .terminating => .terminating
  | .workerUnreachable => .workerUnreachable

/-- Of the durations, how many were observed. -/
structure CoordinatorMetrics where
  requestsTotal : CounterVec String
  requestsRejectedTotal : CounterVec (String × String)
  requestsRetriedTotal : CounterVec (String × String)
  requestDurationCount : CounterVec String
  scopeWorkersTotal : CounterVec String
  scopeWorkersHealthy : CounterVec String
  scopeAvailableSlots : CounterVec String

/-- Counted at once, under the scope the request has then. -/
def RequestMetrics.recordRetry (r : RequestMetrics) (reason : RetryReason) (m : CoordinatorMetrics) :
    CoordinatorMetrics :=
  { m with requestsRetriedTotal := m.requestsRetriedTotal.inc (r.scope,reason.asStr) }

def RequestMetrics.drop (r : RequestMetrics) (m : CoordinatorMetrics) : CoordinatorMetrics :=
  { m with
    requestsTotal := m.requestsTotal.inc r.label
    requestDurationCount := m.requestDurationCount.inc r.label
    requestsRejectedTotal :=
      match r.rejectReason with
      | some reason => m.requestsRejectedTotal.inc (r.label,reason.asStr)
      | none => m.requestsRejectedTotal }

namespace CoordinatorMetrics

def new : CoordinatorMetrics := ⟨∅,∅,∅,∅,∅,∅,∅⟩

def registerScope (m : CoordinatorMetrics) (scope : String) : CoordinatorMetrics :=
  { m with
    requestsTotal := m.requestsTotal.touch scope
    requestDurationCount := m.requestDurationCount.touch scope
    requestsRejectedTotal :=
      allRejectReasons.foldl (fun c reason => c.touch (scope,reason.asStr)) m.requestsRejectedTotal
    requestsRetriedTotal :=
      allRetryReasons.foldl (fun c reason => c.touch (scope,reason.asStr)) m.requestsRetriedTotal }

def refreshScope (s : Shared) (m : CoordinatorMetrics) (scope : String) : CoordinatorMetrics :=
  let m := m.registerScope scope
  let endpoints := (s.routable scope).getD []
  { m with
    scopeWorkersTotal := m.scopeWorkersTotal.insert scope endpoints.length
    scopeWorkersHealthy :=
      m.scopeWorkersHealthy.insert scope (endpoints.countP (fun w => w.podName ∈ s.healthy))
    scopeAvailableSlots := m.scopeAvailableSlots.insert scope (endpoints.map s.freeSlots).sum }

/-- A scrape, with the scopes of the routable map in the order it lists them. Scopes that
have left the map keep what they showed last. -/
def refreshClusterGauges (m : CoordinatorMetrics) (s : Shared) (scopes : List String) : CoordinatorMetrics :=
  scopes.foldl (refreshScope s) m

def observe (m : CoordinatorMetrics) (h h' : Handler) : CoordinatorMetrics :=
  let m :=
    match h.pc,h'.pc with
    | .retrying _ _ plan _,.dispatching .. => h.metrics.recordRetry plan.reason m
    | _,_ => m
  if h'.pc.ended then h'.metrics.drop m else m

/-- What a step of the coordinator counts: that of the request it is a step of. -/
def follow (m : CoordinatorMetrics) (s : State) (a : Action) (t : State) : CoordinatorMetrics :=
  match a with
  | .advance i _ | .drop i =>
    match s.handlers[i]?,t.handlers[i]? with
    | some h,some h' => m.observe h h'
    | _,_ => m
  | _ => m

end CoordinatorMetrics

inductive MeteredAction where
  | act (a : Action)
  | scrape (scopes : List String)

/-- The coordinator with its counters, scraped at any time. -/
def metered (fleet : Fleet) : Machine (State × CoordinatorMetrics) MeteredAction where
  initial := (fleet.initial,.new)
  step s
    | .act a => (openStep fleet s.1 a).map fun t => (t,s.2.follow s.1 a t)
    | .scrape scopes =>
      if scopes.all (fun scope => (s.1.shared.routable scope).isSome) then
        some (s.1,s.2.refreshClusterGauges s.1.shared scopes)
      else none

def Handler.latest (h : Handler) : Option Outcome := h.trail.head?.bind Attempt.outcome

/-- The attempts that were followed by another one, or are about to be. -/
def Handler.resent (h : Handler) : List Attempt :=
  match h.pc with
  | .dispatching .. => h.trail
  | _ => h.trail.tail

/-- For which reason an attempt's outcome may be followed by another one. -/
def Attempt.reason (noSession : Bool) (a : Attempt) : Option RetryReason :=
  (a.outcome.bind (Outcome.plan noSession)).map RetryPlan.reason

def Handler.retries (h : Handler) (reason : RetryReason) : Nat :=
  h.resent.countP (fun a => a.reason h.req.noSession = some reason)

def Handler.counted (scope : String) (h : Handler) : Bool := h.pc.ended && h.metrics.label = scope

def Handler.refusedFor (scope : String) (reason : RejectReason) (h : Handler) : Bool :=
  h.counted scope && h.metrics.rejectReason = some reason

def Handler.retriedIn (scope : String) (reason : RetryReason) (h : Handler) : Nat :=
  if h.metrics.scope = scope then h.retries reason else 0

structure Exact (handlers : List Handler) (m : CoordinatorMetrics) : Prop where
  total : ∀ scope, m.requestsTotal.get scope = handlers.countP (Handler.counted scope)
  durations : ∀ scope, m.requestDurationCount.get scope = m.requestsTotal.get scope
  rejected : ∀ scope reason, m.requestsRejectedTotal.get (scope,reason.asStr) =
    handlers.countP (Handler.refusedFor scope reason)
  retried : ∀ scope reason, m.requestsRetriedTotal.get (scope,reason.asStr) =
    Tasks.weigh (Handler.retriedIn scope reason) handlers
  everyone : m.requestsTotal.total = handlers.countP (fun h => h.pc.ended)
  healthy : ∀ scope, m.scopeWorkersHealthy.get scope ≤ m.scopeWorkersTotal.get scope

/-- What a refusal is counted for, the client was told; what it was told without a refusal
being counted, the last worker asked has answered. -/
def Handler.Told (h : Handler) (response : ScrapePageResponse) : Prop :=
  match h.metrics.rejectReason with
  | some reason => response.errorCode = reason.errorCode.code
  | none => ∃ resp, h.latest = some (.answered resp) ∧ response.errorCode = resp.errorCode ∧
    resp.errorCode ≠ capacityExhausted

/-- What its guard will record of a request, at every point. -/
structure Handler.Charged (h : Handler) : Prop where
  ongoing : (∀ response, h.pc ≠ .responded response) → h.metrics.rejectReason = none
  untried : h.pc.untried = true → h.trail = []
  tried : h.pc.occupies.isSome = true → h.trail ≠ []
  planned : ∀ target outcome plan remaining, h.pc = .retrying target outcome plan remaining →
    h.latest = some outcome ∧ outcome.plan h.req.noSession = some plan
  final : ∀ target outcome, h.pc = .finishing target outcome → h.latest = some outcome
  told : ∀ response, h.pc = .responded response → h.Told response

/-- What a step does to the attempts that were followed by another one. -/
inductive Resent (h h' : Handler) : Prop where
  | kept (same : h'.resent = h.resent) (still : h.resent = [] ∨ h'.metrics.scope = h.metrics.scope)
      (other : ∀ target outcome plan remaining target' choice,
        h.pc = .retrying target outcome plan remaining → h'.pc ≠ .dispatching target' choice)
  | again (at_ : h.pc = .retrying target outcome plan remaining) (next : h'.pc = .dispatching target' choice)
      (more : h'.resent = a :: h.resent) (reason : a.reason h.req.noSession = some plan.reason)
      (still : h'.metrics.scope = h.metrics.scope)

section Request

variable {c c' : Shared} {h h' : Handler} {scope : String}

theorem Handler.latest_record (some_ : h.trail ≠ []) (outcome : Outcome) :
    (h.recordOutcome outcome).latest = some outcome := by
  unfold Handler.recordOutcome Handler.latest
  split
  · rfl
  · next none_ => exact absurd none_ some_

@[simp] theorem Handler.tail_record (h : Handler) (outcome : Outcome) :
    (h.recordOutcome outcome).trail.tail = h.trail.tail := by
  unfold Handler.recordOutcome
  split
  · next trail => simp [trail]
  · rfl

theorem Handler.resent_other (other : ∀ target choice, h.pc ≠ .dispatching target choice) :
    h.resent = h.trail.tail := by
  unfold Handler.resent
  split
  · next at_ => exact absurd at_ (other _ _)
  · rfl

/-- The response after the loop keeps the scope, and says no more than its metrics do. -/
theorem respond_told (target : Target) (answered : h.latest = some (.answered resp))
    (unrejected : h.metrics.rejectReason = none) :
    ∃ response, (respond c h target resp).2.pc = .responded response ∧ (respond c h target resp).2.Told response ∧
      (respond c h target resp).2.trail = h.trail ∧ (respond c h target resp).2.metrics.scope = h.metrics.scope := by
  by_cases full : resp.errorCode = capacityExhausted
  · simp only [respond,translate,full,if_true]
    split <;> exact ⟨_,rfl,rfl,rfl,rfl⟩
  · have told (response : ScrapePageResponse) (same : response.errorCode = resp.errorCode) :
        Handler.Told { h with pc := .responded response } response := by
      simp only [Handler.Told,unrejected]
      exact ⟨resp,answered,same,full⟩
    simp only [respond,translate,full,if_false]
    split <;> exact ⟨_,rfl,told _ rfl,rfl,rfl⟩

theorem next_respond {r : Shared × Handler} (at_ : h.pc = .finishing target (.answered resp))
    (moved : next c h event = some r) : r = respond c h target resp := by
  simp only [next,at_,finishNext] at moved
  cases event with
  | go => exact (Option.some.inj moved).symm
  | _ => contradiction

theorem Handler.Charged.quiet (pc : Pc) (metrics : RequestMetrics) (session : Option SessionInfo)
    (unrejected : metrics.rejectReason = none) (untried : pc.untried = true → h.trail = [])
    (tried : pc.occupies.isSome = true → h.trail ≠ [])
    (loop : ∀ target outcome plan remaining, pc ≠ .retrying target outcome plan remaining)
    (final : ∀ target outcome, pc = .finishing target outcome → h.latest = some outcome)
    (through : ∀ response, pc ≠ .responded response) :
    Handler.Charged { h with pc := pc, metrics := metrics, session := session } :=
  ⟨fun _ => unrejected,untried,tried,fun _ _ _ _ at_ => absurd at_ (loop _ _ _ _),final,
    fun _ at_ => absurd at_ (through _)⟩

theorem Handler.Charged.responded (metrics : RequestMetrics)
    (told : Handler.Told { h with pc := .responded response, metrics := metrics } response) :
    Handler.Charged { h with pc := .responded response, metrics := metrics } := by
  refine ⟨fun through => absurd rfl (through response),(by rintro ⟨⟩),(by rintro ⟨⟩),(by rintro _ _ _ _ ⟨⟩),
    (by rintro _ _ ⟨⟩),?_⟩
  rintro _ ⟨⟩
  exact told

theorem Refusal.classified (why : Refusal c h c' reason code message) : code = reason.errorCode := by
  cases why with
  | missing at_ classified =>
    unfold classifyMissingScope at classified
    split at classified <;> (obtain ⟨rfl,rfl,rfl⟩ := by simpa using classified) <;> rfl
  | _ => rfl

theorem Handler.Charged.judged (charged : h.Charged)
    (at_ : h.pc = .connecting target ∨ ∃ forwarded, h.pc = .calling target forwarded)
    (judged : Judged c h target outcome (c',h')) : h'.Charged := by
  have some_ : h.trail ≠ [] :=
    charged.tried (by rcases at_ with at_ | ⟨_,at_⟩ <;> simp [at_,Pc.occupies])
  have unrejected : h.metrics.rejectReason = none :=
    charged.ongoing fun response through => by rcases at_ with at_ | ⟨_,at_⟩ <;> simp [at_] at through
  have latest := Handler.latest_record some_ outcome
  cases judged with
  | break_ excluded =>
    refine ⟨fun _ => by simpa using unrejected,(by rintro ⟨⟩),(by rintro ⟨⟩),(by rintro _ _ _ _ ⟨⟩),?_,
      (by rintro _ ⟨⟩)⟩
    rintro _ _ ⟨⟩
    exact latest
  | another planned left time =>
    refine ⟨fun _ => by simpa using unrejected,(by rintro ⟨⟩),fun _ none_ => ?_,?_,(by rintro _ _ ⟨⟩),
      (by rintro _ ⟨⟩)⟩
    · have none_ : (h.recordOutcome outcome).trail = [] := none_
      simp [Handler.latest,none_] at latest
    · rintro _ _ _ _ ⟨⟩
      exact ⟨latest,by simpa using planned⟩

theorem Handler.Charged.move (charged : h.Charged) (moved : Move c h (c',h'))
    (answers : ∀ target resp, h.pc = .finishing target (.answered resp) → h'.pc ≠ .dropped →
      (c',h') = respond c h target resp) : h'.Charged := by
  have unrejected (going : h.pc.ended = false) : h.metrics.rejectReason = none := by
    refine charged.ongoing fun response through => ?_
    simp [through,Pc.ended] at going
  have going := unrejected moved.ongoing
  cases moved with
  | accept at_ | look at_ | miss at_ =>
    exact .quiet _ _ _ going (fun _ => charged.untried (by simp [at_,Pc.untried])) (by rintro ⟨⟩)
      (by rintro _ _ _ _ ⟨⟩) (by rintro _ _ ⟨⟩) (by rintro _ ⟨⟩)
  | refuse why => exact .responded _ (congrArg ErrorCode.code why.classified)
  | found at_ =>
    exact .quiet _ _ _ going (by rintro ⟨⟩) (by rintro ⟨⟩) (by rintro _ _ _ _ ⟨⟩) (by rintro _ _ ⟨⟩)
      (by rintro _ ⟨⟩)
  | forget at_ =>
    exact .quiet _ _ _ going (fun _ => charged.untried (by simp [at_,Pc.untried])) (by rintro ⟨⟩)
      (by rintro _ _ _ _ ⟨⟩) (by rintro _ _ ⟨⟩) (by rintro _ ⟨⟩)
  | select at_ new listed selected full =>
    have untried := charged.untried (by simp [at_,Pc.untried])
    rcases full with ⟨rfl,_⟩ | ⟨rfl,_⟩ <;>
      exact .quiet _ _ _ going (fun _ => untried) (by rintro ⟨⟩) (by rintro _ _ _ _ ⟨⟩) (by rintro _ _ ⟨⟩)
        (by rintro _ ⟨⟩)
  | confirm at_ =>
    exact .quiet _ _ _ going (by rintro ⟨⟩) (by rintro ⟨⟩) (by rintro _ _ _ _ ⟨⟩) (by rintro _ _ ⟨⟩)
      (by rintro _ ⟨⟩)
  | dispatch at_ =>
    exact ⟨fun _ => going,(by rintro ⟨⟩),fun _ => List.cons_ne_nil _ _,(by rintro _ _ _ _ ⟨⟩),
      (by rintro _ _ ⟨⟩),(by rintro _ ⟨⟩)⟩
  | connect at_ =>
    exact .quiet _ _ _ going (by rintro ⟨⟩) (fun _ => charged.tried (by simp [at_,Pc.occupies]))
      (by rintro _ _ _ _ ⟨⟩) (by rintro _ _ ⟨⟩) (by rintro _ ⟨⟩)
  | judge at_ judged => exact charged.judged at_ judged
  | invalid at_ | drop at_ =>
    exact .quiet _ _ _ going (by rintro ⟨⟩) (by rintro ⟨⟩) (by rintro _ _ _ _ ⟨⟩) (by rintro _ _ ⟨⟩)
      (by rintro _ ⟨⟩)
  | retry at_ retried =>
    obtain ⟨latest,_⟩ := charged.planned _ _ _ _ at_
    cases retried with
    | break_ same =>
      refine .quiet _ _ _ going (by rintro ⟨⟩) (by rintro ⟨⟩) (by rintro _ _ _ _ ⟨⟩) ?_ (by rintro _ ⟨⟩)
      rintro _ _ ⟨⟩
      exact latest
    | again =>
      exact .quiet _ _ _ going (by rintro ⟨⟩) (by rintro ⟨⟩) (by rintro _ _ _ _ ⟨⟩) (by rintro _ _ ⟨⟩)
        (by rintro _ ⟨⟩)
  | unreachable at_ => exact .responded _ rfl
  | respond at_ responded =>
    have same := answers _ _ at_ (by cases responded <;> rintro ⟨⟩)
    obtain ⟨response,through,told,_⟩ := respond_told (c := c) _ (charged.final _ _ at_) going
    rw [← same] at through told
    have through : h'.pc = .responded response := through
    refine ⟨fun going => absurd through (going response),?_,?_,?_,?_,?_⟩
    · simp [through,Pc.untried]
    · simp [through,Pc.occupies]
    · simp [through]
    · simp [through]
    · intro other at_
      obtain rfl := Pc.responded.inj (through.symm.trans at_)
      exact told

theorem Move.req (moved : Move c h (c',h')) : h'.req = h.req := by
  cases moved with
  | judge at_ judged => cases judged <;> simp
  | retry at_ retried => cases retried <;> rfl
  | respond at_ responded => cases responded <;> rfl
  | _ => rfl

theorem Resent.fresh (none_ : h.trail = []) (still : h'.trail = []) (at_ : h.pc.untried = true) : Resent h h' := by
  have empty (g : Handler) (none_ : g.trail = []) : g.resent = [] := by
    unfold Handler.resent
    split <;> simp [none_]
  refine .kept ((empty h' still).trans (empty h none_).symm) (.inl (empty h none_)) ?_
  intro target outcome plan remaining target' choice retrying
  simp [retrying,Pc.untried] at at_

theorem Resent.later (before : ∀ target choice, h.pc ≠ .dispatching target choice)
    (after : ∀ target choice, h'.pc ≠ .dispatching target choice) (same : h'.trail.tail = h.trail.tail)
    (still : h'.metrics.scope = h.metrics.scope) : Resent h h' :=
  .kept (by rw [Handler.resent_other after,Handler.resent_other before,same]) (.inr still)
    fun _ _ _ _ _ _ _ => after _ _

theorem Move.resent (charged : h.Charged) (moved : Move c h (c',h'))
    (answers : ∀ target resp, h.pc = .finishing target (.answered resp) → h'.pc ≠ .dropped →
      (c',h') = Coordinator.respond c h target resp) : Resent h h' := by
  cases moved with
  | accept at_ | look at_ | miss at_ | found at_ | forget at_ | select at_ | confirm at_ =>
    have early : h.pc.untried = true := by simp [at_,Pc.untried]
    exact .fresh (charged.untried early) (charged.untried early) early
  | refuse why =>
    have early : h.pc.untried = true := by cases why <;> simp [*,Pc.untried]
    exact .fresh (charged.untried early) (charged.untried early) early
  | dispatch at_ => exact .kept (by simp [Handler.resent,at_]) (.inr rfl) (by simp [at_])
  | connect at_ | invalid at_ | unreachable at_ =>
    exact .later (by simp [at_]) (by rintro _ _ ⟨⟩) rfl rfl
  | judge at_ judged =>
    have before : ∀ target choice, h.pc ≠ .dispatching target choice := by
      rcases at_ with at_ | ⟨_,at_⟩ <;> simp [at_]
    cases judged <;> exact .later before (by rintro _ _ ⟨⟩) (by simp) (by simp)
  | @retry target outcome plan remaining _ at_ retried =>
    obtain ⟨latest,planned⟩ := charged.planned _ _ _ _ at_
    cases retried with
    | break_ same => exact .later (by simp [at_]) (by rintro _ _ ⟨⟩) rfl rfl
    | again =>
      cases trail : h.trail with
      | nil => simp [Handler.latest,trail] at latest
      | cons a older =>
        have answered : a.outcome = some outcome := by simpa [Handler.latest,trail] using latest
        refine .again (a := a) at_ rfl ?_ ?_ rfl
        · simp [Handler.resent,Handler.goto,at_,trail]
        · simp [Attempt.reason,answered,planned]
  | respond at_ responded =>
    have same := answers _ _ at_ (by cases responded <;> rintro ⟨⟩)
    obtain ⟨response,through,_,trail,scope⟩ :=
      respond_told (c := c) _ (charged.final _ _ at_) (charged.ongoing (by simp [at_]))
    rw [← same] at through trail scope
    have through : h'.pc = .responded response := through
    exact .later (by simp [at_]) (by simp [through]) (congrArg List.tail trail) scope
  | drop at_ =>
    refine .later ?_ (by rintro _ _ ⟨⟩) rfl rfl
    intro target choice dispatching
    simp [dispatching,Pc.suspends] at at_

theorem Resent.retried (resent : Resent h h') (same : h'.req = h.req) (m : CoordinatorMetrics) (scope : String)
    (reason : RetryReason) :
    (m.observe h h').requestsRetriedTotal.get (scope,reason.asStr) + h.retriedIn scope reason =
      m.requestsRetriedTotal.get (scope,reason.asStr) + h'.retriedIn scope reason := by
  cases resent with
  | kept kept still other =>
    have uncounted : (m.observe h h').requestsRetriedTotal = m.requestsRetriedTotal := by
      unfold CoordinatorMetrics.observe
      split
      · next before after => exact absurd after (other _ _ _ _ _ _ before)
      · simp only
        split <;> rfl
    have retries : h'.retries reason = h.retries reason := by simp [Handler.retries,kept,same]
    have none_ (empty : h.resent = []) : h.retries reason = 0 := by simp [Handler.retries,empty]
    rw [uncounted]
    unfold Handler.retriedIn
    rcases still with empty | still
    · simp [retries,none_ empty]
    · rw [still,retries]
  | @again target outcome plan remaining target' choice a at_ next more why still =>
    have counted : (m.observe h h').requestsRetriedTotal =
        m.requestsRetriedTotal.inc (h.metrics.scope,plan.reason.asStr) := by
      simp [CoordinatorMetrics.observe,at_,next,Pc.ended,RequestMetrics.recordRetry]
    have retries : h'.retries reason = h.retries reason + if reason = plan.reason then 1 else 0 := by
      simp [Handler.retries,more,same,List.countP_cons,why,eq_comm]
    rw [counted,CounterVec.get_inc,Handler.retriedIn,Handler.retriedIn,still,retries]
    by_cases own : h.metrics.scope = scope
    · subst own
      by_cases for_ : reason = plan.reason
      · subst for_
        simp
        omega
      · have apart : reason.asStr ≠ plan.reason.asStr := fun equal => for_ (RetryReason.asStr_injective equal)
        simp [for_,apart]
    · simp [own,Ne.symm own]

end Request

section Counters

variable {m : CoordinatorMetrics} {h h' : Handler} {handlers : List Handler} {scope : String}

theorem countP_over {p : Handler → Bool} (here : handlers[i]? = some h) (before : p h = false) (h' : Handler) :
    (handlers.set i h').countP p = handlers.countP p + if p h' then 1 else 0 := by
  obtain ⟨bound,rfl⟩ := List.getElem?_eq_some_iff.mp here
  simp [List.countP_set bound,before]

theorem CoordinatorMetrics.observe_total (m : CoordinatorMetrics) (h h' : Handler) :
    (m.observe h h').requestsTotal =
      if h'.pc.ended then m.requestsTotal.inc h'.metrics.label else m.requestsTotal := by
  unfold observe
  split <;> split <;> rfl

theorem CoordinatorMetrics.observe_durations (m : CoordinatorMetrics) (h h' : Handler) :
    (m.observe h h').requestDurationCount =
      if h'.pc.ended then m.requestDurationCount.inc h'.metrics.label else m.requestDurationCount := by
  unfold observe
  split <;> split <;> rfl

/-- A refusal is counted when the request ends, under the label of the request itself. -/
theorem CoordinatorMetrics.observe_rejected (m : CoordinatorMetrics) (h h' : Handler) (scope : String)
    (reason : RejectReason) :
    (m.observe h h').requestsRejectedTotal.get (scope,reason.asStr) =
      m.requestsRejectedTotal.get (scope,reason.asStr) + if h'.refusedFor scope reason then 1 else 0 := by
  have dropped : (m.observe h h').requestsRejectedTotal = if h'.pc.ended then
      (match h'.metrics.rejectReason with
        | some why => m.requestsRejectedTotal.inc (h'.metrics.label,why.asStr)
        | none => m.requestsRejectedTotal)
      else m.requestsRejectedTotal := by
    unfold observe
    split <;> split <;> rfl
  rw [dropped]
  cases through : h'.pc.ended with
  | false => simp [Handler.refusedFor,Handler.counted,through]
  | true =>
    cases rejected : h'.metrics.rejectReason with
    | none => simp [Handler.refusedFor,rejected]
    | some why =>
      by_cases own : scope = h'.metrics.label
      · by_cases same : reason = why
        · simp [Handler.refusedFor,Handler.counted,through,rejected,own,same]
        · have apart : reason.asStr ≠ why.asStr := fun equal => same (RejectReason.asStr_injective equal)
          simp [Handler.refusedFor,rejected,apart,Ne.symm same]
      · simp [Handler.refusedFor,Handler.counted,own,Ne.symm own]

theorem CoordinatorMetrics.observe_gauges (m : CoordinatorMetrics) (h h' : Handler) :
    (m.observe h h').scopeWorkersTotal = m.scopeWorkersTotal ∧
      (m.observe h h').scopeWorkersHealthy = m.scopeWorkersHealthy := by
  unfold observe
  split <;> split <;> exact ⟨rfl,rfl⟩

theorem Exact.observe (exact : Exact handlers m) (here : handlers[i]? = some h) (ongoing : h.pc.ended = false)
    (resent : Resent h h') (same : h'.req = h.req) : Exact (handlers.set i h') (m.observe h h') := by
  have total (scope : String) : (m.observe h h').requestsTotal.get scope =
      (handlers.set i h').countP (Handler.counted scope) := by
    rw [countP_over here (by simp [Handler.counted,ongoing]),← exact.total,CoordinatorMetrics.observe_total]
    cases through : h'.pc.ended <;> simp [Handler.counted,through,eq_comm]
  refine ⟨total,fun scope => ?_,fun scope reason => ?_,fun scope reason => ?_,?_,fun scope => ?_⟩
  · have durations := exact.durations scope
    rw [CoordinatorMetrics.observe_durations,CoordinatorMetrics.observe_total]
    split <;> simp [durations]
  · rw [countP_over here (by simp [Handler.refusedFor,Handler.counted,ongoing]),← exact.rejected]
    exact m.observe_rejected h h' scope reason
  · have moved := resent.retried same m scope reason
    have weighed := Tasks.weigh_set (w := Handler.retriedIn scope reason) here h'
    have before := exact.retried scope reason
    omega
  · rw [countP_over here ongoing,← exact.everyone,CoordinatorMetrics.observe_total]
    split <;> simp [CounterVec.total_inc]
  · rw [(m.observe_gauges h h').1,(m.observe_gauges h h').2]
    exact exact.healthy scope

theorem Exact.refreshScope (exact : Exact handlers m) (s : Shared) (scope : String) :
    Exact handlers (m.refreshScope s scope) := by
  refine ⟨fun other => ?_,fun other => ?_,fun other reason => ?_,fun other reason => ?_,?_,fun other => ?_⟩
  · simpa [CoordinatorMetrics.refreshScope,CoordinatorMetrics.registerScope] using exact.total other
  · simpa [CoordinatorMetrics.refreshScope,CoordinatorMetrics.registerScope] using exact.durations other
  · simp only [CoordinatorMetrics.refreshScope,CoordinatorMetrics.registerScope]
    rw [CounterVec.get_touch_all,exact.rejected]
  · simp only [CoordinatorMetrics.refreshScope,CoordinatorMetrics.registerScope]
    rw [CounterVec.get_touch_all,exact.retried]
  · simp only [CoordinatorMetrics.refreshScope,CoordinatorMetrics.registerScope]
    rw [CounterVec.total_touch,exact.everyone]
  · simp only [CoordinatorMetrics.refreshScope,CounterVec.get]
    by_cases own : other = scope
    · subst own
      simpa using List.countP_le_length
    · simpa [own,CounterVec.get,CoordinatorMetrics.registerScope] using exact.healthy other

theorem Exact.scrape (exact : Exact handlers m) (s : Shared) (scopes : List String) :
    Exact handlers (m.refreshClusterGauges s scopes) := by
  unfold CoordinatorMetrics.refreshClusterGauges
  induction scopes generalizing m with
  | nil => exact exact
  | cons scope rest ih => exact ih (exact.refreshScope s scope)

/-- Every series of a scope exists, and its gauges show what is routed by now. -/
structure Registered (s : Shared) (m : CoordinatorMetrics) (scope : String) : Prop where
  total : scope ∈ m.requestsTotal
  durations : scope ∈ m.requestDurationCount
  rejected : ∀ reason : RejectReason, (scope,reason.asStr) ∈ m.requestsRejectedTotal
  retried : ∀ reason : RetryReason, (scope,reason.asStr) ∈ m.requestsRetriedTotal
  workers : m.scopeWorkersTotal.lookup scope = some ((s.routable scope).getD []).length
  healthy : m.scopeWorkersHealthy.lookup scope =
    some (((s.routable scope).getD []).countP fun w => w.podName ∈ s.healthy)
  slots : m.scopeAvailableSlots.lookup scope = some (((s.routable scope).getD []).map s.freeSlots).sum

theorem Registered.refreshScope {s : Shared} (other : String) (there : scope = other ∨ Registered s m scope) :
    Registered s (m.refreshScope s other) scope := by
  have gauge (c : CounterVec String) (f : List WorkerEndpoint → Nat)
      (shown : Registered s m scope → c.lookup scope = some (f ((s.routable scope).getD []))) :
      (c.insert other (f ((s.routable other).getD []))).lookup scope = some (f ((s.routable scope).getD [])) := by
    by_cases same : scope = other
    · subst same
      exact AList.lookup_insert c
    · rw [AList.lookup_insert_ne same]
      exact shown (there.resolve_left same)
  refine ⟨?_,?_,fun reason => ?_,fun reason => ?_,gauge _ _ Registered.workers,gauge _ _ Registered.healthy,
    gauge _ (fun endpoints => (endpoints.map s.freeSlots).sum) Registered.slots⟩ <;>
    simp only [CoordinatorMetrics.refreshScope,CoordinatorMetrics.registerScope]
  · rw [CounterVec.mem_touch]
    exact there.imp_right Registered.total
  · rw [CounterVec.mem_touch]
    exact there.imp_right Registered.durations
  · rw [CounterVec.mem_touch_all]
    refine there.imp ?_ fun registered => registered.rejected reason
    rintro rfl
    exact ⟨reason,by cases reason <;> simp [allRejectReasons],rfl⟩
  · rw [CounterVec.mem_touch_all]
    refine there.imp ?_ fun registered => registered.retried reason
    rintro rfl
    exact ⟨reason,by cases reason <;> simp [allRetryReasons],rfl⟩

theorem Registered.scrape {s : Shared} (scopes : List String) (there : scope ∈ scopes ∨ Registered s m scope) :
    Registered s (m.refreshClusterGauges s scopes) scope := by
  unfold CoordinatorMetrics.refreshClusterGauges
  induction scopes generalizing m with
  | nil => exact there.resolve_left List.not_mem_nil
  | cons other rest ih =>
    rcases there with listed | registered
    · rcases List.mem_cons.mp listed with rfl | later
      · exact ih (.inr (.refreshScope _ (.inl rfl)))
      · exact ih (.inl later)
    · exact ih (.inr (.refreshScope other (.inr registered)))

end Counters

structure Metered (s : State × CoordinatorMetrics) : Prop where
  exact : Exact s.1.handlers s.2
  charged : ∀ (i : Nat) (h : Handler), s.1.handlers[i]? = some h → h.Charged

section Run

variable {fleet : Fleet} {s t : State × CoordinatorMetrics}

theorem Handler.Charged.new (req : ScrapePageRequest) (now : Nat) : (Handler.new req now).Charged :=
  ⟨fun _ => rfl,fun _ => rfl,(by rintro ⟨⟩),(by rintro _ _ _ _ ⟨⟩),(by rintro _ _ ⟨⟩),(by rintro _ ⟨⟩)⟩

theorem Metered.initial (fleet : Fleet) : Metered (metered fleet).initial := by
  refine ⟨⟨fun _ => rfl,fun _ => rfl,fun _ _ => rfl,fun _ _ => rfl,rfl,fun _ => Nat.le_refl 0⟩,fun i h here => ?_⟩
  simp [metered,Fleet.initial] at here

theorem Metered.request {s : State} {m : CoordinatorMetrics} (kept : Metered (s,m)) (here : s.handlers[i]? = some h)
    (moved : Move s.shared h (shared,h'))
    (answers : ∀ target resp, h.pc = .finishing target (.answered resp) → h'.pc ≠ .dropped →
      (shared,h') = respond s.shared h target resp)
    (at_ : a = .drop i ∨ ∃ event, a = .advance i event) :
    Metered (⟨shared,s.handlers.set i h'⟩,m.follow s a ⟨shared,s.handlers.set i h'⟩) := by
  have charged := kept.charged i h here
  have there : (s.handlers.set i h')[i]? = some h' := List.getElem?_set_self (List.getElem?_eq_some_iff.mp here).1
  have followed : m.follow s a ⟨shared,s.handlers.set i h'⟩ = m.observe h h' := by
    rcases at_ with rfl | ⟨event,rfl⟩ <;> simp only [CoordinatorMetrics.follow,here,there]
  refine ⟨?_,fun j g there => ?_⟩
  · rw [followed]
    exact kept.exact.observe here moved.ongoing (moved.resent charged answers) moved.req
  · rcases Tasks.getElem?_set_cases here there with ⟨_,rfl⟩ | ⟨_,old⟩
    · exact charged.move moved answers
    · exact kept.charged j g old

theorem Metered.act {s t : State} {m : CoordinatorMetrics} (kept : Metered (s,m)) (stepped : openStep fleet s a = some t) :
    Metered (t,m.follow s a t) := by
  cases a with
  | advance i event =>
    obtain ⟨h,shared,h',here,moved,rfl⟩ := take_cases (fun shared h => next shared h event) stepped
    exact kept.request here (next_move moved) (fun _ _ at_ _ => next_respond at_ moved) (.inr ⟨event,rfl⟩)
  | drop i =>
    obtain ⟨h,shared,h',here,moved,rfl⟩ := take_cases dropNext stepped
    refine kept.request here (drop_move moved) (fun _ _ _ lives => ?_) (.inl rfl)
    unfold dropNext at moved
    split at moved
    · cases moved
      exact absurd rfl lives
    · contradiction
  | arrive req =>
    obtain rfl := Option.some.inj stepped
    obtain ⟨⟨total,durations,rejected,retried,everyone,healthy⟩,charged⟩ := kept
    refine ⟨⟨fun scope => ?_,durations,fun scope reason => ?_,fun scope reason => ?_,?_,healthy⟩,fun j g there => ?_⟩
    · simpa [CoordinatorMetrics.follow,Handler.counted,Handler.new,Pc.ended] using total scope
    · simpa [CoordinatorMetrics.follow,Handler.refusedFor,Handler.counted,Handler.new,Pc.ended] using rejected scope reason
    · simpa [CoordinatorMetrics.follow,Handler.retriedIn,Handler.retries,Handler.resent,Handler.new] using retried scope reason
    · simpa [CoordinatorMetrics.follow,Handler.new,Pc.ended] using everyone
    · rcases Tasks.getElem?_append_cases there with old | ⟨_,rfl⟩
      · exact charged j g old
      · exact .new req s.shared.now
  | tick | cancel | discover | publish | monitor | cleanup =>
    rcases openStep_cases stepped with ⟨pods,act,rfl⟩ | ⟨_,turn⟩
    · exact ⟨kept.exact,kept.charged⟩
    · cases turn with
      | request here moved act => rcases act with ⟨same,_⟩ | ⟨_,same⟩ <;> cases same
      | background works act => exact ⟨kept.exact,kept.charged⟩

theorem Metered.step (kept : Metered s) (taken : (metered fleet).step s a = some t) : Metered t := by
  cases a with
  | act a =>
    obtain ⟨mid,stepped,rfl⟩ := Option.map_eq_some_iff.mp taken
    exact kept.act stepped
  | scrape scopes =>
    simp only [metered] at taken
    split at taken
    · obtain rfl := Option.some.inj taken
      exact ⟨kept.exact.scrape _ _,kept.charged⟩
    · contradiction

theorem metered_of_reachable (run : (metered fleet).Reachable s) : Metered s :=
  Machine.Reachable.invariant (Metered.initial fleet) (fun _ _ _ _ kept taken => kept.step taken) run

end Run

/-- In every run the counters are what the requests say: each request that is over counts once
and under one label, each refusal for the reason the client was told, and each attempt that
was followed by another for the reason that it was. Requests in progress make up the rest.
A scrape counts nothing, and shows every series of the scopes that are routable, the gauges at
what is routed by. -/
theorem meters_exact {fleet : Fleet} {s : State × CoordinatorMetrics} (run : (metered fleet).Reachable s) :
    Exact s.1.handlers s.2 ∧
    s.2.requestsTotal.total + s.1.handlers.countP (fun h => !h.pc.ended) = s.1.handlers.length ∧
    (∀ (i : Nat) h response, s.1.handlers[i]? = some h → h.pc = .responded response → h.Told response) ∧
    ∀ scopes t, (metered fleet).step s (.scrape scopes) = some t →
      Exact s.1.handlers t.2 ∧ ∀ scope ∈ scopes, Registered s.1.shared t.2 scope := by
  have kept := metered_of_reachable run
  refine ⟨kept.exact,?_,fun i h response here at_ => (kept.charged i h here).told response at_,fun scopes t taken => ?_⟩
  · have whole := List.length_eq_countP_add_countP (l := s.1.handlers) fun h => h.pc.ended
    rw [kept.exact.everyone,whole]
    simp
  · have after := kept.step taken
    simp only [metered] at taken
    split at taken
    · obtain rfl := Option.some.inj taken
      exact ⟨after.exact,fun scope listed => .scrape _ (.inl listed)⟩
    · contradiction

def secondPodScraped : List MeteredAction :=
  (secondPod ++ [Action.advance 0 .go]).map MeteredAction.act ++ [.scrape ["web"]]

theorem meters_exact_second_pod : ∃ s, (metered (.discovered fun _ => "web")).exec secondPodScraped
      (metered (.discovered fun _ => "web")).initial = some s ∧
    s.1.handlers.length = 1 ∧ s.2.requestsRetriedTotal.get ("web","no_slots") = 1 ∧ Exact s.1.handlers s.2 := by
  obtain ⟨s,ran,one⟩ : ∃ s, (metered (.discovered fun _ => "web")).exec secondPodScraped
        (metered (.discovered fun _ => "web")).initial = some s ∧ s.1.handlers.length = 1 := ⟨_,rfl,rfl⟩
  have exact := (meters_exact (Machine.reachable_of_exec ran)).1
  refine ⟨s,ran,one,?_,exact⟩
  cases ran
  rfl

end BrowserHive.Coordinator
