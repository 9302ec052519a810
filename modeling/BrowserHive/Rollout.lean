import BrowserHive.Coordinator.Loops
import BrowserHive.Worker.Shutdown

/-! A pod is told to stop while the coordinator routes: the coordinator with its background
tasks, beside the pods and the shutdown of the worker in each. -/
namespace BrowserHive.Rollout

open Transition Coordinator

structure State where
  coordinator : Loops.State
  pods : String → Worker.Shutdown.State

inductive Action where
  | coordinator (a : Loops.Action)
  | pod (name : String) (a : Worker.Shutdown.Action)
  /-- Another process comes up under the pod's name. -/
  | start (name : String)

def healthCheck (pod : Worker.Shutdown.State) : Bool := pod.isReady && !pod.cancelled

/-- The monitor hears that a worker is healthy from its pod alone. -/
def answers (s : State) : Loops.Action → Bool
  | .check true =>
    match s.coordinator.monitor with
    | .checking (w :: _) _ => healthCheck (s.pods w.podName)
    | _ => false
  | _ => true

def step (minPause timeout : Nat) (label : String → String) (s : State) : Action → Option State
  | .coordinator a =>
    if answers s a then (Loops.step label s.coordinator a).map fun coordinator => { s with coordinator } else none
  | .pod name a =>
    (Worker.Shutdown.step minPause timeout (s.pods name) a).map fun pod =>
      { s with pods := Function.update s.pods name pod }
  | .start name => some { s with pods := Function.update s.pods name Worker.Shutdown.initial }

def machine (minPause timeout : Nat) (label : String → String) : Machine State Action :=
  ⟨⟨(Loops.machine label).initial,fun _ => Worker.Shutdown.initial⟩,step minPause timeout label⟩

def Picks (pod : String) (h h' : Handler) : Prop :=
  (h.pc = .routing ∨ ∃ target outcome plan remaining, h.pc = .retrying target outcome plan remaining) ∧
    ∃ target, target.workerId = pod ∧ (h'.pc = .refreshing target ∨ ∃ choice, h'.pc = .dispatching target choice)

variable {minPause timeout : Nat} {label : String → String} {s t : State} {a : Action} {pod : String}

section Pods

/-- A worker that is not ready does not become ready, and admits no request. -/
theorem unready_step {p q : Worker.Shutdown.State} {a : Worker.Shutdown.Action} (unready : p.isReady = false)
    (taken : Worker.Shutdown.step minPause timeout p a = some q) :
    q.isReady = false ∧ ∀ k : Nat, q.requests[k]? = some .working → p.requests[k]? = some .working := by
  cases a with
  | tick =>
    obtain rfl := Option.some.inj taken
    exact ⟨unready,fun _ working => working⟩
  | arrive =>
    obtain rfl := Option.some.inj taken
    refine ⟨unready,fun k working => ?_⟩
    rcases Tasks.getElem?_append_cases working with old | ⟨_,new⟩
    · exact old
    · contradiction
  | request i =>
    obtain ⟨r,here,moved⟩ := Option.bind_eq_some_iff.mp taken
    obtain ⟨r',active,rfl,_,admitted⟩ := Worker.Shutdown.requestNext_cases moved
    refine ⟨unready,fun k working => ?_⟩
    rcases Tasks.getElem?_set_cases here working with ⟨_,rfl⟩ | ⟨_,old⟩
    · exact absurd (admitted rfl) (by simp [unready])
    · exact old
  | leave i =>
    obtain ⟨r,here,_,rfl⟩ := Worker.Shutdown.leave_cases taken
    refine ⟨unready,fun k working => ?_⟩
    rcases Tasks.getElem?_set_cases here working with ⟨_,gone⟩ | ⟨_,old⟩
    · contradiction
    · exact old
  | task =>
    simp only [Worker.Shutdown.step,Worker.Shutdown.taskNext] at taken
    repeat' split at taken
    all_goals try contradiction
    all_goals
      obtain rfl := Option.some.inj taken
      exact ⟨by first | rfl | exact unready,fun _ working => working⟩
  | interrupt =>
    simp only [Worker.Shutdown.step] at taken
    split at taken
    · obtain rfl := Option.some.inj taken
      exact ⟨unready,fun _ working => working⟩
    · contradiction

end Pods

/-- The pod was told to stop when it had been sent `sent` requests, and started none since. -/
structure Unready (pod : String) (sent : Nat) (s : State) : Prop where
  ready : (s.pods pod).isReady = false
  idle : ∀ k, sent ≤ k → (s.pods pod).requests[k]? ≠ some .working

def Unheard (pod : String) (s : State) : Prop :=
  ∀ todo healthySet, s.coordinator.monitor = .checking todo healthySet → pod ∉ healthySet

theorem step_cases (taken : step minPause timeout label s a = some t) :
    (∃ act, a = .coordinator act ∧ answers s act = true ∧ Loops.Works label s.coordinator act t.coordinator ∧
      t.pods = s.pods) ∨
    (∃ name act p, a = .pod name act ∧ Worker.Shutdown.step minPause timeout (s.pods name) act = some p ∧
      t = { s with pods := Function.update s.pods name p }) ∨
    ∃ name, a = .start name ∧ t = { s with pods := Function.update s.pods name Worker.Shutdown.initial } := by
  cases a with
  | coordinator act =>
    simp only [step] at taken
    split at taken
    · next answered =>
      obtain ⟨c,stepped,rfl⟩ := Option.map_eq_some_iff.mp taken
      exact .inl ⟨act,rfl,answered,Loops.step_works stepped,rfl⟩
    · contradiction
  | pod name act =>
    obtain ⟨p,stepped,rfl⟩ := Option.map_eq_some_iff.mp taken
    exact .inr (.inl ⟨name,act,p,rfl,stepped,rfl⟩)
  | start name => exact .inr (.inr ⟨name,rfl,(Option.some.inj taken).symm⟩)

theorem Unready.step {sent : Nat} (unready : Unready pod sent s) (same : a ≠ .start pod)
    (taken : step minPause timeout label s a = some t) : Unready pod sent t := by
  rcases step_cases taken with ⟨_,_,_,_,pods⟩ | ⟨name,act,p,rfl,stepped,rfl⟩ | ⟨name,rfl,rfl⟩
  · exact ⟨pods ▸ unready.ready,pods ▸ unready.idle⟩
  · by_cases own : pod = name
    · subst own
      obtain ⟨ready,admits⟩ := unready_step unready.ready stepped
      refine ⟨by simpa using ready,fun k later working => unready.idle k later (admits k ?_)⟩
      simpa using working
    · exact ⟨by simpa [own] using unready.ready,by simpa [own] using unready.idle⟩
  · have own : pod ≠ name := fun eq => same (eq ▸ rfl)
    exact ⟨by simpa [own] using unready.ready,by simpa [own] using unready.idle⟩

/-- A check that finds a worker healthy was answered by a pod that is ready. -/
theorem Unheard.step {sent : Nat} (unready : Unready pod sent s) (unheard : Unheard pod s)
    (taken : step minPause timeout label s a = some t) : Unheard pod t := by
  rcases step_cases taken with ⟨act,_,answered,works,_⟩ | ⟨_,_,_,_,_,rfl⟩ | ⟨_,_,rfl⟩
  · intro todo healthySet at_
    generalize t.coordinator = c at works at_
    cases works with
    | begin =>
      obtain ⟨_,rfl⟩ := Loops.Monitor.checking.inj at_
      exact List.not_mem_nil
    | @check w todo healthySet healthy before =>
      obtain ⟨_,rfl⟩ := Loops.Monitor.checking.inj at_
      have absent := unheard _ _ before
      cases healthy with
      | false => exact absent
      | true =>
        simp only [answers,before,healthCheck,Bool.and_eq_true] at answered
        have other : pod ≠ w.podName := by
          rintro rfl
          simp [unready.ready] at answered
        simpa [other] using absent
    | finish | stop => contradiction
    | _ => exact unheard todo healthySet at_
  · exact unheard
  · exact unheard

theorem unheard_begin (taken : step minPause timeout label s (.coordinator (.begin order)) = some t) : Unheard pod t := by
  intro todo healthySet at_
  rcases step_cases taken with ⟨act,same,_,works,_⟩ | ⟨_,_,_,other,_⟩ | ⟨_,other,_⟩
  · obtain rfl := Action.coordinator.inj same
    generalize t.coordinator = c at works at_
    cases works with
    | begin =>
      obtain ⟨_,rfl⟩ := Loops.Monitor.checking.inj at_
      exact List.not_mem_nil
  · contradiction
  · contradiction

structure Shunned (pod : String) (sent : Nat) (s : State) : Prop where
  unready : Unready pod sent s
  unheard : Unheard pod s
  unlisted : pod ∉ s.coordinator.shared.healthy

/-- The health set changes at the end of a round alone. -/
theorem healthy_cases (taken : step minPause timeout label s a = some t) :
    t.coordinator.shared.healthy = s.coordinator.shared.healthy ∨
      s.coordinator.monitor = .checking [] t.coordinator.shared.healthy := by
  rcases step_cases taken with ⟨act,_,_,works,_⟩ | ⟨_,_,_,_,_,rfl⟩ | ⟨_,_,rfl⟩
  · generalize t.coordinator = c at works
    cases works with
    | finish at_ => exact .inr at_
    | other foreground stepped => exact .inl (Loops.foreground_healthy foreground stepped)
    | _ => exact .inl rfl
  · exact .inl rfl
  · exact .inl rfl

theorem Shunned.step {sent : Nat} (shunned : Shunned pod sent s) (same : a ≠ .start pod)
    (taken : step minPause timeout label s a = some t) : Shunned pod sent t := by
  refine ⟨shunned.unready.step same taken,shunned.unheard.step shunned.unready taken,?_⟩
  rcases healthy_cases taken with kept | ended
  · exact kept ▸ shunned.unlisted
  · exact shunned.unheard _ _ ended

theorem shunned_finish {sent : Nat} (unready : Unready pod sent s) (unheard : Unheard pod s)
    (taken : step minPause timeout label s (.coordinator .finish) = some t) : Shunned pod sent t := by
  refine ⟨unready.step (by simp) taken,unheard.step unready taken,?_⟩
  rcases step_cases taken with ⟨act,same,_,works,_⟩ | ⟨_,_,_,other,_⟩ | ⟨_,other,_⟩
  · obtain rfl := Action.coordinator.inj same
    generalize t.coordinator = c at works
    cases works with
    | finish at_ => exact unheard _ _ at_
  · contradiction
  · contradiction

/-- A worker that is not known to be healthy is selected only where none of its scope is. -/
theorem selected_unhealthy {ws : List WorkerEndpoint} {healthy : List String} {rotation : Nat}
    (selected : selectBestWorker ws healthy freeSlots rotation = some best) (unlisted : best.worker.podName ∉ healthy) :
    ∀ w ∈ ws, w.podName ∉ healthy := by
  simp only [selectBestWorker,Option.map_eq_some_iff] at selected
  obtain ⟨⟨w,slots⟩,picked,rfl⟩ := selected
  have member := (pickMostFree_mem picked).1
  split at member
  · next none_ =>
    intro v listed known
    have alive : v ∈ ws.filter fun w => w.podName ∈ healthy := List.mem_filter.mpr ⟨listed,by simpa using known⟩
    rw [List.isEmpty_iff.mp none_] at alive
    exact absurd alive List.not_mem_nil
  · exact absurd (by simpa using (List.mem_filter.mp member).2) unlisted

/-- How a request can still come to a pod that is out of the health set. -/
def Excused (pod : String) (s : Shared) (h h' : Handler) : Prop :=
  (∃ info, h'.session = some info ∧ info.sessionId.workerId = pod) ∨
    (h.pc = .routing ∧ ∃ ws, s.routable h.req.scopeName = some ws ∧ ∀ w ∈ ws, w.podName ∉ s.healthy)

theorem move_excused {c c' : Shared} {h h' : Handler} (moved : Move c h (c',h')) (unlisted : pod ∉ c.healthy)
    (picks : Picks pod h h') : Excused pod c h h' := by
  obtain ⟨from_,target,rfl,to_⟩ := picks
  cases moved with
  | found at_ session stored listed member same =>
    refine .inl ⟨_,rfl,?_⟩
    rcases to_ with at' | ⟨choice,at'⟩
    · simp at at'
    · obtain ⟨rfl,_⟩ := Pc.dispatching.inj at'
      rfl
  | @select ws best pc at_ new listed selected full =>
    have own : best.worker.podName = target.workerId := by
      rcases full with ⟨rfl,_⟩ | ⟨rfl,_⟩
      · rcases to_ with at' | ⟨choice,at'⟩
        · exact congrArg Target.workerId (Pc.refreshing.inj at')
        · simp [Handler.goto] at at'
      · rcases to_ with at' | ⟨choice,at'⟩
        · simp [Handler.goto] at at'
        · exact congrArg Target.workerId (Pc.dispatching.inj at').1
    exact .inr ⟨at_,ws,listed,selected_unhealthy selected (own ▸ unlisted)⟩
  | retry at_ retried =>
    cases retried with
    | break_ => simp [Handler.goto] at to_
    | again listed member healthy =>
      rcases to_ with at' | ⟨choice,at'⟩
      · simp [Handler.goto] at at'
      · obtain ⟨rfl,_⟩ := Pc.dispatching.inj at'
        exact absurd healthy unlisted
  | refuse | forget | miss | unreachable | invalid | drop => simp [Handler.goto] at to_
  | respond at_ responded => cases responded <;> simp [Handler.goto] at to_
  | judge at_ => rcases at_ with at_ | ⟨_,at_⟩ <;> simp [at_] at from_
  | accept at_ | look at_ | confirm at_ | dispatch at_ | connect at_ => simp [at_] at from_

theorem handlers_cases (taken : step minPause timeout label s a = some t) :
    t.coordinator.coordinator.handlers = s.coordinator.coordinator.handlers ∨
      ∃ action, Coordinator.step (.discovered label) s.coordinator.coordinator action = some t.coordinator.coordinator := by
  rcases step_cases taken with ⟨act,_,_,works,_⟩ | ⟨_,_,_,_,_,rfl⟩ | ⟨_,_,rfl⟩
  · generalize t.coordinator = c at works
    cases works with
    | other foreground stepped => exact .inr ⟨_,stepped⟩
    | _ => exact .inl rfl
  · exact .inl rfl
  · exact .inl rfl

theorem picks_excused {i : Nat} {h h' : Handler} (unlisted : pod ∉ s.coordinator.shared.healthy)
    (taken : step minPause timeout label s a = some t) (here : s.coordinator.coordinator.handlers[i]? = some h)
    (there : t.coordinator.coordinator.handlers[i]? = some h') (picks : Picks pod h h') :
    Excused pod s.coordinator.shared h h' := by
  have moves : h ≠ h' := by
    rintro rfl
    obtain ⟨from_,target,_,to_⟩ := picks
    rcases from_ with at_ | ⟨_,_,_,_,at_⟩ <;> simp [at_] at to_
  have bound := (List.getElem?_eq_some_iff.mp here).1
  rcases handlers_cases taken with same | ⟨action,stepped⟩
  · exact absurd (Option.some.inj (here.symm.trans (same ▸ there))) moves
  · generalize t.coordinator.coordinator = c at stepped there
    cases step_turn stepped with
    | request before moved act =>
      rcases Tasks.getElem?_set_cases before there with ⟨rfl,rfl⟩ | ⟨_,old⟩
      · obtain rfl := Option.some.inj (here.symm.trans before)
        exact move_excused moved unlisted picks
      · exact absurd (Option.some.inj (here.symm.trans old)) moves
    | arrive =>
      rcases Tasks.getElem?_append_cases there with old | ⟨past,_⟩
      · exact absurd (Option.some.inj (here.symm.trans old)) moves
      · omega
    | background works act => exact absurd (Option.some.inj (here.symm.trans there)) moves

/-- From the moment a pod is told to stop, in every run of the coordinator with its tasks and of
the pods: the pod starts no request that arrives since; and once a round of checks that began
since is over, the pod is out of the health set, and no request that is routed or sent again
chooses it, unless it continues a session of the pod or no routable worker of its scope is healthy. -/
theorem stopped_pod_shunned (minPause timeout : Nat) (label : String → String) (pod : String) (s₀ s : State)
    (idle round later : List Action) (order : List String) (stopped : (s₀.pods pod).isReady = false)
    (ran : (machine minPause timeout label).exec
      (idle ++ .coordinator (.begin order) :: (round ++ .coordinator .finish :: later)) s₀ = some s)
    (same : ∀ a ∈ idle ++ round ++ later, a ≠ .start pod) :
    (∀ k, (s₀.pods pod).requests.length ≤ k → (s.pods pod).requests[k]? ≠ some .working) ∧
    pod ∉ s.coordinator.shared.healthy ∧
    ∀ (a : Action) (t : State) (i : Nat) (h h' : Handler), (machine minPause timeout label).step s a = some t →
      s.coordinator.coordinator.handlers[i]? = some h → t.coordinator.coordinator.handlers[i]? = some h' →
      Picks pod h h' → Excused pod s.coordinator.shared h h' := by
  let sent := (s₀.pods pod).requests.length
  have unready : Unready pod sent s₀ :=
    ⟨stopped,fun k past working => absurd (List.getElem?_eq_some_iff.mp working).1 (Nat.not_lt.mpr past)⟩
  rw [Machine.exec_append] at ran
  obtain ⟨s₁,ran₁,ran⟩ := Option.bind_eq_some_iff.mp ran
  obtain ⟨s₂,begun,ran⟩ := Option.bind_eq_some_iff.mp ran
  rw [Machine.exec_append] at ran
  obtain ⟨s₃,ran₃,ran⟩ := Option.bind_eq_some_iff.mp ran
  obtain ⟨s₄,finished,ran⟩ := Option.bind_eq_some_iff.mp ran
  have begun : step minPause timeout label s₁ (.coordinator (.begin order)) = some s₂ := begun
  have finished : step minPause timeout label s₃ (.coordinator .finish) = some s₄ := finished
  have waited : Unready pod sent s₁ := Machine.exec_keeps
    (fun a listed _ _ unready taken => unready.step (same a (by simp [listed])) taken) unready ran₁
  have started : Unready pod sent s₂ ∧ Unheard pod s₂ := ⟨waited.step (by simp) begun,unheard_begin begun⟩
  have checked : Unready pod sent s₃ ∧ Unheard pod s₃ := Machine.exec_keeps
    (P := fun s => Unready pod sent s ∧ Unheard pod s)
    (fun a listed _ _ ⟨unready,unheard⟩ taken =>
      ⟨unready.step (same a (by simp [listed])) taken,unheard.step unready taken⟩) started ran₃
  have shunned : Shunned pod sent s := Machine.exec_keeps
    (fun a listed _ _ shunned taken => shunned.step (same a (by simp [listed])) taken)
    (shunned_finish checked.1 checked.2 finished) ran
  exact ⟨shunned.unready.idle,shunned.unlisted,
    fun _ _ _ _ _ taken here there picks => picks_excused shunned.unlisted taken here there picks⟩

def firstStops : List Action :=
  ([.list [.ready "a" "shop" 3,.ready "b" "shop" 3],.ask (some { availableSlots := 3 }),
    .ask (some { availableSlots := 3 }),.store,.publish] : List Loops.Action).map .coordinator ++
  [.pod "a" .task,.pod "a" .task]

def firstRound : List Action :=
  [.coordinator (.check false),.pod "a" (.request 0),.coordinator (.check true)]

def turnedAway : List Action := [.pod "a" (.request 0),.pod "a" (.request 0)]

theorem stopped_pod_shunned_first : ∃ s₀ s, (machine 3 25 fun _ => "shop").exec firstStops
      (machine 3 25 fun _ => "shop").initial = some s₀ ∧
    (machine 3 25 fun _ => "shop").exec ([.pod "a" .arrive] ++ .coordinator (.begin ["shop"]) ::
      (firstRound ++ .coordinator .finish :: turnedAway)) s₀ = some s ∧
    s.coordinator.shared.healthy = ["b"] ∧ (s.pods "a").requests = [.refused] ∧
    ((∀ k, (s₀.pods "a").requests.length ≤ k → (s.pods "a").requests[k]? ≠ some .working) ∧
      "a" ∉ s.coordinator.shared.healthy ∧
      ∀ (act : Action) (t : State) (i : Nat) (h h' : Handler), (machine 3 25 fun _ => "shop").step s act = some t →
        s.coordinator.coordinator.handlers[i]? = some h → t.coordinator.coordinator.handlers[i]? = some h' →
        Picks "a" h h' → Excused "a" s.coordinator.shared h h') := by
  obtain ⟨s₀,s,before,ran,stopped,healthy,refused⟩ : ∃ s₀ s, (machine 3 25 fun _ => "shop").exec firstStops
        (machine 3 25 fun _ => "shop").initial = some s₀ ∧
      (machine 3 25 fun _ => "shop").exec ([.pod "a" .arrive] ++ .coordinator (.begin ["shop"]) ::
        (firstRound ++ .coordinator .finish :: turnedAway)) s₀ = some s ∧
      (s₀.pods "a").isReady = false ∧ s.coordinator.shared.healthy = ["b"] ∧ (s.pods "a").requests = [.refused] :=
    ⟨_,_,rfl,rfl,rfl,by decide +kernel,by decide +kernel⟩
  exact ⟨s₀,s,before,ran,healthy,refused,stopped_pod_shunned 3 25 (fun _ => "shop") "a" s₀ s [.pod "a" .arrive]
    firstRound turnedAway ["shop"] stopped ran (by simp [firstRound,turnedAway])⟩

end BrowserHive.Rollout
