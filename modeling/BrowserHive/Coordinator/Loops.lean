import BrowserHive.Lib.RoundTask
import BrowserHive.Coordinator.Accounting
import BrowserHive.Coordinator.Rounds

/-! The coordinator with its background tasks as they run: discovery asks the listed pods one
by one and the health monitor checks the routable workers one by one, while requests come, are
routed and leave in between. What the two store is told by their last round. -/
namespace BrowserHive.Coordinator.Loops

open Transition
open RoundTask (LastRun)

/-- `start_discovery`. A round builds two maps; `scopes` are the keys of the first of them.
`asked` is a ghost: the pods asked so far, with their answers. -/
inductive Discovery where
  | sleeping
  | asking (todo : List Pod) (maps : Routable × Presences) (scopes : List String) (asked : List Pod)
  /-- The first map is stored, the second is not. -/
  | publishing

inductive Monitor where
  | waiting
  | checking (todo : List WorkerEndpoint) (healthySet : List String)
  | stopped

structure State where
  coordinator : Coordinator.State
  /-- The keys of the routable map. -/
  scopes : List String
  discovery : Discovery
  monitor : Monitor

inductive Action where
  | list (pods : List Pod)
  | listFailed
  | ask (stats : Option WorkerStats)
  | store
  | publish
  /-- A tick of the monitor; the keys of the map in the order it iterates over them. -/
  | begin (order : List String)
  /-- Whether the worker was reached and answered that it is healthy. -/
  | check (healthy : Bool)
  | finish
  | stop
  | other (action : Coordinator.Action)

/-- Only these are asked for their stats. -/
def Pod.fetched (pod : Pod) : Bool := pod.running && pod.scope.isSome && pod.name.isSome && pod.podIp.isSome

def Pod.unasked (pod : Pod) : Pod := { pod with answer := none }

def answered (asked : Pod × Option (WorkerStats × Nat)) : Pod := { asked.1 with answer := asked.2 }

def keys (scopes : List String) (pod : Pod) : List String :=
  match pod.scope with
  | some scope => if (pod.endpoint scope).isSome then scopes.insert scope else scopes
  | none => scopes

def background : Coordinator.Action → Bool
  | .discover _ | .publish | .monitor _ => true
  | _ => false

namespace State

variable (s : State)

abbrev shared : Shared := s.coordinator.shared

def answer (pod : Pod) (stats : Option WorkerStats) : Option (WorkerStats × Nat) :=
  if Pod.fetched pod then stats.map fun stats => (stats,s.shared.inFlight.current (pod.name.getD "")) else none

def snapshot (order : List String) : List WorkerEndpoint := order.flatMap fun scope => (s.shared.routable scope).getD []

def withShared (shared : Shared) : State := { s with coordinator := { s.coordinator with shared := shared } }

end State

variable (label : String → String)

def step (s : State) : Action → Option State
  | .list pods =>
    match s.discovery with
    | .sleeping =>
      if pods.all (Fleet.discovered label).lists then
        some { s with discovery := .asking (pods.map Pod.unasked) (fun _ => none,fun _ => none) [] [] }
      else none
    | _ => none
  | .listFailed =>
    match s.discovery with
    | .sleeping => some s
    | _ => none
  | .ask stats =>
    match s.discovery with
    | .asking (pod :: todo) maps scopes asked =>
      let pod := answered (pod,s.answer pod stats)
      some { s with discovery := .asking todo (discoverPod maps pod) (keys scopes pod) (asked ++ [pod]) }
    | _ => none
  | .store =>
    match s.discovery with
    | .asking [] maps scopes _ =>
      -- the write lock: no request is between its read lock and its last look at the map
      if s.coordinator.handlers.all (fun h => !h.pc.reads) then
        some { s.withShared { s.shared with routable := maps.1, found := some maps.2 } with
          scopes := scopes, discovery := .publishing }
      else none
    | _ => none
  | .publish =>
    match s.discovery,s.shared.found with
    | .publishing,some presences =>
      some { s.withShared { s.shared with presences := presences, found := none } with discovery := .sleeping }
    | _,_ => none
  | .begin order =>
    match s.monitor with
    | .waiting => if order.Perm s.scopes then some { s with monitor := .checking (s.snapshot order) [] } else none
    | _ => none
  | .check healthy =>
    match s.monitor with
    | .checking (w :: todo) healthySet =>
      some { s with monitor := .checking todo (if healthy then healthySet.insert w.podName else healthySet) }
    | _ => none
  | .finish =>
    match s.monitor with
    | .checking [] healthySet => some { s.withShared { s.shared with healthy := healthySet } with monitor := .waiting }
    | _ => none
  | .stop =>
    match s.monitor with
    | .waiting => if s.shared.cancelled then some { s with monitor := .stopped } else none
    | _ => none
  | .other action =>
    if background action then none
    else (Coordinator.step (.discovered label) s.coordinator action).map fun coordinator => { s with coordinator }

def machine : Machine State Action := ⟨⟨(Fleet.discovered label).initial,[],.sleeping,.waiting⟩,step label⟩

/-- What the coordinator's own machine does at a step. -/
def performs (s : State) (a : Action) (_ : State) : List Coordinator.Action :=
  match a with
  | .store =>
    match s.discovery with
    | .asking _ _ _ asked => [.discover asked]
    | _ => []
  | .publish => [.publish]
  | .finish =>
    match s.monitor with
    | .checking _ healthySet => [.monitor healthySet]
    | _ => []
  | .other action => [action]
  | _ => []

def asks (s : State) (a : Action) (_ : State) : List (RoundTask.Move Pod (Option (WorkerStats × Nat))) :=
  match a with
  | .list pods => [.start (pods.map Pod.unasked)]
  | .ask stats =>
    match s.discovery with
    | .asking (pod :: _) .. => [.item (s.answer pod stats)]
    | _ => []
  | .store => [.finish]
  | _ => []

def checks (s : State) (a : Action) (_ : State) : List (RoundTask.Move WorkerEndpoint Bool) :=
  match a with
  | .begin order => [.start (s.snapshot order)]
  | .check healthy => [.item healthy]
  | .finish => [.finish]
  | _ => []

variable {label : String → String} {s t : State} {a : Action}

inductive Works (label : String → String) (s : State) : Action → State → Prop where
  | list (at_ : s.discovery = .sleeping) (listed : pods.all (Fleet.discovered label).lists) :
    Works label s (.list pods) { s with discovery := .asking (pods.map Pod.unasked) (fun _ => none,fun _ => none) [] [] }
  | listFailed (at_ : s.discovery = .sleeping) : Works label s .listFailed s
  | ask (at_ : s.discovery = .asking (pod :: todo) maps scopes asked) (told : pod' = answered (pod,s.answer pod stats)) :
    Works label s (.ask stats)
      { s with discovery := .asking todo (discoverPod maps pod') (keys scopes pod') (asked ++ [pod']) }
  | store (at_ : s.discovery = .asking [] maps scopes asked) (unread : s.coordinator.handlers.all fun h => !h.pc.reads) :
    Works label s .store { s.withShared { s.shared with routable := maps.1, found := some maps.2 } with
      scopes := scopes, discovery := .publishing }
  | publish (at_ : s.discovery = .publishing) (half : s.shared.found = some presences) :
    Works label s .publish { s.withShared { s.shared with presences := presences, found := none } with
      discovery := .sleeping }
  | begin (at_ : s.monitor = .waiting) (order_ : order.Perm s.scopes) :
    Works label s (.begin order) { s with monitor := .checking (s.snapshot order) [] }
  | check (at_ : s.monitor = .checking (w :: todo) healthySet) :
    Works label s (.check healthy)
      { s with monitor := .checking todo (if healthy then healthySet.insert w.podName else healthySet) }
  | finish (at_ : s.monitor = .checking [] healthySet) :
    Works label s .finish { s.withShared { s.shared with healthy := healthySet } with monitor := .waiting }
  | stop (at_ : s.monitor = .waiting) (cancelled : s.shared.cancelled = true) :
    Works label s .stop { s with monitor := .stopped }
  | other (foreground : background action = false)
      (taken : Coordinator.step (.discovered label) s.coordinator action = some coordinator) :
    Works label s (.other action) { s with coordinator }

theorem step_works (taken : step label s a = some t) : Works label s a t := by
  unfold step at taken
  split at taken
  · split at taken
    · next at_ =>
      obtain ⟨listed,rfl⟩ := by simpa using taken
      exact .list at_ (by simpa using listed)
    · contradiction
  · split at taken
    · next at_ => exact Option.some.inj taken ▸ .listFailed at_
    · contradiction
  · split at taken
    · next at_ => exact Option.some.inj taken ▸ .ask at_ rfl
    · contradiction
  · split at taken
    · next at_ =>
      split at taken
      · next unread => exact Option.some.inj taken ▸ .store at_ unread
      · contradiction
    · contradiction
  · split at taken
    · next at_ half => exact Option.some.inj taken ▸ .publish at_ half
    · contradiction
  · split at taken
    · next at_ =>
      split at taken
      · next order_ => exact Option.some.inj taken ▸ .begin at_ order_
      · contradiction
    · contradiction
  · split at taken
    · next at_ => exact Option.some.inj taken ▸ .check at_
    · contradiction
  · split at taken
    · next at_ => exact Option.some.inj taken ▸ .finish at_
    · contradiction
  · split at taken
    · next at_ =>
      split at taken
      · next cancelled => exact Option.some.inj taken ▸ .stop at_ cancelled
      · contradiction
    · contradiction
  · split at taken
    · contradiction
    · next foreground =>
      obtain ⟨coordinator,stepped,rfl⟩ := Option.map_eq_some_iff.mp taken
      exact .other (by simpa using foreground) stepped

theorem foreground_healthy {fleet : Fleet} {c d : Coordinator.State} {action : Coordinator.Action}
    (foreground : background action = false) (taken : Coordinator.step fleet c action = some d) :
    d.shared.healthy = c.shared.healthy := by
  have request {i : Nat} (act : Shared → Handler → Option (Shared × Handler))
      (moves : ∀ c h r, act c h = some r → Move c h r) (taken : c.take i act = some d) :
      d.shared.healthy = c.shared.healthy := by
    obtain ⟨h,shared,h',_,moved,rfl⟩ := take_cases act taken
    exact (moves _ _ _ moved).frame.healthy
  cases action with
  | advance i event => exact request (fun shared h => next shared h event) (fun _ _ _ => next_move) taken
  | drop i => exact request dropNext (fun _ _ _ => drop_move) taken
  | tick | cancel | arrive | cleanup =>
    obtain rfl := Option.some.inj taken
    rfl
  | discover | publish | monitor => contradiction

theorem foreground_maps {fleet : Fleet} {c d : Coordinator.State} {action : Coordinator.Action}
    (foreground : background action = false) (taken : Coordinator.step fleet c action = some d) :
    d.shared.routable = c.shared.routable ∧ d.shared.presences = c.shared.presences ∧ d.shared.found = c.shared.found := by
  have opened : openStep fleet c action = some d := by
    cases action with
    | discover => contradiction
    | _ => exact taken
  cases openStep_mapped opened with
  | discovered act | published act =>
    subst act
    contradiction
  | kept _ routable presences found => exact ⟨routable,presences,found⟩

theorem keys_cover {maps : Routable × Presences} {scopes : List String} (pod : Pod)
    (cover : ∀ scope, (maps.1 scope).isSome → scope ∈ scopes) (scope : String)
    (listed : ((discoverPod maps pod).1 scope).isSome) : scope ∈ keys scopes pod := by
  unfold keys
  cases label_ : pod.scope with
  | none => exact cover scope (by simpa [discoverPod,label_] using listed)
  | some own =>
    rw [discoverPod_eq _ label_] at listed
    cases endpoint : pod.endpoint own with
    | none => simpa [endpoint] using cover scope (by simpa [endpoint] using listed)
    | some w =>
      simp only [endpoint,Routable.push,Function.update_apply] at listed
      change scope ∈ if (pod.endpoint own).isSome then scopes.insert own else scopes
      rw [endpoint,Option.isSome_some,if_pos rfl,List.mem_insert_iff]
      split at listed
      · next same => exact .inl same
      · exact .inr (cover scope listed)

structure Round (label : String → String) (todo : List Pod) (maps : Routable × Presences) (scopes : List String)
    (asked : List Pod) : Prop where
  built : maps = discoverWorkers asked
  listed : (asked ++ todo).all (Fleet.discovered label).lists
  keys : ∀ scope, (maps.1 scope).isSome → scope ∈ scopes

structure Sound (label : String → String) (s : State) : Prop where
  round : ∀ todo maps scopes asked, s.discovery = .asking todo maps scopes asked → Round label todo maps scopes asked
  whole : s.discovery ≠ .publishing → s.shared.found = none
  covers : ∀ scope, (s.shared.routable scope).isSome → scope ∈ s.scopes

theorem lists_unasked (fleet : Fleet) (pod : Pod) : fleet.lists (Pod.unasked pod) = fleet.lists pod := rfl

theorem lists_answered (fleet : Fleet) (pod : Pod) (answer : Option (WorkerStats × Nat)) :
    fleet.lists (answered (pod,answer)) = fleet.lists pod := rfl

theorem Sound.step (sound : Sound label s) (works : Works label s a t) : Sound label t := by
  obtain ⟨round,whole,covers⟩ := sound
  cases works with
  | list at_ listed =>
    refine ⟨?_,fun _ => whole (by simp [at_]),covers⟩
    rintro _ _ _ _ ⟨⟩
    refine ⟨rfl,?_,fun scope some_ => ?_⟩
    · simpa [lists_unasked,Function.comp_def] using listed
    · simp at some_
  | listFailed => exact ⟨round,whole,covers⟩
  | ask at_ told =>
    obtain ⟨built,listed,keys⟩ := round _ _ _ _ at_
    refine ⟨?_,fun _ => whole (by simp [at_]),covers⟩
    rintro _ _ _ _ ⟨⟩
    refine ⟨?_,?_,keys_cover _ keys⟩
    · rw [discoverWorkers_concat,built]
    · subst told
      simpa [lists_answered,and_assoc] using listed
  | store at_ => exact ⟨nofun,fun other => absurd rfl other,(round _ _ _ _ at_).keys⟩
  | publish => exact ⟨nofun,fun _ => rfl,covers⟩
  | begin | check | finish | stop => exact ⟨round,whole,covers⟩
  | other foreground taken =>
    obtain ⟨routable,_,found⟩ := foreground_maps foreground taken
    refine ⟨round,fun idle => found.trans (whole idle),fun scope some_ => covers scope ?_⟩
    exact routable ▸ some_

theorem sound (run : (machine label).Reachable s) : Sound label s := by
  refine run.invariant ⟨?_,fun _ => rfl,?_⟩ fun _ _ _ _ sound taken => sound.step (step_works taken)
  · rintro _ _ _ _ ⟨⟩
  · exact fun _ some_ => by cases some_

/-- The tasks do what the coordinator's machine does at once. -/
theorem refines (label : String → String) : Machine.Simulation (machine label) (Coordinator.machine (.discovered label))
    performs fun s c => s.coordinator = c := by
  refine ⟨rfl,fun s a t c before related taken => ?_⟩
  subst related
  have sound := sound before
  cases step_works taken with
  | store at_ unread =>
    obtain ⟨built,listed,_⟩ := sound.round _ _ _ _ at_
    have whole : s.shared.found = none := sound.whole (by simp [at_])
    refine ⟨_,?_,rfl⟩
    simp only [performs,at_]
    refine Machine.exec_one ?_
    rw [List.append_nil] at listed
    simp only [Coordinator.machine,Coordinator.step,whole,listed,unread,built]
    rfl
  | publish at_ half =>
    refine ⟨_,Machine.exec_one ?_,rfl⟩
    simp [Coordinator.machine,Coordinator.step,half]
    rfl
  | finish at_ =>
    refine ⟨_,?_,rfl⟩
    simp only [performs,at_]
    exact Machine.exec_one rfl
  | other foreground stepped => exact ⟨_,Machine.exec_one stepped,rfl⟩
  | list | listFailed | ask | begin | check | stop => exact ⟨_,rfl,rfl⟩

/-- Discovery as a task that works in rounds: its maps are built from what the last one stored. -/
structure Asking (s : State) (l : RoundTask.State Pod (Option (WorkerStats × Nat))) : Prop where
  idle : (∀ todo maps scopes asked, s.discovery ≠ .asking todo maps scopes asked) → l.loop = .idle
  working : ∀ todo maps scopes asked, s.discovery = .asking todo maps scopes asked →
    ∃ done, l.loop = .working todo done ∧ asked = done.map answered
  stored : (s.shared.routable,s.shared.found.getD s.shared.presences) = discoverWorkers ((l.stored.getD []).map answered)

theorem asks_simulation (label : String → String) :
    Machine.Simulation (machine label) (RoundTask.machine Pod (Option (WorkerStats × Nat))) asks Asking := by
  refine ⟨⟨fun _ => rfl,?_,rfl⟩,fun s a t l before ⟨idle,working,stored⟩ taken => ?_⟩
  · rintro _ _ _ _ ⟨⟩
  cases step_works taken with
  | list at_ =>
    refine ⟨_,RoundTask.exec_start (idle (by simp [at_])) _,fun other => (other _ _ _ _ rfl).elim,?_,stored⟩
    rintro _ _ _ _ ⟨⟩
    exact ⟨[],rfl,rfl⟩
  | ask at_ told =>
    obtain ⟨done,loop,asked⟩ := working _ _ _ _ at_
    simp only [asks,at_]
    refine ⟨_,RoundTask.exec_item loop _,fun other => (other _ _ _ _ rfl).elim,?_,stored⟩
    rintro _ _ _ _ ⟨⟩
    exact ⟨_,rfl,by simp [asked,told]⟩
  | store at_ =>
    obtain ⟨done,loop,asked⟩ := working _ _ _ _ at_
    have built := ((sound before).round _ _ _ _ at_).built
    refine ⟨_,RoundTask.exec_finish loop,fun _ => rfl,nofun,?_⟩
    simp [State.withShared,built,asked]
  | publish at_ half =>
    refine ⟨l,rfl,fun _ => idle (by simp [at_]),nofun,?_⟩
    simpa [State.withShared,half] using stored
  | @other action c foreground stepped =>
    obtain ⟨routable,presences,found⟩ := foreground_maps foreground stepped
    refine ⟨l,rfl,idle,working,?_⟩
    change (c.shared.routable,c.shared.found.getD c.shared.presences) = _
    rw [routable,presences,found]
    exact stored
  | listFailed | begin | check | finish | stop => exact ⟨l,rfl,idle,working,stored⟩

def Healthy (names : List String) (done : List (WorkerEndpoint × Bool)) : Prop :=
  ∀ name, name ∈ names ↔ ∃ w, (w,true) ∈ done ∧ w.podName = name

theorem Healthy.concat {names : List String} {done : List (WorkerEndpoint × Bool)} (healthy : Healthy names done)
    (w : WorkerEndpoint) (answer : Bool) :
    Healthy (if answer then names.insert w.podName else names) (done ++ [(w,answer)]) := by
  intro name
  cases answer with
  | false => simpa using healthy name
  | true =>
    rw [if_pos rfl,List.mem_insert_iff,healthy name]
    constructor
    · rintro (rfl | ⟨v,listed,rfl⟩)
      · exact ⟨w,by simp,rfl⟩
      · exact ⟨v,List.mem_append_left _ listed,rfl⟩
    · rintro ⟨v,listed,rfl⟩
      rcases List.mem_append.mp listed with old | new
      · exact .inr ⟨v,old,rfl⟩
      · obtain ⟨rfl,_⟩ := Prod.mk.inj (List.mem_singleton.mp new)
        exact .inl rfl

structure Checking (s : State) (l : RoundTask.State WorkerEndpoint Bool) : Prop where
  idle : s.monitor = .waiting → l.loop = .idle
  working : ∀ todo healthySet, s.monitor = .checking todo healthySet →
    ∃ done, l.loop = .working todo done ∧ Healthy healthySet done
  stored : Healthy s.shared.healthy (l.stored.getD [])

theorem checks_simulation (label : String → String) :
    Machine.Simulation (machine label) (RoundTask.machine WorkerEndpoint Bool) checks Checking := by
  refine ⟨⟨fun _ => rfl,?_,?_⟩,fun s a t l before ⟨idle,working,stored⟩ taken => ?_⟩
  · rintro _ _ ⟨⟩
  · exact fun name => ⟨fun none_ => absurd none_ List.not_mem_nil,fun ⟨_,none_,_⟩ => absurd none_ List.not_mem_nil⟩
  cases step_works taken with
  | begin at_ =>
    refine ⟨_,RoundTask.exec_start (idle at_) _,nofun,?_,stored⟩
    rintro _ _ ⟨⟩
    exact ⟨[],rfl,fun name => by simp⟩
  | check at_ =>
    obtain ⟨done,loop,healthy⟩ := working _ _ at_
    refine ⟨_,RoundTask.exec_item loop _,nofun,?_,stored⟩
    rintro _ _ ⟨⟩
    exact ⟨_,rfl,healthy.concat _ _⟩
  | finish at_ =>
    obtain ⟨done,loop,healthy⟩ := working _ _ at_
    exact ⟨_,RoundTask.exec_finish loop,fun _ => rfl,nofun,healthy⟩
  | stop at_ => exact ⟨l,rfl,nofun,nofun,stored⟩
  | other foreground stepped =>
    refine ⟨l,rfl,idle,working,?_⟩
    exact foreground_healthy foreground stepped ▸ stored
  | list | listFailed | ask | store | publish => exact ⟨l,rfl,idle,working,stored⟩

theorem asks_single (s : State) (a : Action) (t : State) : (asks s a t).length ≤ 1 := by
  cases a with
  | ask stats =>
    simp only [asks]
    split <;> simp
  | _ => simp [asks]

theorem checks_single (s : State) (a : Action) (t : State) : (checks s a t).length ≤ 1 := by
  cases a <;> simp [checks]

theorem snapshot_lists (sound : Sound label s) (order_ : order.Perm s.scopes) (w : WorkerEndpoint) :
    w ∈ s.snapshot order ↔ ∃ scope ws, s.shared.routable scope = some ws ∧ w ∈ ws := by
  simp only [State.snapshot,List.mem_flatMap]
  constructor
  · rintro ⟨scope,_,listed⟩
    cases found : s.shared.routable scope with
    | none => simp [found] at listed
    | some ws => exact ⟨scope,ws,found,by simpa [found] using listed⟩
  · rintro ⟨scope,ws,found,listed⟩
    have key : scope ∈ s.scopes := sound.covers scope (by simp [found])
    exact ⟨scope,order_.mem_iff.mpr key,by simpa [found] using listed⟩

theorem list_of_start {items : List Pod} (started : asks s a t = [.start items]) :
    ∃ pods, a = .list pods ∧ items = pods.map Pod.unasked := by
  cases a with
  | list pods =>
    obtain ⟨same,_⟩ := List.cons.inj started
    exact ⟨pods,rfl,(RoundTask.Move.start.inj same).symm⟩
  | ask stats =>
    simp only [asks] at started
    split at started <;> simp at started
  | _ => simp [asks] at started

theorem begin_of_start {items : List WorkerEndpoint} (started : checks s a t = [.start items]) :
    ∃ order, a = .begin order ∧ items = s.snapshot order := by
  cases a with
  | begin order =>
    obtain ⟨same,_⟩ := List.cons.inj started
    exact ⟨order,rfl,(RoundTask.Move.start.inj same).symm⟩
  | _ => simp [checks] at started

structure Told (label : String → String) (actions : List Action) (s : State) : Prop where
  /-- The coordinator did what its own machine does. -/
  refined : (Coordinator.machine (.discovered label)).exec ((machine label).trace performs actions (machine label).initial)
    (Coordinator.machine (.discovered label)).initial = some s.coordinator
  /-- The maps are what the last round of discovery that was stored found, with the requests in
  flight to each pod when it answered. -/
  discovered : ∃ asked, (s.shared.routable,s.shared.found.getD s.shared.presences) = discoverWorkers (asked.map answered) ∧
    ((asked = [] ∧ .finish ∉ (machine label).trace asks actions (machine label).initial) ∨
      ∃ pods s₁, asked.map Prod.fst = pods.map Pod.unasked ∧ LastRun (machine label) asks actions asked (.list pods) s₁)
  /-- Healthy are those that answered so in the last round of checks that is over, of the
  workers that were routable when it began. -/
  monitored : ∃ checked, Healthy s.shared.healthy checked ∧
    ((checked = [] ∧ .finish ∉ (machine label).trace checks actions (machine label).initial) ∨
      ∃ order s₁, (∀ w, w ∈ checked.map Prod.fst ↔ ∃ scope ws, s₁.shared.routable scope = some ws ∧ w ∈ ws) ∧
        LastRun (machine label) checks actions checked (.begin order) s₁)

/-- In every run of the coordinator with its background tasks, whatever its requests do while a
round is on its way. -/
theorem loops_told (label : String → String) (actions : List Action) (s : State)
    (ran : (machine label).exec actions (machine label).initial = some s) : Told label actions s := by
  refine ⟨?_,?_,?_⟩
  · obtain ⟨_,performed,rfl⟩ := (refines label).exec ran
    exact performed
  · obtain ⟨loop,asking,told⟩ := RoundTask.stored_told (asks_simulation label) asks_single ran
    refine ⟨loop.stored.getD [],asking.stored,?_⟩
    rcases told with ⟨none_,never⟩ | ⟨done,a,s₁,stored,last⟩
    · exact .inl ⟨by rw [none_]; rfl,never⟩
    · obtain ⟨_,_,_,started⟩ := last.started
      obtain ⟨pods,rfl,items⟩ := list_of_start started
      rw [stored,Option.getD_some]
      exact .inr ⟨pods,s₁,items,last⟩
  · obtain ⟨loop,checking,told⟩ := RoundTask.stored_told (checks_simulation label) checks_single ran
    refine ⟨loop.stored.getD [],checking.stored,?_⟩
    rcases told with ⟨none_,never⟩ | ⟨done,a,s₁,stored,last⟩
    · exact .inl ⟨by rw [none_]; rfl,never⟩
    · obtain ⟨t,run,taken,started⟩ := last.started
      obtain ⟨order,rfl,items⟩ := begin_of_start started
      rw [stored,Option.getD_some]
      have works : Works label s₁ (.begin order) t := step_works taken
      cases works with
      | begin _ order_ => exact .inr ⟨order,s₁,fun w => items ▸ snapshot_lists (sound run) order_ w,last⟩

def shopRound : List Action :=
  [.list [.ready "a" "shop" 3,.ready "b" "shop" 3],.ask (some { availableSlots := 3 }),.ask none,.store,.publish]

def busyShop : List Action :=
  shopRound ++ [.begin ["shop"],.check true,.finish,.other (.arrive (.page "shop" ""))] ++
    (dispatched 0).map .other ++ shopRound

theorem loops_told_busy : ∃ s ws, (machine fun _ => "shop").exec busyShop (machine fun _ => "shop").initial = some s ∧
    s.shared.healthy = ["a"] ∧ s.shared.routable "shop" = some ws ∧
    ws.map (fun w => (w.podName,w.inFlightAtSnapshot)) = [("a",1)] ∧ Told (fun _ => "shop") busyShop s := by
  obtain ⟨s,ws,ran,healthy,routable,found⟩ : ∃ s ws,
      (machine fun _ => "shop").exec busyShop (machine fun _ => "shop").initial = some s ∧ s.shared.healthy = ["a"] ∧
      s.shared.routable "shop" = some ws ∧ ws.map (fun w => (w.podName,w.inFlightAtSnapshot)) = [("a",1)] :=
    ⟨_,_,rfl,by decide +kernel,rfl,by decide +kernel⟩
  exact ⟨s,ws,ran,healthy,routable,found,loops_told (fun _ => "shop") busyShop s ran⟩

end BrowserHive.Coordinator.Loops
