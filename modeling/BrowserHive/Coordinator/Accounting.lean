import Mathlib.Data.List.Induction
import BrowserHive.Coordinator.Discovery

/-! The accounts of a discovery round: from the pod objects the API lists, every pod with a
scope label is counted once under that scope, whatever the other pods are like. -/
namespace BrowserHive.Coordinator

structure PodStatus where
  phase : Option String
  podIp : Option String
  deriving DecidableEq

structure KubePod where
  name : Option String
  labels : Option (List (String × String))
  deletionTimestamp : Option String
  status : Option PodStatus
  deriving DecidableEq

def isPodRunning (status : Option PodStatus) : Bool :=
  ((status.bind PodStatus.phase).map (· == "Running")).getD false

def KubePod.scopeLabel (pod : KubePod) : Option String := pod.labels.bind (List.lookup "scope")

/-- A pod object with the outcome of `fetch_worker_stats`, should the round contact it. -/
def KubePod.listed (pod : KubePod) (answer : Option (WorkerStats × Nat)) : Pod :=
  ⟨pod.name,pod.scopeLabel,isPodRunning pod.status,pod.deletionTimestamp.isSome,
    pod.status.bind PodStatus.podIp,answer⟩

/-- The one counter of its scope a pod belongs under. -/
inductive PodClass where
  | reachable
  | notRunning
  | terminating
  | unreachable
  deriving DecidableEq

def Pod.classify (pod : Pod) : PodClass :=
  if pod.running ∧ pod.name.isSome ∧ pod.podIp.isSome then
    if pod.answer.isSome then .reachable
    else if pod.terminating then .terminating
    else .unreachable
  else .notRunning

def Pod.endpoint (pod : Pod) (scope : String) : Option WorkerEndpoint :=
  match pod.running,pod.name,pod.podIp,pod.answer with
  | true,some name,some ip,some (stats,baseline) => some ⟨name,ip,workerPort,scope,stats,baseline,pod.terminating⟩
  | _,_,_,_ => none

def ScopePresence.count (p : ScopePresence) : PodClass → ScopePresence
  | .reachable => { p with podsTotal := p.podsTotal + 1, podsReachable := p.podsReachable + 1 }
  | .notRunning => { p with podsTotal := p.podsTotal + 1, podsNotRunning := p.podsNotRunning + 1 }
  | .terminating => { p with podsTotal := p.podsTotal + 1, podsTerminating := p.podsTerminating + 1 }
  | .unreachable => { p with podsTotal := p.podsTotal + 1, podsUnreachable := p.podsUnreachable + 1 }

def tally (pods : List Pod) : ScopePresence where
  podsTotal := pods.length
  podsReachable := pods.countP (fun pod => pod.classify = .reachable)
  podsNotRunning := pods.countP (fun pod => pod.classify = .notRunning)
  podsTerminating := pods.countP (fun pod => pod.classify = .terminating)
  podsUnreachable := pods.countP (fun pod => pod.classify = .unreachable)

def carrying (scope : String) (pods : List Pod) : List Pod := pods.filter (fun pod => pod.scope = some scope)

variable {pods : List Pod} {pod : Pod} {scope : String}

/-- One pod's turn: its own scope alone is counted, and gets its endpoint if it has one. -/
theorem discoverPod_eq (maps : Routable × Presences) (label : pod.scope = some scope) :
    discoverPod maps pod =
      ((match pod.endpoint scope with
        | some w => maps.1.push scope w
        | none => maps.1),
        Function.update maps.2 scope (some (((maps.2 scope).getD {}).count pod.classify))) := by
  unfold discoverPod Pod.endpoint Pod.classify
  rw [label]
  cases running : pod.running with
  | false => simp [ScopePresence.count]
  | true =>
    cases pod.name with
    | none => simp [ScopePresence.count]
    | some name =>
      cases pod.podIp with
      | none => simp [ScopePresence.count]
      | some ip =>
        cases pod.answer with
        | some answer => simp [ScopePresence.count]
        | none => cases pod.terminating <;> simp [ScopePresence.count]

theorem endpoint_isSome (pod : Pod) (scope : String) :
    (pod.endpoint scope).isSome = decide (pod.classify = .reachable) := by
  unfold Pod.endpoint Pod.classify
  cases pod.running <;> cases pod.name <;> cases pod.podIp <;> cases pod.answer <;>
    cases pod.terminating <;> simp

theorem tally_concat (pods : List Pod) (pod : Pod) : tally (pods ++ [pod]) = (tally pods).count pod.classify := by
  cases which : pod.classify <;> simp [tally,ScopePresence.count,which]

theorem carrying_concat (pods : List Pod) (pod : Pod) (scope : String) :
    carrying scope (pods ++ [pod]) = if pod.scope = some scope then carrying scope pods ++ [pod] else carrying scope pods := by
  unfold carrying
  rw [List.filter_append]
  split <;> simp_all

theorem discoverWorkers_concat (pods : List Pod) (pod : Pod) :
    discoverWorkers (pods ++ [pod]) = discoverPod (discoverWorkers pods) pod := by
  rw [discoverWorkers,List.foldl_append]
  rfl

/-- What the round knows of a scope is the tally of the pods carrying its label. -/
theorem discoverWorkers_presence (pods : List Pod) (scope : String) :
    (discoverWorkers pods).2 scope =
      if carrying scope pods = [] then none else some (tally (carrying scope pods)) := by
  induction pods using List.reverseRecOn with
  | nil => rfl
  | append_singleton pods pod ih =>
    rw [discoverWorkers_concat,carrying_concat]
    cases label : pod.scope with
    | none => simpa [discoverPod,label] using ih
    | some own =>
      rw [discoverPod_eq _ label]
      by_cases same : own = scope
      · subst same
        have before : ((discoverWorkers pods).2 own).getD {} = tally (carrying own pods) := by
          rw [ih]
          split
          · next none_ => rw [none_]; rfl
          · rfl
        simp [before,tally_concat]
      · simpa [same,Function.update_of_ne (Ne.symm same)] using ih

/-- A scope is routed to the endpoints of its reachable pods, in the order of the list. -/
theorem discoverWorkers_endpoints (pods : List Pod) (scope : String) :
    (discoverWorkers pods).1 scope =
      if (carrying scope pods).filterMap (·.endpoint scope) = [] then none
      else some ((carrying scope pods).filterMap (·.endpoint scope)) := by
  induction pods using List.reverseRecOn with
  | nil => rfl
  | append_singleton pods pod ih =>
    rw [discoverWorkers_concat,carrying_concat]
    cases label : pod.scope with
    | none => simpa [discoverPod,label] using ih
    | some own =>
      rw [discoverPod_eq _ label]
      by_cases same : own = scope
      · subst same
        cases endpoint : pod.endpoint own with
        | none => simpa [endpoint] using ih
        | some w =>
          have before : ((discoverWorkers pods).1 own).getD [] = (carrying own pods).filterMap (·.endpoint own) := by
            rw [ih]
            split
            · next none_ => rw [none_]; rfl
            · rfl
          simp [Routable.push,before,endpoint]
      · cases endpoint : pod.endpoint own with
        | none => simpa [same] using ih
        | some w => simpa [same,Routable.push,Function.update_of_ne (Ne.symm same)] using ih

/-- The routable workers are the endpoints of the pods. -/
theorem discoverWorkers_all_iff {P : String → WorkerEndpoint → Prop} : (discoverWorkers pods).1.All P ↔
    ∀ pod ∈ pods, ∀ scope w, pod.scope = some scope → pod.endpoint scope = some w → P scope w := by
  have listed (scope : String) (w : WorkerEndpoint) : w ∈ (carrying scope pods).filterMap (·.endpoint scope) ↔
      ∃ pod ∈ pods, pod.scope = some scope ∧ pod.endpoint scope = some w := by
    simp [carrying,and_assoc]
  constructor
  · intro all pod member scope w label endpoint
    have mem := (listed scope w).mpr ⟨pod,member,label,endpoint⟩
    have found := discoverWorkers_endpoints pods scope
    rw [if_neg (List.ne_nil_of_mem mem)] at found
    exact all scope _ found w mem
  · intro each scope ws found w mem
    rw [discoverWorkers_endpoints] at found
    split at found
    · contradiction
    · obtain rfl := Option.some.inj found
      obtain ⟨pod,member,label,endpoint⟩ := (listed scope w).mp mem
      exact each pod member scope w label endpoint

theorem tally_partition (pods : List Pod) :
    (tally pods).podsReachable + (tally pods).podsNotRunning + (tally pods).podsTerminating +
      (tally pods).podsUnreachable = (tally pods).podsTotal := by
  induction pods using List.reverseRecOn with
  | nil => rfl
  | append_singleton pods pod ih =>
    rw [tally_concat]
    cases pod.classify <;> simp only [ScopePresence.count] <;> omega

def ScopePresence.add (p q : ScopePresence) : ScopePresence :=
  ⟨p.podsTotal + q.podsTotal,p.podsReachable + q.podsReachable,p.podsNotRunning + q.podsNotRunning,
    p.podsTerminating + q.podsTerminating,p.podsUnreachable + q.podsUnreachable⟩

theorem tally_append (front back : List Pod) : tally (front ++ back) = (tally front).add (tally back) := by
  simp [tally,ScopePresence.add]

def presenceOf (pods : List Pod) (scope : String) : ScopePresence := ((discoverWorkers pods).2 scope).getD {}

def endpointsOf (pods : List Pod) (scope : String) : List WorkerEndpoint := ((discoverWorkers pods).1 scope).getD []

theorem presenceOf_eq (pods : List Pod) (scope : String) : presenceOf pods scope = tally (carrying scope pods) := by
  rw [presenceOf,discoverWorkers_presence]
  split
  · next none_ => rw [none_]; rfl
  · rfl

theorem endpointsOf_eq (pods : List Pod) (scope : String) :
    endpointsOf pods scope = (carrying scope pods).filterMap (·.endpoint scope) := by
  rw [endpointsOf,discoverWorkers_endpoints]
  split
  · next none_ => rw [none_]; rfl
  · rfl

theorem endpointsOf_length (pods : List Pod) (scope : String) :
    (endpointsOf pods scope).length = (presenceOf pods scope).podsReachable := by
  rw [endpointsOf_eq,presenceOf_eq,List.length_filterMap_eq_countP]
  exact List.countP_congr fun pod _ => by rw [endpoint_isSome]

/-- A pod requests cannot be sent to: unlabelled, not running, or not answering. -/
def Pod.Unusable (pod : Pod) : Prop := pod.scope = none ∨ pod.classify ≠ .reachable

theorem endpoint_of_unusable (unusable : pod.Unusable) (label : pod.scope = some scope) : pod.endpoint scope = none := by
  rcases unusable with unlabelled | silent
  · rw [unlabelled] at label
    contradiction
  · have present := endpoint_isSome pod scope
    simpa [silent] using present

theorem endpoint_of_usable (usable : ¬pod.Unusable) :
    ∃ scope w, pod.scope = some scope ∧ pod.endpoint scope = some w := by
  simp only [Pod.Unusable,not_or,ne_eq,not_not] at usable
  obtain ⟨scope,label⟩ := Option.ne_none_iff_exists'.mp usable.1
  have present := endpoint_isSome pod scope
  rw [usable.2,decide_eq_true rfl] at present
  obtain ⟨w,endpoint⟩ := Option.isSome_iff_exists.mp present
  exact ⟨scope,w,label,endpoint⟩

theorem endpoint_eq_some (endpoint : pod.endpoint scope = some w) :
    pod.name = some w.podName ∧ pod.answer = some (w.stats,w.inFlightAtSnapshot) := by
  unfold Pod.endpoint at endpoint
  split at endpoint
  · next named _ answered =>
    obtain rfl := Option.some.inj endpoint
    exact ⟨named,answered⟩
  · contradiction

/-- An unusable pod adds itself to one counter and leaves everything else as it was. -/
theorem unusable_alone (front back : List Pod) (unusable : pod.Unusable) (scope : String) :
    endpointsOf (front ++ pod :: back) scope = endpointsOf (front ++ back) scope ∧
    presenceOf (front ++ pod :: back) scope = (presenceOf (front ++ back) scope).add (presenceOf [pod] scope) := by
  constructor
  · simp only [endpointsOf_eq,carrying,List.filter_append,List.filterMap_append,List.filter_cons]
    split
    · next label => simp [endpoint_of_unusable unusable (of_decide_eq_true label)]
    · rfl
  · simp only [presenceOf_eq,carrying,List.filter_append,List.filter_cons,tally_append]
    split
    · rw [← List.singleton_append,tally_append]
      simp only [ScopePresence.add,List.filter_nil]
      congr 1 <;> omega
    · rfl

structure RoundAccounts (listed : List (KubePod × Option (WorkerStats × Nat))) (scope : String) : Prop where
  partition : let p := presenceOf (listed.map fun l => l.1.listed l.2) scope
    p.podsReachable + p.podsNotRunning + p.podsTerminating + p.podsUnreachable = p.podsTotal
  total : (presenceOf (listed.map fun l => l.1.listed l.2) scope).podsTotal =
    listed.countP (fun l => l.1.scopeLabel = some scope)
  reachable : (presenceOf (listed.map fun l => l.1.listed l.2) scope).podsReachable =
    (endpointsOf (listed.map fun l => l.1.listed l.2) scope).length
  known : ((discoverWorkers (listed.map fun l => l.1.listed l.2)).2 scope).isSome ↔
    ∃ l ∈ listed, l.1.scopeLabel = some scope
  routable : ((discoverWorkers (listed.map fun l => l.1.listed l.2)).1 scope).isSome ↔
    0 < (presenceOf (listed.map fun l => l.1.listed l.2) scope).podsReachable
  unusable : ∀ front pod back, listed.map (fun l => l.1.listed l.2) = front ++ pod :: back → pod.Unusable →
    endpointsOf (front ++ pod :: back) scope = endpointsOf (front ++ back) scope ∧
    presenceOf (front ++ pod :: back) scope = (presenceOf (front ++ back) scope).add (presenceOf [pod] scope)

/-- Whatever the API lists and whoever answers, the accounts of every scope are right. -/
theorem discovery_accounts (listed : List (KubePod × Option (WorkerStats × Nat))) (scope : String) :
    RoundAccounts listed scope := by
  have carriers : (carrying scope (listed.map fun l => l.1.listed l.2)).length =
      listed.countP (fun l => l.1.scopeLabel = some scope) := by
    rw [carrying,← List.countP_eq_length_filter,List.countP_map]
    rfl
  refine ⟨?_,?_,?_,?_,?_,?_⟩
  · simpa only [presenceOf_eq] using tally_partition _
  · rw [presenceOf_eq]
    exact carriers
  · exact (endpointsOf_length _ _).symm
  · rw [discoverWorkers_presence]
    split
    · next none_ =>
      rw [none_] at carriers
      simp only [Option.isSome_none,Bool.false_eq_true,false_iff]
      simpa [List.countP_eq_zero] using carriers.symm
    · next some_ =>
      have positive := List.length_pos_iff.mpr some_
      rw [carriers,List.countP_pos_iff] at positive
      simpa using positive
  · rw [← endpointsOf_length,endpointsOf_eq,discoverWorkers_endpoints,List.length_pos_iff]
    split
    · next none_ => simp [none_]
    · next some_ => simp [some_]
  · intro front pod back _ unusable
    exact unusable_alone front back unusable scope

end BrowserHive.Coordinator
