import BrowserHive.Lib.Tasks
import BrowserHive.Lib.Keyed
import BrowserHive.Lib.Transition
import BrowserHive.Worker.ProcFs

/-! The browser gauges of `/metrics`: scrapes that collect the processes and the targets of the
browser within a budget and write what they got, and the probe that asks the browser for its
targets. A browser may be replaced at any time, and any of its answers may never come. -/
namespace BrowserHive.Worker.Exposition

open Transition Tasks
open ProcFs (ProcessType ProcessGroup Groups)

inductive TargetType where
  | page
  | iframe
  | worker
  | sharedWorker
  | serviceWorker
  | browserUi
  | other
  deriving DecidableEq, Repr

def TargetType.asStr : TargetType → String
  | .page => "page"
  | .iframe => "iframe"
  | .worker => "worker"
  | .sharedWorker => "shared_worker"
  | .serviceWorker => "service_worker"
  | .browserUi => "browser_ui"
  | .other => "other"

def targetTypes : List TargetType := [.page,.iframe,.worker,.sharedWorker,.serviceWorker,.browserUi,.other]

def processTypes : List ProcessType := [.browser,.renderer,.extension,.gpu,.zygote,.network,.storage,.utility,.other]

def classifyTarget (targetType : String) : TargetType := (targetTypes.find? (·.asStr = targetType)).getD .other

def countTargetTypes (types : List String) : AList (fun _ : TargetType => Nat) :=
  types.foldl (fun counts type =>
    counts.insert (classifyTarget type) ((counts.lookup (classifyTarget type)).getD 0 + 1)) ∅

structure WorkerProcess where
  residentBytes : Nat
  threads : Nat
  deriving DecidableEq, Repr

structure ProcessSnapshot where
  browser : Option Groups
  worker : Option WorkerProcess

/-- `answered` is a ghost: the browser that was asked, and the types of its targets. -/
structure TargetSnapshot where
  targets : AList (fun _ : TargetType => Nat)
  contexts : Nat
  answered : Nat × List String

/-- A gauge with its labels; the scope is the same for all. -/
inductive Series where
  | browserProcesses (type : ProcessType)
  | browserProcessPssBytes (type : ProcessType)
  | browserProcessMaxPssBytes (type : ProcessType)
  | browserTargets (type : TargetType)
  | browserContexts
  | processResidentMemoryBytes
  | processThreads
  deriving DecidableEq

inductive Gauge where
  | browserProcesses
  | browserProcessPssBytes
  | browserProcessMaxPssBytes
  | browserTargets
  | browserContexts
  | processResidentMemoryBytes
  | processThreads
  deriving DecidableEq

def Series.gauge : Series → Gauge
  | .browserProcesses _ => .browserProcesses
  | .browserProcessPssBytes _ => .browserProcessPssBytes
  | .browserProcessMaxPssBytes _ => .browserProcessMaxPssBytes
  | .browserTargets _ => .browserTargets
  | .browserContexts => .browserContexts
  | .processResidentMemoryBytes => .processResidentMemoryBytes
  | .processThreads => .processThreads

abbrev Registry := Series → Option Int

/-- `as i64` of a `u64`. -/
def asI64 (value : Nat) : Int := Int.bmod value (2^64)

inductive Op where
  | set (series : Series) (value : Nat)
  | reset (gauge : Gauge)
  deriving DecidableEq

def Op.leaves : Op → Series → Option (Option Int)
  | .set series value, k => if k = series then some (some (asI64 value)) else none
  | .reset gauge, k => if k.gauge = gauge then some none else none

def apply (registry : Registry) (op : Op) : Registry := fun k => (op.leaves k).getD (registry k)

def processOps : Option Groups → List Op
  | some groups =>
    processTypes.flatMap fun type =>
      let group := (groups.lookup type).getD .default
      [.set (.browserProcesses type) group.count,.set (.browserProcessPssBytes type) group.pssBytes,
        .set (.browserProcessMaxPssBytes type) group.maxPssBytes]
  | none => [.reset .browserProcesses,.reset .browserProcessPssBytes,.reset .browserProcessMaxPssBytes]

def targetOps : Option TargetSnapshot → List Op
  | some snapshot =>
    (targetTypes.map fun type => .set (.browserTargets type) ((snapshot.targets.lookup type).getD 0)) ++
      [.set .browserContexts snapshot.contexts]
  | none => [.reset .browserTargets,.reset .browserContexts]

def workerOps : Option WorkerProcess → List Op
  | some worker => [.set .processResidentMemoryBytes worker.residentBytes,.set .processThreads worker.threads]
  | none => [.reset .processResidentMemoryBytes,.reset .processThreads]

def ops (processes : Option ProcessSnapshot) (targets : Option TargetSnapshot) : List Op :=
  processOps (processes.bind ProcessSnapshot.browser) ++ targetOps targets ++
    workerOps (processes.bind ProcessSnapshot.worker)

/-- `BrowserTargetProbe::snapshot`, on a thread of its own. The lock is held from `connecting`
to `counting`. -/
inductive Probe where
  | idle
  | trying (wsUrl : Nat)
  | connecting (wsUrl : Nat)
  | listing (wsUrl : Nat)
  | counting (wsUrl : Nat) (answered : Nat × List String)
  | ended (result : Option TargetSnapshot)

def Probe.holds : Probe → Bool
  | .connecting _ | .listing _ | .counting .. => true
  | _ => false

/-- A scrape that has looked is `collecting`: what it got of either collector, `some none` when
that failed or took too long. -/
inductive Stage where
  | arrived
  | collecting (processes : Option (Option ProcessSnapshot)) (targets : Option (Option TargetSnapshot))
  | writing (processes : Option ProcessSnapshot) (targets : Option TargetSnapshot) (todo : List Op)
  | over_ (processes : Option ProcessSnapshot) (targets : Option TargetSnapshot) (exposed : Registry)

def Stage.isOver : Stage → Bool
  | .over_ .. => true
  | _ => false

structure Scrape where
  wsUrl : Option Nat
  stage : Stage
  probe : Probe

structure State where
  /-- The endpoint of the pool's browser; another browser has another one. -/
  browser : Nat
  registry : Registry
  /-- The probe's client, by the endpoint it is connected to. -/
  client : Option Nat
  scrapes : List Scrape

inductive ProbeStep where
  | lock
  | connect (connected : Bool)
  | list (types : Option (List String))
  | count (contexts : Option Nat)

inductive Action where
  | replace
  | arrive
  | look (i : Nat)
  | processes (i : Nat) (result : Option ProcessSnapshot)
  | probe (i : Nat) (step : ProbeStep)
  | targets (i : Nat)
  /-- The budget is over. -/
  | expire (i : Nat)
  | join (i : Nat)
  | write (i : Nat)
  | gather (i : Nat)

def Action.arrives : Action → Bool
  | .arrive => true
  | _ => false

def probeNext (locked : Bool) (client : Option Nat) : Probe → ProbeStep → Option (Probe × Option Nat)
  | .trying wsUrl,.lock =>
    if locked then some (.ended none,client)
    else if client = some wsUrl then some (.listing wsUrl,client)
    else some (.connecting wsUrl,none)
  | .connecting wsUrl,.connect connected =>
    if connected then some (.listing wsUrl,some wsUrl) else some (.ended none,none)
  | .listing wsUrl,.list types =>
    match client,types with
    | some asked,some types => some (.counting wsUrl (asked,types),client)
    | _,_ => some (.ended none,client)
  | .counting _ answered,.count contexts =>
    some (.ended (contexts.map fun contexts => ⟨countTargetTypes answered.2,contexts,answered⟩),client)
  | _,_ => none

def stageNext (scrape : Scrape) : Action → Option Stage
  | .processes _ result =>
    match scrape.stage with
    | .collecting none targets => some (.collecting (some result) targets)
    | _ => none
  | .targets _ =>
    match scrape.stage,scrape.probe with
    | .collecting processes none,.ended result => some (.collecting processes (some result))
    | _,_ => none
  | .expire _ =>
    match scrape.stage with
    | .collecting processes none => some (.collecting processes (some none))
    | _ => none
  | .join _ =>
    match scrape.stage with
    | .collecting (some processes) (some targets) => some (.writing processes targets (ops processes targets))
    | _ => none
  | _ => none

namespace State

variable (s : State)

def locked : Bool := s.scrapes.any fun scrape => scrape.probe.holds

def setStage (i : Nat) (scrape : Scrape) (stage : Stage) : State :=
  { s with scrapes := s.scrapes.set i { scrape with stage } }

end State

def step (s : State) (a : Action) : Option State :=
  match a with
  | .replace => some { s with browser := s.browser + 1 }
  | .arrive => some { s with scrapes := s.scrapes ++ [⟨none,.arrived,.idle⟩] }
  | .look i =>
    match s.scrapes[i]? with
    | some ⟨_,.arrived,_⟩ =>
      some { s with scrapes := s.scrapes.set i ⟨some s.browser,.collecting none none,.trying s.browser⟩ }
    | _ => none
  | .probe i step =>
    s.scrapes[i]?.bind fun scrape => (probeNext s.locked s.client scrape.probe step).map fun next =>
      { s with client := next.2, scrapes := s.scrapes.set i { scrape with probe := next.1 } }
  | .processes i _ | .targets i | .expire i | .join i =>
    s.scrapes[i]?.bind fun scrape => (stageNext scrape a).map fun stage => s.setStage i scrape stage
  | .write i =>
    s.scrapes[i]?.bind fun scrape =>
      match scrape.stage with
      | .writing processes targets (op :: todo) =>
        some { s.setStage i scrape (.writing processes targets todo) with registry := apply s.registry op }
      | _ => none
  | .gather i =>
    s.scrapes[i]?.bind fun scrape =>
      match scrape.stage with
      | .writing processes targets [] => some (s.setStage i scrape (.over_ processes targets s.registry))
      | _ => none

def machine : Machine State Action := ⟨⟨0,fun _ => none,none,[]⟩,step⟩

/-- What a scrape that got this exposes: every series of a source that was read, none of the others. -/
def readings (processes : Option ProcessSnapshot) (targets : Option TargetSnapshot) : Registry
  | .browserProcesses type => (group type).map fun group => asI64 group.count
  | .browserProcessPssBytes type => (group type).map fun group => asI64 group.pssBytes
  | .browserProcessMaxPssBytes type => (group type).map fun group => asI64 group.maxPssBytes
  | .browserTargets type => targets.map fun snapshot => asI64 (snapshot.answered.2.countP (classifyTarget · = type))
  | .browserContexts => targets.map fun snapshot => asI64 snapshot.contexts
  | .processResidentMemoryBytes => (processes.bind ProcessSnapshot.worker).map fun worker => asI64 worker.residentBytes
  | .processThreads => (processes.bind ProcessSnapshot.worker).map fun worker => asI64 worker.threads
where
  group (type : ProcessType) : Option ProcessGroup :=
    (processes.bind ProcessSnapshot.browser).map fun groups => (groups.lookup type).getD .default

section Registry

variable {registry : Registry} {k : Series} {x y : Option Int} {op : Op} {done : List Op}
  {processes : Option ProcessSnapshot} {targets : Option TargetSnapshot}

theorem mem_processTypes (type : ProcessType) : type ∈ processTypes := by
  cases type <;> decide

theorem mem_targetTypes (type : TargetType) : type ∈ targetTypes := by
  cases type <;> decide

theorem lookup_countTargetTypes (types : List String) (type : TargetType) :
    ((countTargetTypes types).lookup type).getD 0 = types.countP (classifyTarget · = type) := by
  have gathered : countTargetTypes types = Keyed.gather classifyTarget (fun n _ => n + 1) 0 types := rfl
  have counted : ∀ (entries : List String) (n : Nat), entries.foldl (fun n _ => n + 1) n = n + entries.length := by
    intro entries
    induction entries with
    | nil => simp
    | cons e rest ih => intro n; rw [List.foldl_cons,ih,List.length_cons]; omega
  rw [gathered,Keyed.lookup_gather,List.countP_eq_length_filter]
  split
  · rename_i empty
    rw [List.isEmpty_iff.mp empty]
    rfl
  · rw [Option.getD_some,counted,Nat.zero_add]

/-- Writes that leave nothing else in a series leave it so, when it is so or one of them touches it. -/
theorem foldl_apply (same : ∀ op ∈ done, ∀ y, op.leaves k = some y → y = x)
    (left : registry k = x ∨ ∃ op ∈ done, op.leaves k ≠ none) : done.foldl apply registry k = x := by
  induction done generalizing registry with
  | nil => simpa using left
  | cons op rest ih =>
    refine ih (fun op later => same op (List.mem_cons_of_mem _ later)) ?_
    cases touched : op.leaves k with
    | some y => exact .inl (by simp [apply,touched,same op List.mem_cons_self y touched])
    | none =>
      rcases left with before | ⟨op',listed,touches⟩
      · exact .inl (by simp [apply,touched,before])
      · rcases List.mem_cons.mp listed with rfl | later
        · exact absurd touched touches
        · exact .inr ⟨op',later,touches⟩

theorem set_leaves {series : Series} {value : Nat} (left : (Op.set series value).leaves k = some y) :
    k = series ∧ y = some (asI64 value) := by
  by_cases own : k = series
  · exact ⟨own,by simpa [Op.leaves,own] using left.symm⟩
  · simp [Op.leaves,own] at left

theorem reset_leaves {gauge : Gauge} (left : (Op.reset gauge).leaves k = some y) : k.gauge = gauge ∧ y = none := by
  by_cases own : k.gauge = gauge
  · exact ⟨own,by simpa [Op.leaves,own] using left.symm⟩
  · simp [Op.leaves,own] at left

theorem processOps_leaves (listed : op ∈ processOps (processes.bind ProcessSnapshot.browser))
    (left : op.leaves k = some y) : y = readings processes targets k := by
  cases read : processes.bind ProcessSnapshot.browser with
  | none =>
    simp only [read,processOps,List.mem_cons,List.not_mem_nil,or_false] at listed
    rcases listed with rfl | rfl | rfl <;> obtain ⟨own,rfl⟩ := reset_leaves left <;>
      cases k <;> simp [Series.gauge] at own <;> simp [readings,readings.group,read]
  | some groups =>
    simp only [read,processOps,List.mem_flatMap,List.mem_cons,List.not_mem_nil,or_false] at listed
    obtain ⟨type,_,rfl | rfl | rfl⟩ := listed <;> obtain ⟨rfl,rfl⟩ := set_leaves left <;>
      simp [readings,readings.group,read]

theorem targetOps_leaves (counted : ∀ snapshot ∈ targets, snapshot.targets = countTargetTypes snapshot.answered.2)
    (listed : op ∈ targetOps targets) (left : op.leaves k = some y) : y = readings processes targets k := by
  cases targets with
  | none =>
    simp only [targetOps,List.mem_cons,List.not_mem_nil,or_false] at listed
    rcases listed with rfl | rfl <;> obtain ⟨own,rfl⟩ := reset_leaves left <;>
      cases k <;> simp [Series.gauge] at own <;> simp [readings]
  | some snapshot =>
    simp only [targetOps,List.mem_append,List.mem_map,List.mem_singleton] at listed
    obtain ⟨type,_,rfl⟩ | rfl := listed <;> obtain ⟨rfl,rfl⟩ := set_leaves left
    · simp [readings,counted snapshot rfl,lookup_countTargetTypes]
    · simp [readings]

theorem workerOps_leaves (listed : op ∈ workerOps (processes.bind ProcessSnapshot.worker))
    (left : op.leaves k = some y) : y = readings processes targets k := by
  cases read : processes.bind ProcessSnapshot.worker with
  | none =>
    simp only [read,workerOps,List.mem_cons,List.not_mem_nil,or_false] at listed
    rcases listed with rfl | rfl <;> obtain ⟨own,rfl⟩ := reset_leaves left <;>
      cases k <;> simp [Series.gauge] at own <;> simp [readings,read]
  | some worker =>
    simp only [read,workerOps,List.mem_cons,List.not_mem_nil,or_false] at listed
    rcases listed with rfl | rfl <;> obtain ⟨rfl,rfl⟩ := set_leaves left <;> simp [readings,read]

/-- Every series is written or reset by every scrape. -/
theorem ops_touch (processes : Option ProcessSnapshot) (targets : Option TargetSnapshot) (k : Series) :
    ∃ op ∈ ops processes targets, op.leaves k ≠ none := by
  have reset : ∀ (part : List Op) (gauge : Gauge), k.gauge = gauge → Op.reset gauge ∈ part →
      ∃ op ∈ part, op.leaves k ≠ none := fun part gauge own listed => ⟨_,listed,by simp [Op.leaves,own]⟩
  have set : ∀ (part : List Op) (value : Nat), Op.set k value ∈ part → ∃ op ∈ part, op.leaves k ≠ none :=
    fun part value listed => ⟨_,listed,by simp [Op.leaves]⟩
  suffices part : (∃ op ∈ processOps (processes.bind ProcessSnapshot.browser), op.leaves k ≠ none) ∨
      (∃ op ∈ targetOps targets, op.leaves k ≠ none) ∨
      ∃ op ∈ workerOps (processes.bind ProcessSnapshot.worker), op.leaves k ≠ none by
    rcases part with ⟨op,listed,touches⟩ | ⟨op,listed,touches⟩ | ⟨op,listed,touches⟩ <;>
      exact ⟨op,by simp [ops,listed],touches⟩
  cases k with
  | browserProcesses type | browserProcessPssBytes type | browserProcessMaxPssBytes type =>
    left
    cases processes.bind ProcessSnapshot.browser with
    | none => exact reset _ _ rfl (by simp [processOps,Series.gauge])
    | some groups => exact set _ _ (List.mem_flatMap.mpr ⟨type,mem_processTypes type,by simp; rfl⟩)
  | browserTargets type =>
    right; left
    cases targets with
    | none => exact reset _ _ rfl (by simp [targetOps,Series.gauge])
    | some snapshot =>
      exact set _ _ (List.mem_append_left _ (List.mem_map.mpr ⟨type,mem_targetTypes type,rfl⟩))
  | browserContexts =>
    right; left
    cases targets with
    | none => exact reset _ _ rfl (by simp [targetOps,Series.gauge])
    | some snapshot => exact set _ _ (List.mem_append_right _ List.mem_cons_self)
  | processResidentMemoryBytes | processThreads =>
    right; right
    cases processes.bind ProcessSnapshot.worker with
    | none => exact reset _ _ rfl (by simp [workerOps,Series.gauge])
    | some worker => exact set _ _ (by simp [workerOps]; rfl)

theorem foldl_ops (counted : ∀ snapshot ∈ targets, snapshot.targets = countTargetTypes snapshot.answered.2)
    (registry : Registry) : (ops processes targets).foldl apply registry = readings processes targets := by
  funext k
  refine foldl_apply (fun op listed y left => ?_) (.inr (ops_touch processes targets k))
  rcases List.mem_append.mp listed with listed | listed
  · rcases List.mem_append.mp listed with listed | listed
    · exact processOps_leaves listed left
    · exact targetOps_leaves counted listed left
  · exact workerOps_leaves listed left

end Registry

/-- A scrape's own step, and what it does to the state. -/
inductive Moves (i : Nat) (s : State) (scrape : Scrape) : Scrape → State → Prop where
  | look (arrived : scrape.stage = .arrived) :
    Moves i s scrape ⟨some s.browser,.collecting none none,.trying s.browser⟩
      { s with scrapes := s.scrapes.set i ⟨some s.browser,.collecting none none,.trying s.browser⟩ }
  | probe (does : ProbeStep) (moved : probeNext s.locked s.client scrape.probe does = some (probe,client)) :
    Moves i s scrape { scrape with probe } { s with client, scrapes := s.scrapes.set i { scrape with probe } }
  | stage (a : Action) (moved : stageNext scrape a = some stage) :
    Moves i s scrape { scrape with stage } (s.setStage i scrape stage)
  | write (writing : scrape.stage = .writing processes targets (op :: todo)) :
    Moves i s scrape { scrape with stage := .writing processes targets todo }
      { s.setStage i scrape (.writing processes targets todo) with registry := apply s.registry op }
  | gather (written : scrape.stage = .writing processes targets []) :
    Moves i s scrape { scrape with stage := .over_ processes targets s.registry }
      (s.setStage i scrape (.over_ processes targets s.registry))

section Steps

variable {s t : State} {a : Action} {i : Nat} {scrape scrape' : Scrape}

theorem step_cases (taken : step s a = some t) :
    (a = .replace ∧ t = { s with browser := s.browser + 1 }) ∨
    (a = .arrive ∧ t = { s with scrapes := s.scrapes ++ [⟨none,.arrived,.idle⟩] }) ∨
    ∃ i scrape scrape', s.scrapes[i]? = some scrape ∧ Moves i s scrape scrape' t := by
  cases a with
  | replace => exact .inl ⟨rfl,(Option.some.inj taken).symm⟩
  | arrive => exact .inr (.inl ⟨rfl,(Option.some.inj taken).symm⟩)
  | look i =>
    simp only [step] at taken
    split at taken
    · rename_i wsUrl probe at_
      obtain rfl := Option.some.inj taken
      exact .inr (.inr ⟨i,_,_,at_,.look rfl⟩)
    · simp at taken
  | probe i step =>
    obtain ⟨scrape,at_,taken⟩ := Option.bind_eq_some_iff.mp taken
    obtain ⟨⟨probe,client⟩,moved,rfl⟩ := Option.map_eq_some_iff.mp taken
    exact .inr (.inr ⟨i,scrape,_,at_,.probe step moved⟩)
  | processes i | targets i | expire i | join i =>
    obtain ⟨scrape,at_,taken⟩ := Option.bind_eq_some_iff.mp taken
    obtain ⟨stage,moved,rfl⟩ := Option.map_eq_some_iff.mp taken
    exact .inr (.inr ⟨i,scrape,_,at_,.stage _ moved⟩)
  | write i =>
    obtain ⟨scrape,at_,taken⟩ := Option.bind_eq_some_iff.mp taken
    split at taken
    · rename_i processes targets op todo writing
      obtain rfl := Option.some.inj taken
      exact .inr (.inr ⟨i,scrape,_,at_,.write writing⟩)
    · simp at taken
  | gather i =>
    obtain ⟨scrape,at_,taken⟩ := Option.bind_eq_some_iff.mp taken
    split at taken
    · rename_i processes targets written
      obtain rfl := Option.some.inj taken
      exact .inr (.inr ⟨i,scrape,_,at_,.gather written⟩)
    · simp at taken

theorem stageNext_cases {stage : Stage} (moved : stageNext scrape a = some stage) :
    (∃ result targets, scrape.stage = .collecting none targets ∧ stage = .collecting (some result) targets) ∨
    (∃ processes result, scrape.stage = .collecting processes none ∧ stage = .collecting processes (some result) ∧
      (result = none ∨ scrape.probe = .ended result)) ∨
    ∃ processes targets, scrape.stage = .collecting (some processes) (some targets) ∧
      stage = .writing processes targets (ops processes targets) := by
  cases a <;> simp only [stageNext] at moved
  case processes i result =>
    split at moved
    · rename_i targets at_
      exact .inl ⟨result,targets,at_,(Option.some.inj moved).symm⟩
    · simp at moved
  case targets i =>
    split at moved
    · rename_i processes result at_ ended
      exact .inr (.inl ⟨processes,result,at_,(Option.some.inj moved).symm,.inr ended⟩)
    · simp at moved
  case expire i =>
    split at moved
    · rename_i processes at_
      exact .inr (.inl ⟨processes,none,at_,(Option.some.inj moved).symm,.inl rfl⟩)
    · simp at moved
  case join i =>
    split at moved
    · rename_i processes targets at_
      exact .inr (.inr ⟨processes,targets,at_,(Option.some.inj moved).symm⟩)
    · simp at moved
  all_goals simp at moved

def TargetSnapshot.IsOf (snapshot : TargetSnapshot) (wsUrl : Option Nat) : Prop :=
  wsUrl = some snapshot.answered.1 ∧ snapshot.targets = countTargetTypes snapshot.answered.2

/-- A probe asks the browser it was started for, over the client that is connected to it. -/
def Probe.Sound (wsUrl client : Option Nat) : Probe → Prop
  | .idle | .ended none => True
  | .trying aim | .connecting aim => wsUrl = some aim
  | .listing aim => wsUrl = some aim ∧ client = some aim
  | .counting aim answered => wsUrl = some aim ∧ client = some aim ∧ answered.1 = aim
  | .ended (some snapshot) => snapshot.IsOf wsUrl

def Stage.targets? : Stage → Option TargetSnapshot
  | .collecting _ (some targets) | .writing _ targets _ | .over_ _ targets _ => targets
  | _ => none

def held (scrape : Scrape) : Nat := if scrape.probe.holds then 1 else 0

theorem locked_eq_false : s.locked = false ↔ weigh held s.scrapes = 0 := by
  rw [weigh_eq_zero_iff,State.locked,List.any_eq_false]
  constructor
  · intro free i scrape at_
    simp [held,free scrape (List.mem_of_getElem? at_)]
  · intro free scrape listed
    obtain ⟨i,at_⟩ := List.mem_iff_getElem?.mp listed
    simpa [held] using free i scrape at_

theorem Probe.Sound.of_not_holds {wsUrl client client' : Option Nat} {probe : Probe} (free : probe.holds = false)
    (sound : probe.Sound wsUrl client) : probe.Sound wsUrl client' := by
  cases probe with
  | idle | trying => exact sound
  | connecting | listing | counting => simp [Probe.holds] at free
  | ended result => cases result <;> exact sound

/-- The probe takes the lock only when it is free, and changes the client only under it. -/
theorem probeNext_spec {locked : Bool} {client client' wsUrl : Option Nat} {probe probe' : Probe} {does : ProbeStep}
    (moved : probeNext locked client probe does = some (probe',client')) (sound : probe.Sound wsUrl client) :
    probe'.Sound wsUrl client' ∧ (probe'.holds → locked = false ∨ probe.holds) ∧
      (client' ≠ client → locked = false ∨ probe.holds) := by
  unfold probeNext at moved
  split at moved
  · rename_i aim
    split at moved
    · obtain ⟨rfl,rfl⟩ := Prod.mk.inj (Option.some.inj moved)
      simp [Probe.Sound,Probe.holds]
    · rename_i free
      split at moved <;> obtain ⟨rfl,rfl⟩ := Prod.mk.inj (Option.some.inj moved)
      · rename_i same
        exact ⟨⟨sound,same⟩,fun _ => .inl (by simpa using free),fun changed => absurd rfl changed⟩
      · exact ⟨sound,fun _ => .inl (by simpa using free),fun _ => .inl (by simpa using free)⟩
  · rename_i aim connected
    split at moved <;> obtain ⟨rfl,rfl⟩ := Prod.mk.inj (Option.some.inj moved)
    · exact ⟨⟨sound,rfl⟩,fun _ => .inr rfl,fun _ => .inr rfl⟩
    · exact ⟨trivial,fun _ => .inr rfl,fun _ => .inr rfl⟩
  · rename_i aim types
    split at moved <;> obtain ⟨rfl,rfl⟩ := Prod.mk.inj (Option.some.inj moved)
    · rename_i asked listed
      exact ⟨⟨sound.1,sound.2,Option.some.inj sound.2⟩,fun _ => .inr rfl,fun _ => .inr rfl⟩
    · exact ⟨trivial,fun _ => .inr rfl,fun _ => .inr rfl⟩
  · rename_i aim answered contexts
    obtain ⟨rfl,rfl⟩ := Prod.mk.inj (Option.some.inj moved)
    refine ⟨?_,fun _ => .inr rfl,fun _ => .inr rfl⟩
    cases contexts with
    | none => trivial
    | some contexts => exact ⟨sound.1.trans (congrArg some sound.2.2.symm),rfl⟩
  · simp at moved

structure Sound (s : State) : Prop where
  single : weigh held s.scrapes ≤ 1
  probes : ∀ (i : Nat) (scrape : Scrape), s.scrapes[i]? = some scrape → scrape.probe.Sound scrape.wsUrl s.client
  got : ∀ (i : Nat) (scrape : Scrape) (snapshot : TargetSnapshot), s.scrapes[i]? = some scrape →
    scrape.stage.targets? = some snapshot → snapshot.IsOf scrape.wsUrl

theorem Sound.initial : Sound machine.initial := by
  refine ⟨by simp [machine],?_,?_⟩ <;> simp [machine]

/-- A scrape that keeps its browser and its probe and gets nothing but what its probe gave it. -/
theorem Sound.quiet (sound : Sound s) (at_ : s.scrapes[i]? = some scrape)
    (scrapes : t.scrapes = s.scrapes.set i scrape')
    (client : t.client = s.client) (wsUrl : scrape'.wsUrl = scrape.wsUrl) (probe : scrape'.probe = scrape.probe)
    (got : ∀ snapshot, scrape'.stage.targets? = some snapshot →
      scrape.stage.targets? = some snapshot ∨ scrape.probe = .ended (some snapshot)) : Sound t := by
  have total := weigh_set (w := held) at_ scrape'
  refine ⟨?_,fun j x at' => ?_,fun j x snapshot at' left => ?_⟩
  · have same : held scrape' = held scrape := by simp [held,probe]
    have := sound.single
    rw [scrapes]
    omega
  · rw [scrapes] at at'
    rw [client]
    rcases getElem?_set_cases at_ at' with ⟨rfl,rfl⟩ | ⟨_,old⟩
    · rw [probe,wsUrl]
      exact sound.probes _ _ at_
    · exact sound.probes _ _ old
  · rw [scrapes] at at'
    rcases getElem?_set_cases at_ at' with ⟨rfl,rfl⟩ | ⟨_,old⟩
    · rw [wsUrl]
      rcases got snapshot left with before | ended
      · exact sound.got _ _ _ at_ before
      · have asked := sound.probes _ _ at_
        rw [ended] at asked
        exact asked
    · exact sound.got _ _ _ old left

theorem Sound.step (sound : Sound s) (taken : step s a = some t) : Sound t := by
  rcases step_cases taken with ⟨_,rfl⟩ | ⟨_,rfl⟩ | ⟨i,scrape,scrape',at_,moves⟩
  · exact ⟨sound.single,sound.probes,sound.got⟩
  · refine ⟨by simpa [held,Probe.holds] using sound.single,fun j x at' => ?_,fun j x snapshot at' left => ?_⟩
    · rcases getElem?_append_cases at' with old | ⟨_,rfl⟩
      · exact sound.probes _ _ old
      · trivial
    · rcases getElem?_append_cases at' with old | ⟨_,rfl⟩
      · exact sound.got _ _ _ old left
      · simp [Stage.targets?] at left
  · have total := weigh_set (w := held) at_ scrape'
    have bound := sound.single
    cases moves with
    | look arrived =>
      have free : held ⟨some s.browser,.collecting none none,.trying s.browser⟩ = 0 := rfl
      refine ⟨?_,fun j x at' => ?_,fun j x snapshot at' left => ?_⟩
      · rw [free] at total
        show weigh held (s.scrapes.set i _) ≤ 1
        omega
      · rcases getElem?_set_cases at_ at' with ⟨rfl,rfl⟩ | ⟨_,old⟩
        · rfl
        · exact sound.probes _ _ old
      · rcases getElem?_set_cases at_ at' with ⟨rfl,rfl⟩ | ⟨_,old⟩
        · simp [Stage.targets?] at left
        · exact sound.got _ _ _ old left
    | @probe probe client does moved =>
      obtain ⟨asks,takes,changes⟩ := probeNext_spec moved (sound.probes _ _ at_)
      refine ⟨?_,fun j x at' => ?_,fun j x snapshot at' left => ?_⟩
      · show weigh held (s.scrapes.set i _) ≤ 1
        by_cases holds : probe.holds
        · have one : held { scrape with probe } = 1 := by simp [held,holds]
          rcases takes holds with free | before
          · have := locked_eq_false.mp free
            omega
          · have : held scrape = 1 := by simp [held,before]
            omega
        · have none_ : held { scrape with probe } = 0 := by simp [held,holds]
          omega
      · rcases getElem?_set_cases at_ at' with ⟨rfl,rfl⟩ | ⟨apart,old⟩
        · exact asks
        · by_cases same : client = s.client
          · subst same
            exact sound.probes _ _ old
          · have free : held x = 0 := by
              rcases changes same with free | holds
              · exact weigh_eq_zero_iff.mp (locked_eq_false.mp free) _ _ old
              · have pair := weight_pair_le (w := held) at_ old (Ne.symm apart)
                have : held scrape = 1 := by simp [held,holds]
                omega
            exact (sound.probes _ _ old).of_not_holds (by simpa [held] using free)
      · rcases getElem?_set_cases at_ at' with ⟨rfl,rfl⟩ | ⟨_,old⟩
        · exact sound.got j scrape snapshot at_ left
        · exact sound.got _ _ _ old left
    | stage act moved =>
      refine sound.quiet at_ rfl rfl rfl rfl fun snapshot left => ?_
      rcases stageNext_cases moved with ⟨_,targets,before,rfl⟩ | ⟨processes,result,before,rfl,whence⟩ | ⟨_,_,before,rfl⟩
      · left
        rw [before]
        cases targets <;> exact left
      · right
        obtain rfl : result = some snapshot := left
        exact whence.resolve_left (by simp)
      · left
        rw [before]
        exact left
    | write writing => exact sound.quiet at_ rfl rfl rfl rfl fun snapshot left => .inl (by rw [writing]; exact left)
    | gather written => exact sound.quiet at_ rfl rfl rfl rfl fun snapshot left => .inl (by rw [written]; exact left)

def sequential (s : State) (a : Action) : Prop := a.arrives → ∀ scrape ∈ s.scrapes, scrape.stage.isOver

instance (s : State) (a : Action) : Decidable (sequential s a) :=
  inferInstanceAs (Decidable (a.arrives = true → ∀ scrape ∈ s.scrapes, scrape.stage.isOver = true))

structure Serial (s : State) : Prop where
  alone : ∀ (i j : Nat) (scrape scrape' : Scrape), s.scrapes[i]? = some scrape → s.scrapes[j]? = some scrape' →
    scrape.stage.isOver = false → scrape'.stage.isOver = false → i = j
  wrote : ∀ (i : Nat) (scrape : Scrape) (processes : Option ProcessSnapshot) (targets : Option TargetSnapshot)
    (todo : List Op), s.scrapes[i]? = some scrape → scrape.stage = .writing processes targets todo →
      ∃ registry done, done ++ todo = ops processes targets ∧ s.registry = done.foldl apply registry
  exposed : ∀ (i : Nat) (scrape : Scrape) (processes : Option ProcessSnapshot) (targets : Option TargetSnapshot)
    (exposed : Registry), s.scrapes[i]? = some scrape → scrape.stage = .over_ processes targets exposed →
      ∃ registry, exposed = (ops processes targets).foldl apply registry

theorem Serial.initial : Serial machine.initial := by
  refine ⟨?_,?_,?_⟩ <;> simp [machine]

theorem Serial.moved (serial : Serial s) (at_ : s.scrapes[i]? = some scrape)
    (scrapes : t.scrapes = s.scrapes.set i scrape')
    (open_ : scrape'.stage.isOver = false → scrape.stage.isOver = false)
    (registry : t.registry = s.registry ∨ scrape.stage.isOver = false)
    (wrote : ∀ processes targets todo, scrape'.stage = .writing processes targets todo →
      ∃ registry done, done ++ todo = ops processes targets ∧ t.registry = done.foldl apply registry)
    (exposed : ∀ processes targets exposed, scrape'.stage = .over_ processes targets exposed →
      ∃ registry, exposed = (ops processes targets).foldl apply registry) : Serial t := by
  refine ⟨fun j k x y atj atk openj openk => ?_,fun j x processes targets todo atj writing => ?_,
    fun j x processes targets shown atj over_ => ?_⟩
  · rw [scrapes] at atj atk
    rcases getElem?_set_cases at_ atj with ⟨rfl,rfl⟩ | ⟨_,oldj⟩ <;>
      rcases getElem?_set_cases at_ atk with ⟨rfl,rfl⟩ | ⟨_,oldk⟩
    · rfl
    · exact serial.alone _ _ _ _ at_ oldk (open_ openj) openk
    · exact serial.alone _ _ _ _ oldj at_ openj (open_ openk)
    · exact serial.alone _ _ _ _ oldj oldk openj openk
  · rw [scrapes] at atj
    rcases getElem?_set_cases at_ atj with ⟨rfl,rfl⟩ | ⟨apart,old⟩
    · exact wrote _ _ _ writing
    · rcases registry with same | unfinished
      · rw [same]
        exact serial.wrote _ _ _ _ _ old writing
      · exact absurd (serial.alone _ _ _ _ old at_ (by rw [writing]; rfl) unfinished) apart
  · rw [scrapes] at atj
    rcases getElem?_set_cases at_ atj with ⟨rfl,rfl⟩ | ⟨_,old⟩
    · exact exposed _ _ _ over_
    · exact serial.exposed _ _ _ _ _ old over_

theorem Serial.step (serial : Serial s) (allowed : sequential s a) (taken : step s a = some t) : Serial t := by
  rcases step_cases taken with ⟨_,rfl⟩ | ⟨rfl,rfl⟩ | ⟨i,scrape,scrape',at_,moves⟩
  · exact ⟨serial.alone,serial.wrote,serial.exposed⟩
  · have finished := allowed rfl
    have old : ∀ (j : Nat) (x : Scrape), s.scrapes[j]? = some x → x.stage.isOver = true :=
      fun j x at' => finished x (List.mem_of_getElem? at')
    refine ⟨fun j k x y atj atk openj openk => ?_,fun j x processes targets todo atj writing => ?_,
      fun j x processes targets shown atj over_ => ?_⟩
    · rcases getElem?_append_cases atj with before | ⟨rfl,_⟩
      · simp [old j x before] at openj
      · rcases getElem?_append_cases atk with before | ⟨rfl,_⟩
        · simp [old k y before] at openk
        · rfl
    · rcases getElem?_append_cases atj with before | ⟨_,rfl⟩
      · exact serial.wrote _ _ _ _ _ before writing
      · simp at writing
    · rcases getElem?_append_cases atj with before | ⟨_,rfl⟩
      · exact serial.exposed _ _ _ _ _ before over_
      · simp at over_
  · cases moves with
    | look arrived =>
      exact serial.moved at_ rfl (fun _ => by rw [arrived]; rfl) (.inl rfl) (by simp) (by simp)
    | probe does moved =>
      exact serial.moved at_ rfl id (.inl rfl) (fun _ _ _ writing => serial.wrote _ _ _ _ _ at_ writing)
        (fun _ _ _ over_ => serial.exposed _ _ _ _ _ at_ over_)
    | stage act moved =>
      rcases stageNext_cases moved with ⟨_,_,before,rfl⟩ | ⟨_,_,before,rfl,_⟩ | ⟨_,_,before,rfl⟩
      · exact serial.moved at_ rfl (fun _ => by rw [before]; rfl) (.inl rfl) (by simp) (by simp)
      · exact serial.moved at_ rfl (fun _ => by rw [before]; rfl) (.inl rfl) (by simp) (by simp)
      · refine serial.moved at_ rfl (fun _ => by rw [before]; rfl) (.inl rfl) (fun _ _ _ writing => ?_) (by simp)
        obtain ⟨rfl,rfl,rfl⟩ := Stage.writing.inj writing
        exact ⟨s.registry,[],rfl,rfl⟩
    | write before =>
      refine serial.moved at_ rfl (fun _ => by rw [before]; rfl) (.inr (by rw [before]; rfl)) (fun _ _ _ writing => ?_)
        (by simp)
      obtain ⟨rfl,rfl,rfl⟩ := Stage.writing.inj writing
      obtain ⟨registry,done,split_,wrote⟩ := serial.wrote _ _ _ _ _ at_ before
      exact ⟨registry,done ++ [_],by simpa using split_,by simp [wrote]⟩
    | gather written =>
      refine serial.moved at_ rfl (by simp [Stage.isOver]) (.inl rfl) (by simp) (fun _ _ _ over_ => ?_)
      obtain ⟨rfl,rfl,rfl⟩ := Stage.over_.inj over_
      obtain ⟨registry,done,split_,wrote⟩ := serial.wrote _ _ _ _ _ at_ written
      exact ⟨registry,by rw [← split_,List.append_nil,wrote]⟩

/-- The scrape a step is taken by; a probe's steps are the browser's to allow. -/
def Action.by? : Action → Option Nat
  | .look i | .processes i _ | .targets i | .expire i | .join i | .write i | .gather i => some i
  | .replace | .arrive | .probe .. => none

def Ends (i : Nat) (s : State) : Prop :=
  ∃ actions t scrape, (∀ a ∈ actions, a.by? = some i) ∧ machine.exec actions s = some t ∧
    t.scrapes[i]? = some scrape ∧ scrape.stage.isOver = true

theorem Ends.of_step (own : a.by? = some i) (taken : step s a = some t) (ends : Ends i t) : Ends i s := by
  obtain ⟨actions,u,scrape,mine,ran,at_,over_⟩ := ends
  refine ⟨a :: actions,u,scrape,?_,Option.bind_eq_some_iff.mpr ⟨t,taken,ran⟩,at_,over_⟩
  intro b listed
  rcases List.mem_cons.mp listed with rfl | later
  · exact own
  · exact mine b later

theorem getElem?_setStage (at_ : s.scrapes[i]? = some scrape) (stage : Stage) :
    (s.setStage i scrape stage).scrapes[i]? = some { scrape with stage } := by
  have bound := (List.getElem?_eq_some_iff.mp at_).1
  simp [State.setStage,bound]

theorem ends_writing {processes : Option ProcessSnapshot} {targets : Option TargetSnapshot} {todo : List Op}
    (at_ : s.scrapes[i]? = some scrape) (writing : scrape.stage = .writing processes targets todo) : Ends i s := by
  induction todo generalizing s scrape with
  | nil =>
    refine ⟨[.gather i],_,_,by simp [Action.by?],?_,getElem?_setStage at_ (.over_ processes targets s.registry),rfl⟩
    simp [Machine.exec,machine,Exposition.step,at_,writing]
  | cons op todo ih =>
    let next := s.setStage i scrape (.writing processes targets todo)
    have taken : step s (.write i) = some { next with registry := apply s.registry op } := by
      simp [Exposition.step,at_,writing,next]
    have there : ({ next with registry := apply s.registry op } : State).scrapes[i]? =
        some { scrape with stage := .writing processes targets todo } := getElem?_setStage at_ _
    exact (ih there rfl).of_step rfl taken

theorem ends_processed {processes : Option ProcessSnapshot} {targets : Option (Option TargetSnapshot)}
    (at_ : s.scrapes[i]? = some scrape) (collecting : scrape.stage = .collecting (some processes) targets) :
    Ends i s := by
  have joins : ∀ (s : State) (scrape : Scrape) (targets : Option TargetSnapshot), s.scrapes[i]? = some scrape →
      scrape.stage = .collecting (some processes) (some targets) → Ends i s := by
    intro s scrape targets at_ collecting
    have taken : step s (.join i) =
        some (s.setStage i scrape (.writing processes targets (ops processes targets))) := by
      simp [Exposition.step,stageNext,at_,collecting]
    exact (ends_writing (getElem?_setStage at_ _) rfl).of_step rfl taken
  cases targets with
  | none =>
    have taken : step s (.expire i) = some (s.setStage i scrape (.collecting (some processes) (some none))) := by
      simp [Exposition.step,stageNext,at_,collecting]
    exact (joins _ _ none (getElem?_setStage at_ _) rfl).of_step rfl taken
  | some targets => exact joins s scrape targets at_ collecting

theorem ends_collecting {processes : Option (Option ProcessSnapshot)} {targets : Option (Option TargetSnapshot)}
    (at_ : s.scrapes[i]? = some scrape) (collecting : scrape.stage = .collecting processes targets) : Ends i s := by
  cases processes with
  | none =>
    have taken : step s (.processes i none) = some (s.setStage i scrape (.collecting (some none) targets)) := by
      simp [Exposition.step,stageNext,at_,collecting]
    exact (ends_processed (getElem?_setStage at_ _) rfl).of_step rfl taken
  | some processes => exact ends_processed at_ collecting

theorem ends (at_ : s.scrapes[i]? = some scrape) : Ends i s := by
  cases stage : scrape.stage with
  | arrived =>
    obtain ⟨wsUrl,_,probe⟩ := scrape
    subst stage
    have bound := (List.getElem?_eq_some_iff.mp at_).1
    have taken : step s (.look i) = some
        { s with scrapes := s.scrapes.set i ⟨some s.browser,.collecting none none,.trying s.browser⟩ } := by
      simp [Exposition.step,at_]
    have there : (s.scrapes.set i ⟨some s.browser,.collecting none none,.trying s.browser⟩)[i]? =
        some ⟨some s.browser,.collecting none none,.trying s.browser⟩ := by simp [bound]
    have later : Ends i { s with scrapes := s.scrapes.set i ⟨some s.browser,.collecting none none,.trying s.browser⟩ } :=
      ends_collecting there rfl
    exact later.of_step rfl taken
  | collecting processes targets => exact ends_collecting at_ stage
  | writing processes targets todo => exact ends_writing at_ stage
  | over_ processes targets exposed => exact ⟨[],s,scrape,by simp,rfl,at_,by rw [stage]; rfl⟩

end Steps

structure Told (s : State) : Prop where
  single : ∀ (i j : Nat) (scrape scrape' : Scrape), s.scrapes[i]? = some scrape → s.scrapes[j]? = some scrape' →
    scrape.probe.holds → scrape'.probe.holds → i = j
  asked : ∀ (i : Nat) (scrape : Scrape) (processes : Option ProcessSnapshot) (snapshot : TargetSnapshot)
    (exposed : Registry), s.scrapes[i]? = some scrape → scrape.stage = .over_ processes (some snapshot) exposed →
      scrape.wsUrl = some snapshot.answered.1
  ends : ∀ i < s.scrapes.length, Ends i s
  exact : machine.Reach sequential s → ∀ (i : Nat) (scrape : Scrape) (processes : Option ProcessSnapshot)
    (targets : Option TargetSnapshot) (exposed : Registry), s.scrapes[i]? = some scrape →
      scrape.stage = .over_ processes targets exposed → exposed = readings processes targets

/-- In every run of scrapes, probes and replaced browsers: at most one probe is past the lock,
the targets of a scrape are those of the browser it looked up, and every scrape can get over
without a step of any probe. Scrapes that come one after the other expose exactly what they
read, every series of a source or none of it. -/
theorem scrapes_told (s : State) (run : machine.Reachable s) : Told s := by
  have sound : Sound s := Machine.Reachable.invariant Sound.initial (fun _ _ _ _ sound taken => sound.step taken) run
  refine ⟨fun i j x y ati atj holdsi holdsj => ?_,fun i scrape processes snapshot exposed at_ over_ => ?_,
    fun i bound => ends (List.getElem?_eq_getElem bound),fun apart i scrape processes targets exposed at_ over_ => ?_⟩
  · by_contra apart
    have pair := weight_pair_le (w := held) ati atj apart
    have one := sound.single
    simp only [held,holdsi,holdsj,if_true] at pair
    omega
  · exact (sound.got i scrape snapshot at_ (by rw [over_]; rfl)).1
  · have serial : Serial s :=
      Machine.Reach.invariant Serial.initial (fun _ _ _ _ serial allowed taken => serial.step allowed taken) apart
    obtain ⟨registry,rfl⟩ := serial.exposed i scrape processes targets exposed at_ over_
    refine foldl_ops (fun snapshot some_ => ?_) registry
    exact (sound.got i scrape snapshot at_ (by rw [over_]; exact some_)).2

/-- The browser is replaced while its probe is stuck: the next scrape does without the targets,
and the one after it asks the new browser. -/
def replacedBrowser : List Action :=
  ([.arrive,.look 0,.probe 0 .lock,.probe 0 (.connect true),.replace,.processes 0 none,.expire 0,
    .join 0] : List Action) ++
  List.replicate 7 (Action.write 0) ++
  ([.gather 0,.arrive,.look 1,.probe 1 .lock,.targets 1,.processes 1 none,.join 1] : List Action) ++
  List.replicate 7 (Action.write 1) ++ ([.gather 1,.probe 0 (.list none),.arrive,.look 2,.probe 2 .lock,
    .probe 2 (.connect true),.probe 2 (.list (some ["page","webview","page"])),.probe 2 (.count (some 2)),
    .targets 2,.processes 2 none,.join 2] : List Action) ++
  List.replicate 13 (Action.write 2) ++ ([.gather 2] : List Action)

theorem scrapes_told_replaced : ∃ s, machine.exec replacedBrowser machine.initial = some s ∧ s.client = some 1 ∧
    (∃ scrape processes targets exposed, s.scrapes[2]? = some scrape ∧ scrape.stage = .over_ processes targets exposed ∧
      exposed = readings processes targets ∧ exposed (.browserTargets .page) = some 2 ∧
      exposed (.browserTargets .worker) = some 0 ∧ exposed (.browserProcesses .renderer) = none) ∧ Told s := by
  obtain ⟨s,scrape,processes,targets,exposed,ran,client,at_,over_,page,worker,renderer⟩ :
      ∃ s scrape processes targets exposed, machine.exec replacedBrowser machine.initial = some s ∧ s.client = some 1 ∧
        s.scrapes[2]? = some scrape ∧ scrape.stage = .over_ processes targets exposed ∧
        exposed (.browserTargets .page) = some 2 ∧ exposed (.browserTargets .worker) = some 0 ∧
        exposed (.browserProcesses .renderer) = none :=
    ⟨_,_,_,_,_,rfl,by decide +kernel,rfl,rfl,by decide +kernel,by decide +kernel,by decide +kernel⟩
  have told := scrapes_told s (Machine.reachable_of_exec ran)
  have apart : machine.Reach sequential s :=
    Machine.Reach.exec_meets .initial ran (by decide +kernel : machine.Meets sequential replacedBrowser machine.initial)
  have exactly := told.exact apart 2 scrape processes targets exposed at_ over_
  exact ⟨s,ran,client,⟨scrape,processes,targets,exposed,at_,over_,exactly,page,worker,renderer⟩,told⟩

end BrowserHive.Worker.Exposition
