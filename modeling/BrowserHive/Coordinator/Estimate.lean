import BrowserHive.Lib.Tasks
import BrowserHive.Lib.Record
import BrowserHive.Coordinator.Accounting

/-! How far the free slots a coordinator computes can be from the free slots there are:
requests on their way to a worker and back, against a discovery round that samples the
worker, delivers the sample and reads its own count one after the other. -/
namespace BrowserHive.Coordinator.Estimate

open Transition Tasks

inductive Stage where
  | dispatched
  | running
  | finished
  deriving DecidableEq, Repr

structure Request where
  pod : String
  stage : Stage
  deriving DecidableEq, Repr

def Request.dispatchedTo (pod : String) (r : Request) : Nat :=
  if r.pod = pod ∧ r.stage ≠ .finished then 1 else 0

def Request.runningOn (pod : String) (r : Request) : Nat :=
  if r.pod = pod ∧ r.stage = .running then 1 else 0

inductive Poll where
  | idle
  | asked (pod : Pod) (name : String)
  | sampled (pod : Pod) (name : String) (stats : WorkerStats)
  | delivered (pod : Pod) (name : String) (stats : WorkerStats)
  deriving DecidableEq

structure State where
  requests : List Request
  inFlight : InFlight
  poll : Poll
  round : List Pod
  routable : Routable

namespace State

def outstanding (s : State) (pod : String) : Nat := weigh (Request.dispatchedTo pod) s.requests

def running (s : State) (pod : String) : Nat := weigh (Request.runningOn pod) s.requests

end State

inductive Action where
  /-- `InFlightTracker::start`, at the head of the retry loop. -/
  | dispatch (pod : String)
  | arrive (i : Nat)
  /-- The request is over and its `InFlightGuard` is dropped. -/
  | finish (i : Nat)
  | ask (pod : Pod)
  | skip (pod : Pod)
  | sample (stats : WorkerStats)
  | deliver
  /-- `in_flight.current`, stored beside the stats that arrived. -/
  | baseline
  | fail
  | publish
  deriving DecidableEq

/-- A worker holds a slot for every request running on it. -/
def step (capacity : String → Nat) (s : State) : Action → Option State
  | .dispatch pod =>
    some { s with requests := s.requests ++ [⟨pod,.dispatched⟩], inFlight := s.inFlight.start pod }
  | .arrive i =>
    match s.requests[i]? with
    | some ⟨pod,.dispatched⟩ => some { s with requests := s.requests.set i ⟨pod,.running⟩ }
    | _ => none
  | .finish i =>
    match s.requests[i]? with
    | some ⟨_,.finished⟩ | none => none
    | some ⟨pod,_⟩ =>
      some { s with requests := s.requests.set i ⟨pod,.finished⟩, inFlight := s.inFlight.finish pod }
  | .ask pod =>
    match s.poll,pod.name with
    | .idle,some name => some { s with poll := .asked pod name }
    | _,_ => none
  | .skip pod =>
    match s.poll with
    | .idle => some { s with round := s.round ++ [{ pod with answer := none }] }
    | _ => none
  | .sample stats =>
    match s.poll with
    | .asked pod name =>
      let stats := { stats with availableSlots := capacity name - s.running name }
      some { s with poll := .sampled pod name stats }
    | _ => none
  | .deliver =>
    match s.poll with
    | .sampled pod name stats => some { s with poll := .delivered pod name stats }
    | _ => none
  | .baseline =>
    match s.poll with
    | .delivered pod name stats =>
      some { s with
        poll := .idle
        round := s.round ++ [{ pod with answer := some (stats,s.inFlight.current name) }] }
    | _ => none
  | .fail =>
    match s.poll with
    | .asked pod _ | .sampled pod _ _ =>
      some { s with poll := .idle, round := s.round ++ [{ pod with answer := none }] }
    | _ => none
  | .publish =>
    match s.poll with
    | .idle => some { s with round := [], routable := (discoverWorkers s.round).1 }
    | _ => none

def initial : State := ⟨[],.empty,.idle,[],fun _ => none⟩

def machine (capacity : String → Nat) : Machine State Action := ⟨initial,step capacity⟩

variable {capacity : String → Nat} {s t : State}

/-- No routable worker is taken to have more free slots than it can have: its capacity
less what was dispatched to it and is not finished. -/
def NeverOver (capacity : String → Nat) (s : State) : Prop :=
  s.routable.All (fun _ w => s.inFlight.freeSlots w ≤ capacity w.podName - s.outstanding w.podName)

/-- The requests a snapshot of a worker was taken from: those its sample found running there,
and those its baseline counts. -/
structure Sighting where
  running : Finset Nat
  counted : Finset Nat

/-- What the round in progress and the map in use were made from. -/
structure Sightings where
  sampled : Finset Nat
  round : List (Pod × Option Sighting)
  routable : List (Pod × Option Sighting)

def State.opened (s : State) (pod : String) : Finset Nat := holders (Request.dispatchedTo pod) s.requests

def Sightings.follow (s : State) (seen : Sightings) (a : Action) : Sightings :=
  match a,s.poll with
  | .sample _,.asked _ name => { seen with sampled := holders (Request.runningOn name) s.requests }
  | .baseline,.delivered pod name stats =>
    { seen with round := seen.round ++
      [({ pod with answer := some (stats,s.inFlight.current name) },some ⟨seen.sampled,s.opened name⟩)] }
  | .skip pod,_ | .fail,.asked pod _ | .fail,.sampled pod _ _ =>
    { seen with round := seen.round ++ [({ pod with answer := none },none)] }
  | .publish,_ => { seen with round := [], routable := seen.round }
  | _,_ => seen

def sighted (capacity : String → Nat) : Machine (State × Sightings) Action :=
  (machine capacity).record ⟨∅,[],[]⟩ id fun s seen a _ => some (seen.follow s a)

/-- The baseline counts no more requests that were still on their way when the worker was sampled
than the sample saw that were over when the baseline was read. -/
def Sighting.Even (capacity : Nat) (seen : Sighting) : Prop :=
  (seen.counted \ seen.running).card ≤ (seen.running \ seen.counted).card ∧ seen.counted.card ≤ capacity

/-- The requests dispatched since are as many as the slots the sample found free and the counted
requests that are over since. -/
def Sighting.Overtaken (capacity : Nat) (opened : Finset Nat) (seen : Sighting) : Prop :=
  capacity - seen.running.card + (seen.counted \ opened).card ≤ (opened \ seen.counted).card

def EachRouted (P : String → Sighting → Prop) (entries : List (Pod × Option Sighting)) : Prop :=
  ∀ (pod : Pod) (name : String) (seen : Sighting), (pod,some seen) ∈ entries → ¬pod.Unusable →
    pod.name = some name → P name seen

/-- Snapshots come into use, and requests to a pod in use finish, only where the snapshot's baseline
counts no more than its sample saw, or is overtaken by the requests dispatched since. -/
def SnapshotsSeen (capacity : String → Nat) (s : State × Sightings) : Action → Prop
  | .publish => EachRouted (fun name seen => seen.Even (capacity name) ∨
      seen.Overtaken (capacity name) (s.1.opened name)) s.2.round
  | .finish i => ∀ (r : Request), s.1.requests[i]? = some r →
      EachRouted (fun name seen => name = r.pod → seen.Even (capacity name) ∨
        seen.Overtaken (capacity name) ((s.1.opened name).erase i)) s.2.routable
  | _ => True

/-- The estimate exceeds the free slots exactly when it adds requests the sample missed. -/
theorem estimate_le_iff (w : WorkerEndpoint) (seen : Sighting) (opened : Finset Nat) (capacity : Nat)
    (sampled : w.stats.availableSlots = capacity - seen.running.card)
    (baseline : w.inFlightAtSnapshot = seen.counted.card) :
    effectiveFreeSlots w opened.card ≤ capacity - opened.card ↔
      seen.Even capacity ∨ seen.Overtaken capacity opened := by
  have saw := Finset.card_sdiff_add_card_inter seen.running seen.counted
  have counts := Finset.card_sdiff_add_card_inter seen.counted seen.running
  have before := Finset.card_sdiff_add_card_inter seen.counted opened
  have since := Finset.card_sdiff_add_card_inter opened seen.counted
  rw [Finset.inter_comm] at counts since
  unfold effectiveFreeSlots Sighting.Even Sighting.Overtaken
  rw [sampled,baseline]
  omega

/-- Opening requests overtakes a snapshot all the more. -/
theorem Sighting.Overtaken.mono {seen : Sighting} {opened opened' : Finset Nat} {capacity : Nat}
    (subset : opened ⊆ opened') (overtaken : seen.Overtaken capacity opened) : seen.Overtaken capacity opened' := by
  have fewer := Finset.card_le_card (Finset.sdiff_subset_sdiff (Finset.Subset.refl seen.counted) subset)
  have more := Finset.card_le_card (Finset.sdiff_subset_sdiff subset (Finset.Subset.refl seen.counted))
  unfold Sighting.Overtaken at overtaken ⊢
  omega

theorem card_opened (s : State) (pod : String) : (s.opened pod).card = s.outstanding pod :=
  card_holders (fun r => by unfold Request.dispatchedTo; split <;> omega) _

theorem card_running (s : State) (pod : String) :
    (holders (Request.runningOn pod) s.requests).card = s.running pod :=
  card_holders (fun r => by unfold Request.runningOn; split <;> omega) _

/-- The pods of a round have answered what their sightings tell. -/
def Backed (capacity : String → Nat) (entries : List (Pod × Option Sighting)) : Prop :=
  ∀ (pod : Pod) (seen : Option Sighting) (name : String), (pod,seen) ∈ entries → pod.name = some name →
    match seen with
    | none => pod.answer = none
    | some seen => ∃ stats, pod.answer = some (stats,seen.counted.card) ∧
        stats.availableSlots = capacity name - seen.running.card

/-- What holds whatever the order of the steps: the tracker counts the requests, and the
snapshots show what was seen. -/
structure Sampled (capacity : String → Nat) (s : State × Sightings) : Prop where
  counted : ∀ pod, s.1.inFlight.current pod = s.1.outstanding pod
  asked : ∀ (pod : Pod) (name : String), s.1.poll = .asked pod name → pod.name = some name
  poll : ∀ (pod : Pod) (name : String) (stats : WorkerStats),
    s.1.poll = .sampled pod name stats ∨ s.1.poll = .delivered pod name stats →
    pod.name = some name ∧ stats.availableSlots = capacity name - s.2.sampled.card
  round : s.1.round = s.2.round.map Prod.fst
  routable : s.1.routable = (discoverWorkers (s.2.routable.map Prod.fst)).1
  backed : Backed capacity s.2.round ∧ Backed capacity s.2.routable

theorem outstanding_dispatch (s : State) (pod other : String) :
    weigh (Request.dispatchedTo other) (s.requests ++ [⟨pod,.dispatched⟩]) =
      s.outstanding other + if other = pod then 1 else 0 := by
  simp [State.outstanding,Request.dispatchedTo,eq_comm]

theorem outstanding_finish (here : s.requests[i]? = some r) (unfinished : r.stage ≠ .finished)
    (other : String) : weigh (Request.dispatchedTo other) (s.requests.set i ⟨r.pod,.finished⟩) =
      s.outstanding other - if other = r.pod then 1 else 0 := by
  have moved := weigh_set (w := Request.dispatchedTo other) here ⟨r.pod,.finished⟩
  simp only [Request.dispatchedTo,unfinished,ne_eq,not_true,not_false_iff,and_false,and_true,
    if_false,eq_comm (a := r.pod)] at moved
  unfold State.outstanding
  omega

theorem outstanding_arrive (here : s.requests[i]? = some ⟨pod,.dispatched⟩) (other : String) :
    weigh (Request.dispatchedTo other) (s.requests.set i ⟨pod,.running⟩) = s.outstanding other := by
  have moved := weigh_set (w := Request.dispatchedTo other) here ⟨pod,.running⟩
  simp only [Request.dispatchedTo] at moved
  unfold State.outstanding
  simpa using moved

theorem finish_cases (taken : step capacity s (.finish i) = some t) :
    ∃ r, s.requests[i]? = some r ∧ r.stage ≠ .finished ∧
      t = { s with requests := s.requests.set i ⟨r.pod,.finished⟩, inFlight := s.inFlight.finish r.pod } := by
  simp only [step] at taken
  split at taken
  · contradiction
  · contradiction
  · next pod stage unfinished here =>
    exact ⟨⟨pod,stage⟩,here,unfinished,(Option.some.inj taken).symm⟩

theorem arrive_cases (taken : step capacity s (.arrive i) = some t) :
    ∃ pod, s.requests[i]? = some ⟨pod,.dispatched⟩ ∧
      t = { s with requests := s.requests.set i ⟨pod,.running⟩ } := by
  simp only [step] at taken
  split at taken
  · next pod here => exact ⟨pod,here,(Option.some.inj taken).symm⟩
  · contradiction

theorem publish_cases (taken : step capacity s .publish = some t) :
    s.poll = .idle ∧ t = { s with round := [], routable := (discoverWorkers s.round).1 } := by
  simp only [step] at taken
  split at taken
  · next idle => exact ⟨idle,(Option.some.inj taken).symm⟩
  · contradiction

theorem sighted_step {s t : State × Sightings} (taken : (sighted capacity).step s a = some t) :
    step capacity s.1 a = some t.1 ∧ t.2 = s.2.follow s.1 a := by
  obtain ⟨stepped,followed⟩ := Machine.record_step taken
  exact ⟨stepped,(Option.some.inj followed).symm⟩

theorem opened_dispatch (s : State) (pod other : String) :
    s.opened other ⊆ holders (Request.dispatchedTo other) (s.requests ++ [⟨pod,.dispatched⟩]) := by
  rw [holders_append]
  split
  · exact Finset.subset_insert _ _
  · exact Finset.Subset.refl _

theorem opened_finish (here : s.requests[i]? = some r) (counts : InFlight) (other : String) :
    State.opened { s with requests := s.requests.set i ⟨r.pod,.finished⟩, inFlight := counts } other =
      (s.opened other).erase i :=
  holders_set_zero here (by simp [Request.dispatchedTo])

theorem opened_arrive (here : s.requests[i]? = some ⟨pod,.dispatched⟩) (other : String) :
    holders (Request.dispatchedTo other) (s.requests.set i ⟨pod,.running⟩) = s.opened other :=
  holders_set_same here (by simp [Request.dispatchedTo])

theorem opened_apart (here : s.requests[i]? = some r) (apart : name ≠ r.pod) :
    (s.opened name).erase i = s.opened name := by
  refine Finset.erase_eq_of_notMem fun listed => ?_
  obtain ⟨x,at_,pos⟩ := mem_holders.mp listed
  obtain rfl := Option.some.inj (here.symm.trans at_)
  simp [Request.dispatchedTo,Ne.symm apart] at pos

theorem Sampled.initial : Sampled capacity (sighted capacity).initial := by
  refine ⟨fun _ => rfl,?_,?_,rfl,rfl,?_,?_⟩ <;> simp [sighted,Machine.record,machine,Estimate.initial,Backed]

theorem Backed.append {entries : List (Pod × Option Sighting)} {pod : Pod} {seen : Option Sighting}
    (backed : Backed capacity entries)
    (told : ∀ name, pod.name = some name → match seen with
      | none => pod.answer = none
      | some seen => ∃ stats, pod.answer = some (stats,seen.counted.card) ∧
          stats.availableSlots = capacity name - seen.running.card) :
    Backed capacity (entries ++ [(pod,seen)]) := by
  intro other saw name member named
  rcases List.mem_append.mp member with old | new
  · exact backed other saw name old named
  · obtain ⟨rfl,rfl⟩ := Prod.mk.inj (List.mem_singleton.mp new)
    exact told name named

theorem Sampled.step {s t : State × Sightings} (sampled : Sampled capacity s)
    (taken : (sighted capacity).step s a = some t) : Sampled capacity t := by
  obtain ⟨s,seen⟩ := s
  obtain ⟨t,seen'⟩ := t
  have told := sighted_step taken
  clear taken
  obtain ⟨taken,rfl⟩ : Estimate.step capacity s a = some t ∧ seen' = seen.follow s a := told
  obtain ⟨counted,asked,poll,round,routable,backed,used⟩ := sampled
  dsimp only at counted asked poll round routable backed used
  cases a with
  | dispatch pod =>
    obtain rfl := Option.some.inj taken
    refine ⟨fun other => ?_,asked,poll,round,routable,backed,used⟩
    exact (s.inFlight.current_start pod other).trans (counted other ▸ (outstanding_dispatch s pod other).symm)
  | arrive i =>
    obtain ⟨pod,here,rfl⟩ := arrive_cases taken
    exact ⟨fun other => (counted other).trans (outstanding_arrive here other).symm,asked,poll,round,routable,backed,used⟩
  | finish i =>
    obtain ⟨r,here,unfinished,rfl⟩ := finish_cases taken
    refine ⟨fun other => ?_,asked,poll,round,routable,backed,used⟩
    exact (s.inFlight.current_finish r.pod other).trans (counted other ▸ (outstanding_finish here unfinished other).symm)
  | ask pod =>
    simp only [Estimate.step] at taken
    split at taken
    · next idle named =>
      obtain rfl := Option.some.inj taken
      refine ⟨counted,fun p n asked => ?_,by simp,round,routable,backed,used⟩
      obtain ⟨rfl,rfl⟩ := Poll.asked.inj asked
      exact named
    · contradiction
  | skip pod =>
    simp only [Estimate.step] at taken
    split at taken
    · obtain rfl := Option.some.inj taken
      exact ⟨counted,asked,poll,by simp [Sightings.follow,round],routable,backed.append (by simp),used⟩
    · contradiction
  | sample stats =>
    simp only [Estimate.step] at taken
    split at taken
    · next pod name polled =>
      obtain rfl := Option.some.inj taken
      simp only [Sightings.follow,polled]
      refine ⟨counted,by simp,fun p n st found => ?_,round,routable,backed,used⟩
      rcases found with found | found
      · obtain ⟨rfl,rfl,rfl⟩ := Poll.sampled.inj found
        exact ⟨asked _ _ polled,by rw [card_running]⟩
      · cases found
    · contradiction
  | deliver =>
    simp only [Estimate.step] at taken
    split at taken
    · next pod name stats polled =>
      obtain rfl := Option.some.inj taken
      simp only [Sightings.follow,polled]
      refine ⟨counted,by simp,fun p n st found => ?_,round,routable,backed,used⟩
      rcases found with found | found
      · cases found
      · obtain ⟨rfl,rfl,rfl⟩ := Poll.delivered.inj found
        exact poll _ _ _ (.inl polled)
    · contradiction
  | baseline =>
    simp only [Estimate.step] at taken
    split at taken
    · next pod name stats polled =>
      obtain rfl := Option.some.inj taken
      obtain ⟨named,sampled⟩ := poll _ _ _ (.inr polled)
      simp only [Sightings.follow,polled]
      refine ⟨counted,by simp,by simp,by simp [round],routable,backed.append fun other named' => ?_,used⟩
      obtain rfl := Option.some.inj (named.symm.trans named')
      exact ⟨stats,by rw [counted,card_opened],sampled⟩
    · contradiction
  | fail =>
    simp only [Estimate.step] at taken
    split at taken
    · next pod name polled =>
      obtain rfl := Option.some.inj taken
      simp only [Sightings.follow,polled]
      exact ⟨counted,by simp,by simp,by simp [round],routable,backed.append (by simp),used⟩
    · next pod name stats polled =>
      obtain rfl := Option.some.inj taken
      simp only [Sightings.follow,polled]
      exact ⟨counted,by simp,by simp,by simp [round],routable,backed.append (by simp),used⟩
    · contradiction
  | publish =>
    obtain ⟨idle,rfl⟩ := publish_cases taken
    simp only [Sightings.follow]
    exact ⟨counted,by simp [idle],by simp [idle],rfl,by rw [round],by simp [Backed],backed⟩

/-- Every estimate is judged by what its snapshot saw, and by the requests open now. -/
theorem routed_iff {entries : List (Pod × Option Sighting)} (backed : Backed capacity entries)
    (opened : String → Finset Nat) :
    (discoverWorkers (entries.map Prod.fst)).1.All
      (fun _ w => effectiveFreeSlots w (opened w.podName).card ≤ capacity w.podName - (opened w.podName).card) ↔
    EachRouted (fun name seen => seen.Even (capacity name) ∨ seen.Overtaken (capacity name) (opened name)) entries := by
  rw [discoverWorkers_all_iff]
  constructor
  · intro all pod name seen listed usable named
    obtain ⟨stats,answered,sampled⟩ := backed pod (some seen) name listed named
    obtain ⟨scope,w,label,endpoint⟩ := endpoint_of_usable usable
    obtain ⟨named',answered'⟩ := endpoint_eq_some endpoint
    obtain rfl := Option.some.inj (named.symm.trans named')
    obtain ⟨rfl,baseline⟩ := Prod.mk.inj (Option.some.inj (answered'.symm.trans answered))
    have below := all pod (List.mem_map.mpr ⟨_,listed,rfl⟩) scope w label endpoint
    exact (estimate_le_iff w seen _ _ sampled baseline).mp below
  · intro each pod member scope w label endpoint
    obtain ⟨⟨_,seen⟩,listed,rfl⟩ := List.mem_map.mp member
    obtain ⟨named,answered⟩ := endpoint_eq_some endpoint
    have told := backed _ seen w.podName listed named
    cases seen with
    | none => exact absurd (answered.symm.trans told) (by simp)
    | some seen =>
      obtain ⟨stats,answered',sampled⟩ := told
      obtain ⟨rfl,baseline⟩ := Prod.mk.inj (Option.some.inj (answered.symm.trans answered'))
      have usable : ¬Pod.Unusable _ := fun unusable => by
        rw [endpoint_of_unusable unusable label] at endpoint
        contradiction
      exact (estimate_le_iff w seen _ _ sampled baseline).mpr (each _ w.podName seen listed usable named)

theorem neverOver_iff {s : State × Sightings} (sampled : Sampled capacity s) : NeverOver capacity s.1 ↔
    EachRouted (fun name seen =>
      seen.Even (capacity name) ∨ seen.Overtaken (capacity name) (s.1.opened name)) s.2.routable := by
  rw [← routed_iff sampled.backed.2 s.1.opened,← sampled.routable]
  simp only [NeverOver,InFlight.freeSlots,sampled.counted,card_opened]

theorem EachRouted.imp {P Q : String → Sighting → Prop} {entries : List (Pod × Option Sighting)}
    (each : EachRouted P entries) (implies : ∀ name seen, P name seen → Q name seen) : EachRouted Q entries :=
  fun pod name seen listed usable named => implies name seen (each pod name seen listed usable named)

/-- The steps that touch neither the requests open at a pod nor the map in use. -/
theorem step_quiet {s t : State × Sightings} (taken : (sighted capacity).step s a = some t)
    (dispatch : ∀ pod, a ≠ .dispatch pod) (finish : ∀ i, a ≠ .finish i) (publish : a ≠ .publish) :
    t.1.opened = s.1.opened ∧ t.2.routable = s.2.routable := by
  obtain ⟨s,seen⟩ := s
  obtain ⟨t,seen'⟩ := t
  have told := sighted_step taken
  clear taken
  obtain ⟨taken,rfl⟩ : step capacity s a = some t ∧ seen' = seen.follow s a := told
  cases a with
  | dispatch pod => exact absurd rfl (dispatch pod)
  | finish i => exact absurd rfl (finish i)
  | publish => exact absurd rfl publish
  | arrive i =>
    obtain ⟨pod,here,rfl⟩ := arrive_cases taken
    exact ⟨funext fun other => opened_arrive here other,rfl⟩
  | _ =>
    simp only [step] at taken
    split at taken <;> cases taken <;> exact ⟨rfl,by simp_all [Sightings.follow]⟩

theorem NeverOver.step {s t : State × Sightings} (never : NeverOver capacity s.1) (sampled : Sampled capacity s)
    (met : SnapshotsSeen capacity s a) (taken : (sighted capacity).step s a = some t) : NeverOver capacity t.1 := by
  rw [neverOver_iff (sampled.step taken)]
  rw [neverOver_iff sampled] at never
  have told := sighted_step taken
  cases a with
  | dispatch pod =>
    rw [told.2,← Option.some.inj told.1]
    exact never.imp fun name seen => Or.imp_right (.mono (opened_dispatch s.1 pod name))
  | finish i =>
    obtain ⟨r,here,unfinished,same⟩ := finish_cases told.1
    rw [told.2,same]
    intro pod name seen listed usable named
    rw [opened_finish here]
    by_cases own : name = r.pod
    · exact met r here pod name seen listed usable named own
    · rw [opened_apart here own]
      exact never pod name seen listed usable named
  | publish =>
    obtain ⟨_,same⟩ := publish_cases told.1
    rw [told.2,same]
    exact met
  | _ =>
    obtain ⟨opened,used⟩ := step_quiet taken (by simp) (by simp) (by simp)
    rw [used,opened]
    exact never

theorem NeverOver.broken {s t : State × Sightings} (sampled : Sampled capacity s) (unmet : ¬SnapshotsSeen capacity s a)
    (taken : (sighted capacity).step s a = some t) : ¬NeverOver capacity t.1 := by
  intro never
  rw [neverOver_iff (sampled.step taken)] at never
  have told := sighted_step taken
  apply unmet
  cases a with
  | finish i =>
    obtain ⟨r,here,unfinished,same⟩ := finish_cases told.1
    rw [told.2,same] at never
    intro other here' pod name seen listed usable named own
    obtain rfl := Option.some.inj (here.symm.trans here')
    rw [← opened_finish here (s.1.inFlight.finish r.pod)]
    exact never pod name seen listed usable named
  | publish =>
    obtain ⟨_,same⟩ := publish_cases told.1
    rw [told.2,same] at never
    exact never
  | _ => trivial

/-- The estimate is never over what is free, in a run, exactly when each snapshot that comes into
use, or by which a pod in use is judged when one of its requests finishes, has a baseline that
counts no more requests the sample missed than the sample saw that were over by then, or is
overtaken by the requests dispatched since. -/
theorem never_over_iff (capacity : String → Nat) (actions : List Action) :
    (sighted capacity).Along (fun s => NeverOver capacity s.1) actions (sighted capacity).initial ↔
      (sighted capacity).Meets (SnapshotsSeen capacity) actions (sighted capacity).initial := by
  refine Machine.along_iff_meets (I := Sampled capacity) (J := fun s => NeverOver capacity s.1) ?_ ?_ ?_ ?_ actions
    (sighted capacity).initial Sampled.initial (fun _ _ found => nomatch found)
  · exact fun s a t sampled taken => sampled.step taken
  · exact fun s _ never => never
  · exact fun s a t sampled never met taken => never.step sampled met taken
  · exact fun s a t sampled unmet taken => NeverOver.broken sampled unmet taken

def sampledTooEarly : List Action :=
  [.dispatch "web-0",.ask ⟨some "web-0",some "web",true,false,some "10.0.0.1",none⟩,.sample {},
    .deliver,.baseline,.publish]

/-- The worker of one slot is taken, and shows one free. -/
theorem estimate_over_reports : ∃ s w, (machine fun _ => 1).exec sampledTooEarly initial = some s ∧
    s.routable "web" = some [w] ∧ w.podName = "web-0" ∧ s.outstanding "web-0" = 1 ∧
    s.inFlight.freeSlots w = 1 ∧ ¬NeverOver (fun _ => 1) s := by
  obtain ⟨s,w,ran,listed,name,taken,free⟩ : ∃ s w,
      (machine fun _ => 1).exec sampledTooEarly initial = some s ∧ s.routable "web" = some [w] ∧
      w.podName = "web-0" ∧ s.outstanding "web-0" = 1 ∧ s.inFlight.freeSlots w = 1 :=
    ⟨_,_,rfl,rfl,rfl,by decide +kernel,by decide +kernel⟩
  refine ⟨s,w,ran,listed,name,taken,free,fun never => ?_⟩
  have bound : s.inFlight.freeSlots w ≤ 1 - s.outstanding w.podName :=
    never _ _ listed w List.mem_cons_self
  rw [name,taken,free] at bound
  exact absurd bound (by decide)

end BrowserHive.Coordinator.Estimate
