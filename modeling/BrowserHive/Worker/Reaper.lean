import BrowserHive.Lib.Tasks
import BrowserHive.Lib.Transition

/-! The sweep that collects the zombies a worker inherits, beside the browser launches it
must not disturb. A sweep lists `/proc`, reads a `stat` file and waits for a process in
separate steps, between which processes start, exit, are collected and have their PIDs used
again. The registry's lock is held by the sweep for its whole length. -/
namespace BrowserHive.Worker.Reaper

open Transition

/-- An entry of the process table. `child` tells whether its parent is the worker; `owner`
is a ghost, the launch whose `Browser::new` spawned it. -/
structure Process where
  pid : Nat
  child : Bool
  zombie : Bool
  owner : Option Nat
  deriving DecidableEq, Repr

/-- One `BrowserPool::new`, from `begin_launch` to the drop of its guard. -/
inductive Launch where
  | launching
  | spawned (pid : Nat)
  | succeeded (pid : Nat)
  /-- A browser without a process of its own. -/
  | processless
  | registered
  | failed
  | finished
  deriving DecidableEq, Repr

/-- A `LaunchGuard` is alive. -/
def Launch.guards : Launch → Nat
  | .finished => 0
  | _ => 1

inductive Stage where
  | listing
  | reading (pid : Nat)
  | reaping (pid : Nat)
  deriving DecidableEq, Repr

/-- A sweep in progress. `throughout` is a ghost: the PIDs of the processes that have
existed since the listing began. -/
structure Sweep where
  stage : Stage
  alive : List Nat
  reaped : Nat
  throughout : List Nat
  deriving DecidableEq, Repr

structure State where
  procs : List Process
  launches : List Launch
  /-- Launches whose PID is not known yet. -/
  launching : Nat
  /-- PIDs that were launched and may still be owned. -/
  launched : List Nat
  sweep : Option Sweep
  deriving DecidableEq, Repr

inductive LaunchAction where
  | beginLaunch
  | spawn (launch pid : Nat)
  | succeed (launch : Nat)
  | connect (launch : Nat)
  | fail (launch : Nat)
  | launched (launch : Nat)
  | dropGuard (launch : Nat)
  deriving DecidableEq, Repr

inductive KernelAction where
  /-- The owner of a browser process waits for it. -/
  | collect (pid : Nat)
  /-- Any other process starts, or is collected by its parent. -/
  | fork (pid : Nat)
  | vanish (pid : Nat)
  | exit (pid : Nat)
  | reparent (pid : Nat)
  deriving DecidableEq, Repr

inductive SweepAction where
  | begin
  | list (pid : Nat)
  | unreadable
  | stat
  | waitpid
  | finish
  deriving DecidableEq, Repr

inductive Action where
  | launch (action : LaunchAction)
  | kernel (action : KernelAction)
  | sweep (action : SweepAction)
  deriving DecidableEq, Repr

namespace State

def free (s : State) (pid : Nat) : Bool := s.procs.all (fun p => p.pid ≠ pid)

def remove (s : State) (pid : Nat) : State :=
  { s with
    procs := s.procs.filter (fun p => p.pid ≠ pid)
    sweep := s.sweep.map fun sweep =>
      { sweep with throughout := sweep.throughout.filter (· ≠ pid) } }

def modify (s : State) (pid : Nat) (f : Process → Process) : State :=
  { s with procs := s.procs.map (fun p => if p.pid = pid then f p else p) }

def goto (s : State) (i : Nat) (launch : Launch) : State := { s with launches := s.launches.set i launch }

/-- `waitpid` collects the process if it is an exited child. -/
def collectable (s : State) (pid : Nat) : Bool :=
  s.procs.any (fun p => p.pid = pid ∧ p.child ∧ p.zombie)

end State

def launchStep (s : State) : LaunchAction → Option State
  | .beginLaunch =>
    if s.sweep.isNone then
      some { s with launches := s.launches ++ [.launching], launching := s.launching + 1 }
    else none
  | .spawn i pid =>
    match s.launches[i]? with
    | some .launching =>
      if s.free pid then
        some { s.goto i (.spawned pid) with procs := s.procs ++ [⟨pid,true,false,some i⟩] }
      else none
    | _ => none
  | .succeed i =>
    match s.launches[i]? with
    | some (.spawned pid) => some (s.goto i (.succeeded pid))
    | _ => none
  | .connect i =>
    match s.launches[i]? with
    | some .launching => some (s.goto i .processless)
    | _ => none
  | .fail i =>
    match s.launches[i]? with
    | some .launching => some (s.goto i .failed)
    | some (.spawned _) =>
      -- a failing `Browser::new` has waited for its child before it returns
      if s.procs.all (fun p => p.owner ≠ some i) then some (s.goto i .failed) else none
    | _ => none
  | .launched i =>
    match s.launches[i]?,s.sweep with
    | some (.succeeded pid),none => some { s.goto i .registered with launched := pid :: s.launched }
    -- without a PID the registry is not locked
    | some .processless,_ => some (s.goto i .registered)
    | _,_ => none
  | .dropGuard i =>
    match s.launches[i]?,s.sweep with
    | some .registered,none | some .failed,none =>
      some { s.goto i .finished with launching := s.launching - 1 }
    | _,_ => none

def kernelStep (s : State) : KernelAction → Option State
  | .collect pid =>
    if s.procs.any (fun p => p.pid = pid ∧ p.zombie ∧ p.owner.isSome) then some (s.remove pid) else none
  | .fork pid => if s.free pid then some { s with procs := s.procs ++ [⟨pid,false,false,none⟩] } else none
  | .vanish pid =>
    if s.procs.all (fun p => p.pid = pid → p.owner.isNone) then some (s.remove pid) else none
  | .exit pid => some (s.modify pid (fun p => { p with zombie := true }))
  | .reparent pid => some (s.modify pid (fun p => { p with child := true }))

/-- `reap_orphan_zombies`. -/
def sweepStep (s : State) : SweepAction → Option State
  | .begin =>
    match s.sweep with
    | none =>
      if s.launching > 0 then some s
      else some { s with sweep := some ⟨.listing,[],0,s.procs.map Process.pid⟩ }
    | some _ => none
  | .list pid =>
    match s.sweep with
    | some ⟨.listing,alive,reaped,throughout⟩ =>
      some { s with sweep := some ⟨.reading pid,pid :: alive,reaped,throughout⟩ }
    | _ => none
  | .unreadable =>
    match s.sweep with
    | some ⟨.reading _,alive,reaped,throughout⟩ =>
      some { s with sweep := some ⟨.listing,alive,reaped,throughout⟩ }
    | _ => none
  | .stat =>
    match s.sweep with
    | some ⟨.reading pid,alive,reaped,throughout⟩ =>
      match s.procs.find? (fun p => p.pid = pid) with
      | some p =>
        if p.zombie ∧ p.child ∧ pid ∉ s.launched then
          some { s with sweep := some ⟨.reaping pid,alive,reaped,throughout⟩ }
        else some { s with sweep := some ⟨.listing,alive,reaped,throughout⟩ }
      | none => some { s with sweep := some ⟨.listing,alive,reaped,throughout⟩ }
    | _ => none
  | .waitpid =>
    match s.sweep with
    | some ⟨.reaping pid,alive,reaped,throughout⟩ =>
      if s.collectable pid then
        let next : State := { s with sweep := some ⟨.listing,alive,reaped + 1,throughout⟩ }
        some (next.remove pid)
      else some { s with sweep := some ⟨.listing,alive,reaped,throughout⟩ }
    | _ => none
  | .finish =>
    match s.sweep with
    | some ⟨.listing,alive,_,throughout⟩ =>
      -- a process that exists during the whole listing is listed
      if throughout.all (· ∈ alive) then
        some { s with launched := s.launched.filter (· ∈ alive), sweep := none }
      else none
    | _ => none

def step (s : State) : Action → Option State
  | .launch action => launchStep s action
  | .kernel action => kernelStep s action
  | .sweep action => sweepStep s action

def machine : Machine State Action := ⟨⟨[],[],0,[],none⟩,step⟩

/-- The launch is still in progress, or has registered the PID. -/
def Known (s : State) (i pid : Nat) : Prop :=
  s.launches[i]? = some (.spawned pid) ∨ s.launches[i]? = some (.succeeded pid) ∨ pid ∈ s.launched

structure Safe (s : State) : Prop where
  counted : s.launching = Tasks.weigh Launch.guards s.launches
  known : ∀ p ∈ s.procs, ∀ i, p.owner = some i → Known s i p.pid
  quiet : s.sweep ≠ none → s.launching = 0
  present : ∀ sweep, s.sweep = some sweep → ∀ p ∈ s.procs, p.owner ≠ none → p.pid ∈ sweep.throughout
  orphan : ∀ sweep, s.sweep = some sweep → ∀ pid, sweep.stage = .reaping pid → pid ∉ s.launched

section Safe

variable {s t : State} {p : Process} {current : Launch} {before : Sweep} {i : Nat}

theorem Safe.initial : Safe machine.initial := by
  refine ⟨rfl,?_,?_,?_,?_⟩ <;> simp [machine]

/-- While a sweep holds the registry every launch is over. -/
theorem Safe.finished (safe : Safe s) (sweeping : s.sweep ≠ none) (here : s.launches[i]? = some current) :
    current = .finished := by
  have none_ := safe.quiet sweeping
  have guarded := Tasks.weight_le (w := Launch.guards) here
  rw [← safe.counted,none_] at guarded
  cases current with
  | finished => rfl
  | _ => simp [Launch.guards] at guarded

theorem Safe.registered (safe : Safe s) (sweeping : s.sweep ≠ none) (here : p ∈ s.procs)
    (owned : p.owner = some i) : p.pid ∈ s.launched := by
  rcases safe.known p here i owned with spawned | succeeded | registered
  · cases safe.finished sweeping spawned
  · cases safe.finished sweeping succeeded
  · exact registered

/-- A launch moves on, outside any sweep. What it owned it still knows of. -/
theorem Safe.goto (safe : Safe s) (here : s.launches[i]? = some current) (live : current ≠ .finished)
    (next : Launch) (launching : Nat) (launched : List Nat)
    (counted : launching + current.guards = s.launching + next.guards) (grown : ∀ pid ∈ s.launched, pid ∈ launched)
    (knows : ∀ p ∈ s.procs, p.owner = some i → current = .spawned p.pid ∨ current = .succeeded p.pid →
      next = .spawned p.pid ∨ next = .succeeded p.pid ∨ p.pid ∈ launched) :
    Safe { s.goto i next with launching := launching, launched := launched } := by
  have calm : s.sweep = none :=
    Classical.byContradiction fun sweeping => live (safe.finished sweeping here)
  have inside := (List.getElem?_eq_some_iff.mp here).1
  refine ⟨?_,fun p member j owned => ?_,fun sweeping => absurd calm sweeping,?_,?_⟩
  · have moved := Tasks.weigh_set (w := Launch.guards) here next
    have before := safe.counted
    change launching = Tasks.weigh Launch.guards (s.launches.set i next)
    omega
  · have known := safe.known p member j owned
    unfold Known State.goto
    by_cases same : j = i
    · subst same
      rw [List.getElem?_set_self inside]
      simp only [Option.some.injEq]
      rcases known with spawned | succeeded | registered
      · exact knows p member owned (.inl (Option.some.inj (here.symm.trans spawned)))
      · exact knows p member owned (.inr (Option.some.inj (here.symm.trans succeeded)))
      · exact .inr (.inr (grown _ registered))
    · rw [List.getElem?_set_ne (fun equal => same equal.symm)]
      exact known.imp id (Or.imp id (grown _))
  · intro sweep sweeping
    simp [State.goto,calm] at sweeping
  · intro sweep sweeping
    simp [State.goto,calm] at sweeping

/-- A launch that has spawned nothing moves on. -/
theorem Safe.quietly (safe : Safe s) (here : s.launches[i]? = some current) (live : current ≠ .finished)
    (none_ : ∀ pid, current ≠ .spawned pid ∧ current ≠ .succeeded pid) (next : Launch)
    (guarded : current.guards = next.guards) : Safe (s.goto i next) := by
  refine safe.goto here live next s.launching s.launched (by rw [guarded]) (fun _ member => member) ?_
  rintro p _ _ (spawned | succeeded)
  · exact absurd spawned (none_ p.pid).1
  · exact absurd succeeded (none_ p.pid).2

/-- A process leaves the table. -/
theorem Safe.remove (safe : Safe s) (pid : Nat) : Safe (s.remove pid) := by
  have stays : ∀ p ∈ (s.remove pid).procs, p ∈ s.procs ∧ p.pid ≠ pid := by
    intro p member
    obtain ⟨member,apart⟩ := List.mem_filter.mp member
    exact ⟨member,by simpa using apart⟩
  refine ⟨safe.counted,fun p member => safe.known p (stays p member).1,fun sweeping => ?_,?_,?_⟩
  · exact safe.quiet fun calm => sweeping (by simp [State.remove,calm])
  · intro sweep sweeping p member owned
    obtain ⟨before,found,rfl⟩ := Option.map_eq_some_iff.mp sweeping
    obtain ⟨member,apart⟩ := stays p member
    exact List.mem_filter.mpr ⟨safe.present before found p member owned,by simpa using apart⟩
  · intro sweep sweeping other reaping
    obtain ⟨before,found,rfl⟩ := Option.map_eq_some_iff.mp sweeping
    exact safe.orphan before found other reaping

/-- The table changes in what a sweep does not rely on. -/
theorem Safe.table (safe : Safe s) (procs : List Process)
    (same : ∀ p ∈ procs, p.owner ≠ none → ∃ q ∈ s.procs, q.pid = p.pid ∧ q.owner = p.owner) :
    Safe { s with procs := procs } := by
  refine ⟨safe.counted,fun p member i owned => ?_,safe.quiet,fun sweep sweeping p member owned => ?_,
    safe.orphan⟩
  · obtain ⟨q,before,pid,owner⟩ := same p member (by simp [owned])
    exact pid ▸ safe.known q before i (owner.trans owned)
  · obtain ⟨q,before,pid,owner⟩ := same p member owned
    exact pid ▸ safe.present sweep sweeping q before (owner ▸ owned)

theorem Safe.modify (safe : Safe s) (pid : Nat) (f : Process → Process)
    (keeps : ∀ p, (f p).pid = p.pid ∧ (f p).owner = p.owner) : Safe (s.modify pid f) := by
  apply safe.table
  intro p member _
  obtain ⟨q,before,rfl⟩ := List.mem_map.mp member
  refine ⟨q,before,?_⟩
  by_cases same : q.pid = pid
  · rw [if_pos same]
    exact ⟨(keeps q).1.symm,(keeps q).2.symm⟩
  · rw [if_neg same]
    exact ⟨rfl,rfl⟩

/-- A sweep goes on with its listing. -/
theorem Safe.resume (safe : Safe s) (sweeping : s.sweep = some before) (sweep : Sweep)
    (same : sweep.throughout = before.throughout)
    (spared : ∀ pid, sweep.stage = .reaping pid → pid ∉ s.launched) : Safe { s with sweep := some sweep } := by
  refine ⟨safe.counted,safe.known,fun _ => safe.quiet (by simp [sweeping]),?_,?_⟩
  · intro other found p member owned
    obtain rfl := Option.some.inj found
    exact same ▸ safe.present before sweeping p member owned
  · intro other found
    obtain rfl := Option.some.inj found
    exact spared

/-- A launch begins, outside any sweep. -/
theorem Safe.begin (safe : Safe s) (calm : s.sweep = none) :
    Safe { s with launches := s.launches ++ [.launching], launching := s.launching + 1 } := by
  refine ⟨by simp [safe.counted,Launch.guards],fun p member i owned => ?_,fun sweeping => absurd calm sweeping,
    safe.present,safe.orphan⟩
  have grown : ∀ l, s.launches[i]? = some l → (s.launches ++ [Launch.launching])[i]? = some l := fun l found =>
    (List.getElem?_append_left (List.getElem?_eq_some_iff.mp found).1).trans found
  exact (safe.known p member i owned).imp (grown _) (Or.imp_left (grown _))

/-- Its browser is spawned, and the launch knows of it. -/
theorem Safe.spawn (safe : Safe s) (here : s.launches[i]? = some .launching) (pid : Nat) :
    Safe { s.goto i (.spawned pid) with procs := s.procs ++ [⟨pid,true,false,some i⟩] } := by
  have inside := (List.getElem?_eq_some_iff.mp here).1
  have calm : s.sweep = none :=
    Classical.byContradiction fun sweeping => by cases safe.finished sweeping here
  have moved : Safe (s.goto i (.spawned pid)) := by
    apply safe.goto here (by simp) (.spawned pid) s.launching s.launched rfl (fun _ member => member)
    rintro p _ _ (spawned | succeeded)
    · cases spawned
    · cases succeeded
  refine ⟨moved.counted,fun p member j owned => ?_,moved.quiet,fun sweep sweeping => ?_,moved.orphan⟩
  · rcases List.mem_append.mp member with old | new
    · exact moved.known p old j owned
    · obtain rfl := List.mem_singleton.mp new
      obtain rfl := Option.some.inj owned
      exact .inl (List.getElem?_set_self inside)
  · simp [State.goto,calm] at sweeping

/-- The guard of a launch that is over is dropped. -/
theorem Safe.dropGuard (safe : Safe s) (here : s.launches[i]? = some current)
    (ended : current = .registered ∨ current = .failed) :
    Safe { s.goto i .finished with launching := s.launching - 1 } := by
  have guarded := Tasks.weight_le (w := Launch.guards) here
  rw [← safe.counted] at guarded
  refine safe.goto here (by rcases ended with rfl | rfl <;> simp) .finished _ s.launched ?_
    (fun _ member => member) ?_
  · rcases ended with rfl | rfl <;> simp only [Launch.guards] at guarded ⊢ <;> omega
  · intro p _ _ pending
    rcases ended with rfl | rfl <;> simp at pending

theorem Safe.launch (safe : Safe s) (taken : launchStep s action = some t) : Safe t := by
  cases action with
  | beginLaunch =>
    simp only [launchStep,Option.isNone_iff_eq_none] at taken
    split at taken
    · next calm => exact Option.some.inj taken ▸ safe.begin calm
    · contradiction
  | spawn i pid =>
    simp only [launchStep] at taken
    split at taken
    · next here =>
      split at taken
      · exact Option.some.inj taken ▸ safe.spawn here pid
      · contradiction
    · contradiction
  | succeed i =>
    simp only [launchStep] at taken
    split at taken
    · next pid here =>
      obtain rfl := Option.some.inj taken
      apply safe.goto here (by simp) (.succeeded pid) s.launching s.launched rfl (fun _ member => member)
      rintro p _ _ (spawned | succeeded)
      · exact .inr (.inl (by rw [Launch.spawned.inj spawned]))
      · cases succeeded
    · contradiction
  | connect i =>
    simp only [launchStep] at taken
    split at taken
    · next here => exact Option.some.inj taken ▸ safe.quietly here (by simp) (by simp) .processless rfl
    · contradiction
  | fail i =>
    simp only [launchStep] at taken
    split at taken
    · next here => exact Option.some.inj taken ▸ safe.quietly here (by simp) (by simp) .failed rfl
    · next pid here =>
      split at taken
      · next waited =>
        obtain rfl := Option.some.inj taken
        apply safe.goto here (by simp) .failed s.launching s.launched rfl (fun _ member => member)
        intro p member owned
        have free := List.all_eq_true.mp waited p member
        simp [owned] at free
      · contradiction
    · contradiction
  | launched i =>
    simp only [launchStep] at taken
    split at taken
    · next pid here calm =>
      obtain rfl := Option.some.inj taken
      refine safe.goto here (by simp) .registered s.launching (pid :: s.launched) rfl
        (fun _ member => List.mem_cons_of_mem _ member) ?_
      rintro p _ _ (spawned | succeeded)
      · cases spawned
      · exact .inr (.inr (by rw [Launch.succeeded.inj succeeded]; exact List.mem_cons_self))
    · next here => exact Option.some.inj taken ▸ safe.quietly here (by simp) (by simp) .registered rfl
    · contradiction
  | dropGuard i =>
    simp only [launchStep] at taken
    split at taken
    · next here calm => exact Option.some.inj taken ▸ safe.dropGuard here (.inl rfl)
    · next here calm => exact Option.some.inj taken ▸ safe.dropGuard here (.inr rfl)
    · contradiction

theorem Safe.kernel (safe : Safe s) (taken : kernelStep s action = some t) : Safe t := by
  cases action with
  | collect pid =>
    simp only [kernelStep] at taken
    split at taken
    · exact Option.some.inj taken ▸ safe.remove pid
    · contradiction
  | vanish pid =>
    simp only [kernelStep] at taken
    split at taken
    · exact Option.some.inj taken ▸ safe.remove pid
    · contradiction
  | fork pid =>
    simp only [kernelStep] at taken
    split at taken
    · obtain rfl := Option.some.inj taken
      apply safe.table
      intro p member owned
      rcases List.mem_append.mp member with old | new
      · exact ⟨p,old,rfl,rfl⟩
      · obtain rfl := List.mem_singleton.mp new
        exact absurd rfl owned
    · contradiction
  | exit pid =>
    exact Option.some.inj taken ▸ safe.modify pid (fun p => { p with zombie := true }) fun _ => ⟨rfl,rfl⟩
  | reparent pid =>
    exact Option.some.inj taken ▸ safe.modify pid (fun p => { p with child := true }) fun _ => ⟨rfl,rfl⟩

/-- A sweep's step keeps every owned process and forgets none of their PIDs. -/
structure Spares (s t : State) : Prop where
  safe : Safe t
  procs : ∀ p ∈ s.procs, p.owner ≠ none → p ∈ t.procs
  launched : ∀ p ∈ s.procs, p.owner ≠ none → p.pid ∈ s.launched → p.pid ∈ t.launched

/-- A stage of the sweep that changes nothing but the sweep. -/
theorem Safe.spares (safe : Safe s) (sweeping : s.sweep = some before) (sweep : Sweep)
    (same : sweep.throughout = before.throughout)
    (spared : ∀ pid, sweep.stage = .reaping pid → pid ∉ s.launched) : Spares s { s with sweep := some sweep } :=
  ⟨safe.resume sweeping sweep same spared,fun _ member _ => member,fun _ _ _ member => member⟩

/-- A sweep begins with the table as it is. -/
theorem Safe.startSweep (safe : Safe s) (idle : s.launching = 0) :
    Spares s { s with sweep := some ⟨.listing,[],0,s.procs.map Process.pid⟩ } := by
  refine ⟨⟨safe.counted,safe.known,fun _ => idle,?_,?_⟩,fun _ member _ => member,fun _ _ _ member => member⟩
  · intro sweep found p member _
    obtain rfl := Option.some.inj found
    exact List.mem_map_of_mem member
  · intro sweep found pid reaping
    obtain rfl := Option.some.inj found
    cases reaping

/-- The registry keeps what was listed, and an owned process has existed during the whole
listing. -/
theorem Safe.finishSweep (safe : Safe s) {alive throughout : List Nat}
    (sweeping : s.sweep = some ⟨.listing,alive,reaped,throughout⟩) (listed : throughout.all (· ∈ alive)) :
    Spares s { s with launched := s.launched.filter (· ∈ alive), sweep := none } := by
  have kept : ∀ p ∈ s.procs, p.owner ≠ none → p.pid ∈ s.launched → p.pid ∈ s.launched.filter (· ∈ alive) := by
    intro p member owned registered
    have present := safe.present _ sweeping p member owned
    exact List.mem_filter.mpr ⟨registered,List.all_eq_true.mp listed p.pid present⟩
  refine ⟨⟨safe.counted,fun p member i owned => ?_,fun other => absurd rfl other,by simp,by simp⟩,
    fun _ member _ => member,kept⟩
  have registered := safe.registered (by simp [sweeping]) member owned
  exact .inr (.inr (kept p member (by simp [owned]) registered))

theorem Safe.sweep (safe : Safe s) (taken : sweepStep s action = some t) : Spares s t := by
  cases action with
  | begin =>
    simp only [sweepStep] at taken
    split at taken
    · next calm =>
      split at taken
      · exact Option.some.inj taken ▸ ⟨safe,fun _ member _ => member,fun _ _ _ member => member⟩
      · next idle => exact Option.some.inj taken ▸ safe.startSweep (Nat.eq_zero_of_not_pos idle)
    · contradiction
  | list pid =>
    simp only [sweepStep] at taken
    split at taken
    · next sweeping => exact Option.some.inj taken ▸ safe.spares sweeping _ rfl (by simp)
    · contradiction
  | unreadable =>
    simp only [sweepStep] at taken
    split at taken
    · next sweeping => exact Option.some.inj taken ▸ safe.spares sweeping _ rfl (by simp)
    · contradiction
  | stat =>
    simp only [sweepStep] at taken
    split at taken
    · next pid alive reaped throughout sweeping =>
      split at taken
      · split at taken
        · next orphan =>
          refine Option.some.inj taken ▸ safe.spares sweeping _ rfl fun other reaping => ?_
          obtain rfl := Stage.reaping.inj reaping
          exact orphan.2.2
        · exact Option.some.inj taken ▸ safe.spares sweeping _ rfl (by simp)
      · exact Option.some.inj taken ▸ safe.spares sweeping _ rfl (by simp)
    · contradiction
  | waitpid =>
    simp only [sweepStep] at taken
    split at taken
    · next pid alive reaped throughout sweeping =>
      have orphan := safe.orphan _ sweeping pid rfl
      split at taken
      · obtain rfl := Option.some.inj taken
        have resumed := safe.resume sweeping ⟨.listing,alive,reaped + 1,throughout⟩ rfl (by simp)
        refine ⟨resumed.remove pid,fun p member owned => ?_,fun _ _ _ member => member⟩
        obtain ⟨i,owner⟩ := Option.ne_none_iff_exists'.mp owned
        have registered := safe.registered (by simp [sweeping]) member owner
        refine List.mem_filter.mpr ⟨member,?_⟩
        simp only [decide_eq_true_eq]
        rintro rfl
        exact orphan registered
      · exact Option.some.inj taken ▸ safe.spares sweeping _ rfl (by simp)
    · contradiction
  | finish =>
    simp only [sweepStep] at taken
    split at taken
    · next alive reaped throughout sweeping =>
      split at taken
      · next listed => exact Option.some.inj taken ▸ safe.finishSweep sweeping listed
      · contradiction
    · contradiction

theorem Safe.step (safe : Safe s) (taken : Reaper.step s action = some t) : Safe t := by
  cases action with
  | launch action => exact safe.launch taken
  | kernel action => exact safe.kernel taken
  | sweep action => exact (safe.sweep taken).safe

end Safe

theorem safe_of_reachable (run : machine.Reachable s) : Safe s :=
  run.invariant Safe.initial (fun _ _ _ _ safe taken => safe.step taken)

/-- Whatever the interleaving: a process that its launch still owns is one the registry
knows of or whose launch guard is alive, no step of a sweep collects it, and none forgets
its PID. -/
theorem owned_child_spared (s : State) (run : machine.Reachable s) (p : Process) (here : p ∈ s.procs) (i : Nat)
    (owned : p.owner = some i) : Known s i p.pid ∧
    ∀ action t, machine.step s (.sweep action) = some t →
      p ∈ t.procs ∧ (p.pid ∈ s.launched → p.pid ∈ t.launched) := by
  have safe := safe_of_reachable run
  refine ⟨safe.known p here i owned,fun action t taken => ?_⟩
  have spared : Spares s t := safe.sweep taken
  exact ⟨spared.procs p here (by simp [owned]),spared.launched p here (by simp [owned])⟩

def sweepsOrphan : List Action :=
  [.launch .beginLaunch,.launch (.spawn 0 10),.launch (.succeed 0),.launch (.launched 0),
    .launch (.dropGuard 0),.kernel (.fork 20),.kernel (.reparent 20),.kernel (.exit 20),.kernel (.exit 10),
    .sweep .begin,.sweep (.list 10),.sweep .stat,.sweep (.list 20),.sweep .stat]

theorem owned_child_spared_zombie : ∃ s t, machine.exec sweepsOrphan machine.initial = some s ∧
    machine.step s (.sweep .waitpid) = some t ∧ t.procs = [⟨10,true,true,some 0⟩] ∧
    Known s 0 10 ∧ (10 ∈ s.launched → 10 ∈ t.launched) := by
  obtain ⟨s,t,ran,taken,here,left⟩ : ∃ s t, machine.exec sweepsOrphan machine.initial = some s ∧
      machine.step s (.sweep .waitpid) = some t ∧ ⟨10,true,true,some 0⟩ ∈ s.procs ∧
      t.procs = [⟨10,true,true,some 0⟩] := ⟨_,_,rfl,rfl,by decide,rfl⟩
  obtain ⟨known,spared⟩ := owned_child_spared s (Machine.reachable_of_exec ran) _ here 0 rfl
  exact ⟨s,t,ran,taken,left,known,(spared _ t taken).2⟩

end BrowserHive.Worker.Reaper
