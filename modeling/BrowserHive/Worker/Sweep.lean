import BrowserHive.Lib.Keyed
import BrowserHive.Worker.Reaper

/-! What a sweep leaves behind: no zombie the worker had inherited when it began. -/
namespace BrowserHive.Worker.Reaper

open Transition

/-- The `stat` file of a process that is there can be read. -/
def Reads (s : State) : Action → Prop
  | .sweep .unreadable => ∀ sweep pid, s.sweep = some sweep → sweep.stage = .reading pid → s.free pid = true
  | _ => True

/-- A zombie child of the worker that no launch has registered. -/
def State.Orphan (s : State) (pid : Nat) : Prop :=
  (∃ p ∈ s.procs, p.pid = pid ∧ p.child = true ∧ p.zombie = true) ∧ pid ∉ s.launched

/-- A sweep in progress has yet to list these PIDs, is at work on one, or has seen it go. -/
structure Pursues (pids : List Nat) (s : State) (sweep : Sweep) : Prop where
  sweeping : s.sweep = some sweep
  orphans : ∀ pid ∈ pids, pid ∈ sweep.throughout → s.Orphan pid
  current : ∀ pid ∈ pids, pid ∈ sweep.throughout → pid ∈ sweep.alive →
    sweep.stage = .reading pid ∨ sweep.stage = .reaping pid

inductive Swept (s : State) : SweepAction → State → Prop where
  | skip : Swept s .begin s
  | begin (calm : s.sweep = none) : Swept s .begin { s with sweep := some ⟨.listing,[],0,s.procs.map Process.pid⟩ }
  | list (pid : Nat) (at_ : s.sweep = some ⟨.listing,alive,reaped,throughout⟩) :
      Swept s (.list pid) { s with sweep := some ⟨.reading pid,pid :: alive,reaped,throughout⟩ }
  | unreadable (at_ : s.sweep = some ⟨.reading pid,alive,reaped,throughout⟩) :
      Swept s .unreadable { s with sweep := some ⟨.listing,alive,reaped,throughout⟩ }
  | orphan (at_ : s.sweep = some ⟨.reading pid,alive,reaped,throughout⟩) :
      Swept s .stat { s with sweep := some ⟨.reaping pid,alive,reaped,throughout⟩ }
  | other (at_ : s.sweep = some ⟨.reading pid,alive,reaped,throughout⟩)
      (no : ∀ p, s.procs.find? (fun p => p.pid = pid) = some p → ¬(p.zombie ∧ p.child ∧ pid ∉ s.launched)) :
      Swept s .stat { s with sweep := some ⟨.listing,alive,reaped,throughout⟩ }
  | reap (at_ : s.sweep = some ⟨.reaping pid,alive,reaped,throughout⟩) :
      Swept s .waitpid (State.remove { s with sweep := some ⟨.listing,alive,reaped + 1,throughout⟩ } pid)
  | miss (at_ : s.sweep = some ⟨.reaping pid,alive,reaped,throughout⟩) (missed : s.collectable pid = false) :
      Swept s .waitpid { s with sweep := some ⟨.listing,alive,reaped,throughout⟩ }
  | finish (at_ : s.sweep = some ⟨.listing,alive,reaped,throughout⟩) (listed : throughout.all (· ∈ alive) = true) :
      Swept s .finish { s with launched := s.launched.filter (· ∈ alive), sweep := none }

section Table

variable {s t : State} {pids : List Nat} {sweep : Sweep}

theorem unique_append (unique : (s.procs.map Process.pid).Nodup) (free : s.free p.pid = true) :
    ((s.procs ++ [p]).map Process.pid).Nodup := by
  rw [List.map_append,List.nodup_append]
  refine ⟨unique,by simp,?_⟩
  intro pid member other new same
  obtain ⟨q,there,rfl⟩ := List.mem_map.mp member
  have apart : q.pid ≠ p.pid := by simpa using List.all_eq_true.mp free q there
  simp_all

theorem unique_remove (unique : (s.procs.map Process.pid).Nodup) (pid : Nat) :
    ((s.remove pid).procs.map Process.pid).Nodup :=
  unique.sublist ((List.filter_sublist).map _)

theorem modify_pids (s : State) (pid : Nat) (keeps : ∀ p, (f p).pid = p.pid) :
    (s.modify pid f).procs.map Process.pid = s.procs.map Process.pid := by
  simp only [State.modify,List.map_map]
  refine List.map_congr_left fun p _ => ?_
  by_cases same : p.pid = pid <;> simp [same,keeps]

theorem unique_launch (unique : (s.procs.map Process.pid).Nodup) (taken : launchStep s action = some t) :
    (t.procs.map Process.pid).Nodup := by
  cases action with
  | spawn i pid =>
    simp only [launchStep] at taken
    split at taken
    · split at taken
      · next free => exact Option.some.inj taken ▸ unique_append unique free
      · contradiction
    · contradiction
  | beginLaunch =>
    simp only [launchStep] at taken
    split at taken
    · exact Option.some.inj taken ▸ unique
    · contradiction
  | fail i =>
    simp only [launchStep] at taken
    split at taken
    · exact Option.some.inj taken ▸ unique
    · split at taken
      · exact Option.some.inj taken ▸ unique
      · contradiction
    · contradiction
  | succeed i | connect i =>
    simp only [launchStep] at taken
    split at taken
    · exact Option.some.inj taken ▸ unique
    · contradiction
  | launched i | dropGuard i =>
    simp only [launchStep] at taken
    split at taken
    · exact Option.some.inj taken ▸ unique
    · exact Option.some.inj taken ▸ unique
    · contradiction

theorem unique_kernel (unique : (s.procs.map Process.pid).Nodup) (taken : kernelStep s action = some t) :
    (t.procs.map Process.pid).Nodup := by
  cases action with
  | collect pid | vanish pid =>
    simp only [kernelStep] at taken
    split at taken
    · exact Option.some.inj taken ▸ unique_remove unique pid
    · contradiction
  | fork pid =>
    simp only [kernelStep] at taken
    split at taken
    · next free => exact Option.some.inj taken ▸ unique_append unique free
    · contradiction
  | exit pid | reparent pid =>
    obtain rfl := Option.some.inj taken
    rw [modify_pids]
    · exact unique
    · intro p
      rfl

theorem swept (taken : sweepStep s action = some t) : Swept s action t := by
  cases action with
  | begin =>
    simp only [sweepStep] at taken
    split at taken
    · next calm =>
      split at taken
      · exact Option.some.inj taken ▸ .skip
      · exact Option.some.inj taken ▸ .begin calm
    · contradiction
  | list pid =>
    simp only [sweepStep] at taken
    split at taken
    · next at_ => exact Option.some.inj taken ▸ .list pid at_
    · contradiction
  | unreadable =>
    simp only [sweepStep] at taken
    split at taken
    · next at_ => exact Option.some.inj taken ▸ .unreadable at_
    · contradiction
  | stat =>
    simp only [sweepStep] at taken
    split at taken
    · next pid alive reaped throughout at_ =>
      split at taken
      · next p found =>
        split at taken
        · exact Option.some.inj taken ▸ .orphan at_
        · next other =>
          refine Option.some.inj taken ▸ .other at_ fun q there => ?_
          obtain rfl := Option.some.inj (found.symm.trans there)
          exact other
      · next gone =>
        refine Option.some.inj taken ▸ .other at_ fun q there => ?_
        simp [gone] at there
    · contradiction
  | waitpid =>
    simp only [sweepStep] at taken
    split at taken
    · next pid alive reaped throughout at_ =>
      split at taken
      · exact Option.some.inj taken ▸ .reap at_
      · next missed => exact Option.some.inj taken ▸ .miss at_ (by simpa using missed)
    · contradiction
  | finish =>
    simp only [sweepStep] at taken
    split at taken
    · next alive reaped throughout at_ =>
      split at taken
      · next listed => exact Option.some.inj taken ▸ .finish at_ listed
      · contradiction
    · contradiction

theorem Swept.procs (swept : Swept s action t) : t.procs = s.procs ∨ ∃ pid, t.procs = (s.remove pid).procs := by
  cases swept with
  | reap at_ => exact .inr ⟨_,rfl⟩
  | _ => exact .inl rfl

/-- No two processes have one PID. -/
theorem unique_of_reachable (run : machine.Reachable s) : (s.procs.map Process.pid).Nodup := by
  refine run.invariant (P := fun s => (s.procs.map Process.pid).Nodup) List.nodup_nil fun s a t _ unique taken => ?_
  cases a with
  | launch action => exact unique_launch unique taken
  | kernel action => exact unique_kernel unique taken
  | sweep action =>
    rcases (swept taken).procs with same | ⟨pid,same⟩
    · exact same ▸ unique
    · exact same ▸ unique_remove unique pid

end Table

section Pursuit

variable {s t : State} {pids : List Nat} {sweep : Sweep}

/-- A step beside the sweep takes no orphan out of the table. -/
theorem Pursues.beside (pursues : Pursues pids s sweep) (same : t.sweep = s.sweep) (launched : t.launched = s.launched)
    (stays : ∀ p ∈ s.procs, ∃ q ∈ t.procs, q.pid = p.pid ∧ (p.child = true → q.child = true) ∧
      (p.zombie = true → q.zombie = true)) : Pursues pids t sweep := by
  refine ⟨same.trans pursues.sweeping,fun pid member present => ?_,pursues.current⟩
  obtain ⟨⟨p,there,rfl,child,zombie⟩,unregistered⟩ := pursues.orphans pid member present
  obtain ⟨q,here,pid,keeps,dead⟩ := stays p there
  exact ⟨⟨q,here,pid,keeps child,dead zombie⟩,launched ▸ unregistered⟩

/-- A process leaves the table, and the sweep has seen it go. -/
theorem Pursues.remove (pursues : Pursues pids s sweep) (pid : Nat) :
    Pursues pids (s.remove pid) { sweep with throughout := sweep.throughout.filter (· ≠ pid) } := by
  refine ⟨by simp [State.remove,pursues.sweeping],fun other member present => ?_,fun other member present listed => ?_⟩
  · obtain ⟨present,apart⟩ := List.mem_filter.mp present
    obtain ⟨⟨p,there,rfl,dead⟩,unregistered⟩ := pursues.orphans other member present
    exact ⟨⟨p,List.mem_filter.mpr ⟨there,apart⟩,rfl,dead⟩,unregistered⟩
  · exact pursues.current other member (List.mem_filter.mp present).1 listed

theorem Pursues.launch (pursues : Pursues pids s sweep) (taken : launchStep s action = some t) :
    Pursues pids t sweep := by
  have goes (i : Nat) (next : Launch) : Pursues pids (s.goto i next) sweep :=
    pursues.beside rfl rfl fun p there => ⟨p,there,rfl,id,id⟩
  cases action with
  | spawn i pid =>
    simp only [launchStep] at taken
    split at taken
    · split at taken
      · obtain rfl := Option.some.inj taken
        exact pursues.beside rfl rfl fun p there => ⟨p,List.mem_append_left _ there,rfl,id,id⟩
      · contradiction
    · contradiction
  | fail i =>
    simp only [launchStep] at taken
    split at taken
    · exact Option.some.inj taken ▸ goes i .failed
    · split at taken
      · exact Option.some.inj taken ▸ goes i .failed
      · contradiction
    · contradiction
  | succeed i | connect i =>
    simp only [launchStep] at taken
    split at taken
    · exact Option.some.inj taken ▸ goes i _
    · contradiction
  | launched i =>
    simp only [launchStep,pursues.sweeping] at taken
    split at taken
    · contradiction
    · exact Option.some.inj taken ▸ goes i _
    · contradiction
  | beginLaunch | dropGuard i =>
    simp [launchStep,pursues.sweeping] at taken

theorem Pursues.kernel (pursues : Pursues pids s sweep) (taken : kernelStep s action = some t) :
    ∃ sweep, Pursues pids t sweep := by
  cases action with
  | collect pid | vanish pid =>
    simp only [kernelStep] at taken
    split at taken
    · exact ⟨_,Option.some.inj taken ▸ pursues.remove pid⟩
    · contradiction
  | fork pid =>
    simp only [kernelStep] at taken
    split at taken
    · obtain rfl := Option.some.inj taken
      exact ⟨sweep,pursues.beside rfl rfl fun p there => ⟨p,List.mem_append_left _ there,rfl,id,id⟩⟩
    · contradiction
  | exit pid | reparent pid =>
    obtain rfl := Option.some.inj taken
    refine ⟨sweep,pursues.beside rfl rfl fun p there => ⟨_,List.mem_map_of_mem there,?_⟩⟩
    by_cases same : p.pid = pid <;> simp [same]

theorem State.Orphan.found (orphan : s.Orphan pid) (unique : (s.procs.map Process.pid).Nodup) :
    ∃ p, s.procs.find? (fun p => p.pid = pid) = some p ∧ p.zombie = true ∧ p.child = true ∧ pid ∉ s.launched := by
  obtain ⟨⟨p,there,rfl,child,zombie⟩,unregistered⟩ := orphan
  exact ⟨p,Keyed.find_key unique there,zombie,child,unregistered⟩

theorem State.Orphan.collectable (orphan : s.Orphan pid) : s.collectable pid = true := by
  obtain ⟨⟨p,there,rfl,child,zombie⟩,_⟩ := orphan
  exact List.any_eq_true.mpr ⟨p,there,by simp [child,zombie]⟩

theorem State.Orphan.not_free (orphan : s.Orphan pid) : s.free pid = false := by
  obtain ⟨⟨p,there,rfl,_⟩,_⟩ := orphan
  exact List.all_eq_false.mpr ⟨p,there,by simp⟩

/-- Back at its listing the sweep has let none go. -/
theorem Pursues.relist (pursues : Pursues pids s ⟨stage,alive,reaped,throughout⟩)
    (done : ∀ pid ∈ pids, pid ∈ throughout → stage ≠ .reading pid ∧ stage ≠ .reaping pid) :
    Pursues pids { s with sweep := some ⟨.listing,alive,reaped,throughout⟩ } ⟨.listing,alive,reaped,throughout⟩ := by
  refine ⟨rfl,pursues.orphans,fun pid member present listed => ?_⟩
  obtain ⟨unread,unreaped⟩ := done pid member present
  exact ((pursues.current pid member present listed).elim unread unreaped).elim

/-- The step of the sweep itself. An orphan whose turn it is is read, found and collected. -/
theorem Pursues.follow (pursues : Pursues pids s sweep) (unique : (s.procs.map Process.pid).Nodup)
    (reads : Reads s (.sweep action)) (goesOn : action ≠ .finish) (taken : sweepStep s action = some t) :
    ∃ sweep, Pursues pids t sweep := by
  have sweeping := pursues.sweeping
  cases swept taken with
  | skip => exact ⟨sweep,pursues⟩
  | begin calm => simp [calm] at sweeping
  | list pid at_ =>
    obtain rfl := Option.some.inj (sweeping.symm.trans at_)
    refine ⟨_,rfl,pursues.orphans,fun other member present listed => .inl ?_⟩
    rcases List.mem_cons.mp listed with rfl | before
    · rfl
    · rcases pursues.current other member present before with stage | stage <;> cases stage
  | unreadable at_ =>
    obtain rfl := Option.some.inj (sweeping.symm.trans at_)
    refine ⟨_,pursues.relist fun other member present => ⟨fun stage => ?_,by rintro ⟨⟩⟩⟩
    have gone := reads _ _ at_ stage
    simp [(pursues.orphans other member present).not_free] at gone
  | @orphan pid alive reaped throughout at_ =>
    obtain rfl := Option.some.inj (sweeping.symm.trans at_)
    refine ⟨_,rfl,pursues.orphans,fun other member present listed => .inr ?_⟩
    rcases pursues.current other member present listed with stage | stage
    · exact congrArg Stage.reaping (Stage.reading.inj stage)
    · cases stage
  | other at_ no =>
    obtain rfl := Option.some.inj (sweeping.symm.trans at_)
    refine ⟨_,pursues.relist fun other member present => ⟨fun stage => ?_,by rintro ⟨⟩⟩⟩
    obtain rfl := Stage.reading.inj stage
    obtain ⟨p,found,zombie,child,unregistered⟩ := (pursues.orphans _ member present).found unique
    exact no p found ⟨zombie,child,unregistered⟩
  | @reap pid alive reaped throughout at_ =>
    obtain rfl := Option.some.inj (sweeping.symm.trans at_)
    refine ⟨⟨.listing,alive,reaped + 1,throughout.filter (· ≠ pid)⟩,rfl,fun other member present => ?_,
      fun other member present listed => ?_⟩
    · obtain ⟨present,apart⟩ := List.mem_filter.mp present
      obtain ⟨⟨p,there,rfl,dead⟩,unregistered⟩ := pursues.orphans other member present
      exact ⟨⟨p,List.mem_filter.mpr ⟨there,apart⟩,rfl,dead⟩,unregistered⟩
    · obtain ⟨present,apart⟩ := List.mem_filter.mp present
      rcases pursues.current other member present listed with stage | stage
      · cases stage
      · obtain rfl := Stage.reaping.inj stage
        simp at apart
  | miss at_ missed =>
    obtain rfl := Option.some.inj (sweeping.symm.trans at_)
    refine ⟨_,pursues.relist fun other member present => ⟨by rintro ⟨⟩,fun stage => ?_⟩⟩
    obtain rfl := Stage.reaping.inj stage
    simp [(pursues.orphans _ member present).collectable] at missed
  | finish => exact absurd rfl goesOn

theorem Pursues.step (pursues : Pursues pids s sweep) (unique : (s.procs.map Process.pid).Nodup) (reads : Reads s a)
    (goesOn : a ≠ .sweep .finish) (taken : Reaper.step s a = some t) : ∃ sweep, Pursues pids t sweep := by
  cases a with
  | launch action => exact ⟨sweep,pursues.launch taken⟩
  | kernel action => exact pursues.kernel taken
  | sweep action => exact pursues.follow unique reads (by simpa using goesOn) taken

theorem Pursues.exec (run : machine.Reachable s) (pursues : Pursues pids s sweep) (ran : machine.exec actions s = some t)
    (reads : machine.Meets Reads actions s) (goesOn : .sweep .finish ∉ actions) : ∃ sweep, Pursues pids t sweep := by
  induction actions generalizing s sweep with
  | nil => exact ⟨sweep,Option.some.inj ran ▸ pursues⟩
  | cons a rest ih =>
    obtain ⟨mid,taken,later⟩ := Option.bind_eq_some_iff.mp ran
    obtain ⟨read,reads⟩ := reads mid taken
    obtain ⟨first,others⟩ := not_or.mp (mt List.mem_cons.mpr goesOn)
    obtain ⟨_,pursues⟩ := pursues.step (unique_of_reachable run) read (Ne.symm first) taken
    exact ih (run.step trivial taken) pursues later reads others

/-- A sweep that is not skipped pursues whatever orphans there are. -/
theorem pursues_of_begin (orphans : ∀ pid ∈ pids, s.Orphan pid) (calm : s.sweep = none) (idle : s.launching = 0)
    (began : sweepStep s .begin = some t) : Pursues pids t ⟨.listing,[],0,s.procs.map Process.pid⟩ := by
  simp only [sweepStep,calm,idle,Nat.lt_irrefl,if_false] at began
  obtain rfl := Option.some.inj began
  exact ⟨rfl,fun pid member _ => orphans pid member,fun _ _ _ listed => absurd listed List.not_mem_nil⟩

end Pursuit

/-- Whatever else happens to the table, where the state of a process that is there can be read: of
the zombies the worker had inherited when a sweep began, and that no launch had registered, none
has outlived a sweep that was not skipped. -/
theorem sweep_leaves_no_orphan {s begun last t : State} (run : machine.Reachable s) (calm : s.sweep = none)
    (idle : s.launching = 0) (began : machine.step s (.sweep .begin) = some begun)
    (ran : machine.exec actions begun = some last) (reads : machine.Meets Reads actions begun)
    (same : .sweep .finish ∉ actions) (ended : machine.step last (.sweep .finish) = some t) :
    ∃ sweep, last.sweep = some sweep ∧ ∀ p ∈ s.procs, p.child = true → p.zombie = true → p.pid ∉ s.launched →
      p.pid ∉ sweep.throughout := by
  have each (pids : List Nat) (orphans : ∀ pid ∈ pids, s.Orphan pid) : ∃ sweep, Pursues pids last sweep :=
    (pursues_of_begin orphans calm idle began).exec (run.step trivial began) ran reads same
  have finished : Swept last .finish t := swept ended
  cases finished with
  | finish at_ listed =>
    refine ⟨_,at_,fun p there child zombie unregistered present => ?_⟩
    obtain ⟨sweep,pursues⟩ := each [p.pid] fun pid member => by
      obtain rfl := List.mem_singleton.mp member
      exact ⟨⟨p,there,rfl,child,zombie⟩,unregistered⟩
    obtain rfl := Option.some.inj (pursues.sweeping.symm.trans at_)
    have named : p.pid ∈ _ := of_decide_eq_true (List.all_eq_true.mp listed _ present)
    rcases pursues.current _ (List.mem_singleton_self _) present named with stage | stage <;> cases stage

def inherited : List Action :=
  [.launch .beginLaunch,.launch (.spawn 0 10),.launch (.succeed 0),.launch (.launched 0),
    .launch (.dropGuard 0),.kernel (.fork 20),.kernel (.reparent 20),.kernel (.exit 20),.kernel (.exit 10)]

def sweptOrphan : List Action :=
  [.sweep (.list 10),.sweep .stat,.kernel (.fork 30),.sweep (.list 20),.sweep .stat,.sweep .waitpid]

theorem sweep_leaves_no_orphan_inherited : ∃ s begun last t sweep, machine.exec inherited machine.initial = some s ∧
    machine.step s (.sweep .begin) = some begun ∧ machine.exec sweptOrphan begun = some last ∧
    machine.step last (.sweep .finish) = some t ∧ last.sweep = some sweep ∧
    (∀ p ∈ s.procs, p.child = true → p.zombie = true → p.pid ∉ s.launched → p.pid ∉ sweep.throughout) ∧
    t.procs = [⟨10,true,true,some 0⟩,⟨30,false,false,none⟩] := by
  obtain ⟨s,begun,last,t,ran,calm,idle,began,went,reads,ended,left⟩ : ∃ s begun last t,
      machine.exec inherited machine.initial = some s ∧ s.sweep = none ∧ s.launching = 0 ∧
      machine.step s (.sweep .begin) = some begun ∧ machine.exec sweptOrphan begun = some last ∧
      machine.Meets Reads sweptOrphan begun ∧ machine.step last (.sweep .finish) = some t ∧
      t.procs = [⟨10,true,true,some 0⟩,⟨30,false,false,none⟩] :=
    ⟨_,_,_,_,rfl,rfl,rfl,rfl,rfl,by simp [Machine.Meets,sweptOrphan,Reads],rfl,rfl⟩
  obtain ⟨sweep,at_,gone⟩ :=
    sweep_leaves_no_orphan (Machine.reachable_of_exec ran) calm idle began went reads (by decide) ended
  exact ⟨s,begun,last,t,sweep,ran,began,went,ended,at_,gone,left⟩

end BrowserHive.Worker.Reaper
