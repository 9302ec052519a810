import Mathlib.Data.List.Perm.Basic
import BrowserHive.Coordinator.Labels

/-! The in-flight counts against the guards that keep them: a tracker under any order of starts
and drops, and the coordinator, whose runs are runs of a tracker. -/
namespace BrowserHive.Coordinator

open Transition

structure Tracker where
  byPod : InFlight
  guards : List String

namespace Tracker

inductive Act where
  | start (pod : String)
  /-- The drop of one live guard. -/
  | drop (i : Nat)
  deriving DecidableEq, Repr

def step (t : Tracker) : Act → Option Tracker
  | .start pod => some ⟨t.byPod.start pod,pod :: t.guards⟩
  | .drop i => t.guards[i]?.map fun pod => ⟨t.byPod.finish pod,t.guards.eraseIdx i⟩

def machine : Machine Tracker Act := ⟨⟨.empty,[]⟩,step⟩

end Tracker

def entry (live : Nat) : Option Nat := if live = 0 then none else some live

/-- One entry for each pod with a live guard, which is the number of these. -/
def Counted (m : InFlight) (guards : List String) : Prop := ∀ pod, m pod = entry (guards.count pod)

namespace Counted

variable {m : InFlight} {guards others : List String}

theorem empty : Counted .empty [] := fun _ => rfl

theorem perm (counted : Counted m guards) (same : guards.Perm others) : Counted m others := by
  intro pod
  rw [counted pod,same.count_eq]

theorem current (counted : Counted m guards) (pod : String) : m.current pod = guards.count pod := by
  unfold InFlight.current
  rw [counted pod,entry]
  split
  · next none_ => exact none_.symm
  · rfl

theorem start (counted : Counted m guards) (pod : String) : Counted (m.start pod) (pod :: guards) := by
  intro other
  unfold InFlight.start
  rw [counted.current pod]
  by_cases same : other = pod
  · subst same
    simp [entry]
  · rw [Function.update_of_ne same,counted other,List.count_cons_of_ne (Ne.symm same)]

/-- Nothing is taken off a count of zero. -/
theorem held (counted : Counted m (pod :: guards)) : m pod = some (guards.count pod + 1) := by
  rw [counted pod,entry,List.count_cons_self]
  simp

theorem finish (counted : Counted m (pod :: guards)) : Counted (m.finish pod) guards := by
  intro other
  unfold InFlight.finish
  rw [counted.held]
  by_cases same : other = pod
  · subst same
    simp [entry]
  · simp only [Nat.add_sub_cancel]
    rw [Function.update_of_ne same,counted other,List.count_cons_of_ne (Ne.symm same)]

end Counted

theorem Tracker.step_counted {t t' : Tracker} (counted : Counted t.byPod t.guards) (taken : t.step a = some t') :
    Counted t'.byPod t'.guards := by
  cases a with
  | start pod =>
    obtain rfl := Option.some.inj taken
    exact counted.start pod
  | drop i =>
    obtain ⟨pod,here,rfl⟩ := Option.map_eq_some_iff.mp taken
    obtain ⟨bound,rfl⟩ := List.getElem?_eq_some_iff.mp here
    exact (counted.perm (List.getElem_cons_eraseIdx_perm bound).symm).finish

theorem Tracker.reachable_counted {t : Tracker} (run : Tracker.machine.Reachable t) : Counted t.byPod t.guards :=
  Machine.Reachable.invariant (P := fun t => Counted t.byPod t.guards) Counted.empty
    (fun _ _ _ _ counted taken => step_counted counted taken) run

/-- The pods of the guards that the requests of a coordinator hold. -/
def guardsOf (handlers : List Handler) : List String := handlers.filterMap Handler.occupies

section Guards

variable {s t : Shared} {h h' : Handler} {handlers : List Handler}

theorem guardsOf_perm (here : handlers[i]? = some h) :
    (guardsOf handlers).Perm (h.occupies.toList ++ guardsOf (handlers.eraseIdx i)) := by
  obtain ⟨bound,rfl⟩ := List.getElem?_eq_some_iff.mp here
  have front := (List.getElem_cons_eraseIdx_perm bound).symm.filterMap Handler.occupies
  rw [List.filterMap_cons] at front
  cases held : handlers[i].occupies with
  | none =>
    rw [held] at front
    exact front
  | some pod =>
    rw [held] at front
    exact front

theorem guardsOf_set_perm (here : handlers[i]? = some h) (h' : Handler) :
    (guardsOf (handlers.set i h')).Perm (h'.occupies.toList ++ guardsOf (handlers.eraseIdx i)) := by
  have bound := (List.getElem?_eq_some_iff.mp here).1
  have there : (handlers.set i h')[i]? = some h' := List.getElem?_set_self bound
  have front := guardsOf_perm there
  rwa [List.eraseIdx_set_eq] at front

/-- What one step of a request does to the counts and to the guard it holds. -/
inductive Guarded (s : Shared) (h : Handler) (t : Shared) (h' : Handler) : Prop where
  | kept (same : h'.occupies = h.occupies) (counts : t.inFlight = s.inFlight)
  | started (free : h.occupies = none) (held : h'.occupies = some pod) (counts : t.inFlight = s.inFlight.start pod)
  | dropped (held : h.occupies = some pod) (free : h'.occupies = none) (counts : t.inFlight = s.inFlight.finish pod)

theorem Guarded.release (ended : h'.occupies = none) (counts : t.inFlight = (s.release h).inFlight) : Guarded s h t h' := by
  unfold Shared.release at counts
  cases held : h.occupies with
  | none =>
    rw [held] at counts
    exact .kept (ended.trans held.symm) counts
  | some pod =>
    rw [held] at counts
    exact .dropped held ended counts

theorem Handler.occupies_outside (outside : h.pc.occupies = none) : h.occupies = none := by
  simp [Handler.occupies,outside]

end Guards

@[simp] theorem Shared.sample_inFlight (s : Shared) (label : String) : (s.sample label).inFlight = s.inFlight := rfl

@[simp] theorem Shared.rotate_inFlight (s : Shared) : s.rotate.inFlight = s.inFlight := rfl

theorem Shared.rotate_release_inFlight (s : Shared) (h : Handler) :
    (s.rotate.release h).inFlight = (s.release h).inFlight := by
  unfold Shared.release
  split <;> rfl

/-- A refusal comes before the loop: no guard is held and none is dropped. -/
theorem Refusal.outside {s t : Shared} {h : Handler} (why : Refusal s h t reason code message) :
    h.occupies = none ∧ t.inFlight = s.inFlight := by
  cases why with
  | terminating at_ | unknown at_ | forgotten at_ | missing at_ | noWorkers at_ | unselected at_ | noSlots at_ =>
    exact ⟨h.occupies_outside (by rw [at_]; rfl),rfl⟩

theorem Move.guarded {s t : Shared} {h h' : Handler} (moved : Move s h (t,h')) : Guarded s h t h' := by
  have outside {pc : Pc} (at_ : h.pc = pc) (free : pc.occupies = none) : h.occupies = none :=
    h.occupies_outside (by rw [at_,free])
  cases moved with
  | accept at_ | look at_ | found at_ | forget at_ | miss at_ | confirm at_ | unreachable at_ =>
    exact .kept ((Handler.occupies_outside rfl).trans (outside at_ rfl).symm) rfl
  | refuse why =>
    obtain ⟨free,counts⟩ := why.outside
    exact .kept ((Handler.occupies_outside rfl).trans free.symm) counts
  | select at_ _ _ _ full =>
    rcases full with ⟨rfl,_⟩ | ⟨rfl,_⟩
    · exact .kept ((Handler.occupies_outside rfl).trans (outside at_ rfl).symm) rfl
    · exact .kept ((Handler.occupies_outside rfl).trans (outside at_ rfl).symm) rfl
  | @dispatch target _ at_ =>
    -- only a request that starts a session of its own is counted
    by_cases new : h.req.noSession = true
    · have counts : (if h.req.noSession = true then { s with inFlight := s.inFlight.start target.workerId } else s).inFlight =
          s.inFlight.start target.workerId := by rw [if_pos new]
      exact .started (outside at_ rfl) (if_pos new) counts
    · exact .kept (by simp [Handler.occupies,new]) (by simp [new])
  | connect at_ =>
    refine .kept ?_ rfl
    simp only [Handler.occupies,Handler.goto,at_]
    rfl
  | @judge target outcome r at_ judged =>
    cases judged with
    | break_ excluded => exact .release (Handler.occupies_outside rfl) rfl
    | another =>
      refine .kept ?_ rfl
      rcases at_ with at_ | ⟨_,at_⟩
      · simp [Handler.occupies,at_,Pc.occupies]
      · simp [Handler.occupies,at_,Pc.occupies]
  | invalid at_ => exact .release (Handler.occupies_outside rfl) rfl
  | retry at_ retried =>
    cases retried with
    | break_ same =>
      rcases same with rfl | rfl
      · exact .release (Handler.occupies_outside rfl) rfl
      · exact .release (Handler.occupies_outside rfl) (s.rotate_release_inFlight h)
    | again => exact .release (Handler.occupies_outside rfl) (s.rotate_release_inFlight h)
  | respond at_ responded =>
    cases responded with
    | plain | session => exact .kept ((Handler.occupies_outside rfl).trans (outside at_ rfl).symm) rfl
  | drop at_ => exact .release (Handler.occupies_outside rfl) rfl

/-- A tracker with the coordinator's map and a guard for each that a request holds. -/
structure Tracked (s : State) (t : Tracker) : Prop where
  counts : t.byPod = s.shared.inFlight
  guards : t.guards.Perm (guardsOf s.handlers)

namespace Tracked

variable {s : State} {t : Tracker} {shared : Shared} {h h' : Handler}

theorem keep (tracked : Tracked s t) (same : shared.inFlight = s.shared.inFlight) :
    Tracked { s with shared := shared } t := ⟨tracked.counts.trans same.symm,tracked.guards⟩

/-- A step of a request is a start, a drop or nothing to the tracker. -/
theorem request (tracked : Tracked s t) (here : s.handlers[i]? = some h) (guarded : Guarded s.shared h shared h') :
    ∃ t', (t' = t ∨ ∃ act, t.step act = some t') ∧ Tracked ⟨shared,s.handlers.set i h'⟩ t' := by
  have before := tracked.guards.trans (guardsOf_perm here)
  have after := (guardsOf_set_perm here h').symm
  cases guarded with
  | kept same counts =>
    rw [same] at after
    exact ⟨t,.inl rfl,tracked.counts.trans counts.symm,before.trans after⟩
  | @started pod free held counts =>
    rw [free] at before
    rw [held] at after
    refine ⟨_,.inr ⟨.start pod,rfl⟩,?_,(before.cons pod).trans after⟩
    rw [counts,← tracked.counts]
  | @dropped pod held free counts =>
    rw [held] at before
    rw [free] at after
    obtain ⟨k,bound,at_⟩ := List.getElem_of_mem (before.mem_iff.mpr List.mem_cons_self)
    have dropped : t.step (.drop k) = some ⟨t.byPod.finish pod,t.guards.eraseIdx k⟩ := by
      simp [Tracker.step,List.getElem?_eq_getElem bound,at_]
    have rest : (pod :: t.guards.eraseIdx k).Perm (pod :: guardsOf (s.handlers.eraseIdx i)) := by
      rw [← at_]
      exact (List.getElem_cons_eraseIdx_perm bound).trans (at_ ▸ before)
    refine ⟨_,.inr ⟨.drop k,dropped⟩,?_,rest.cons_inv.trans after⟩
    rw [counts,← tracked.counts]

end Tracked

/-- A run of the coordinator is one of a tracker. -/
theorem coordinator_tracked {fleet : Fleet} {s : State} (run : (openMachine fleet).Reachable s) :
    ∃ t, Tracker.machine.Reachable t ∧ Tracked s t := by
  refine Machine.Reachable.invariant (P := fun s => ∃ t, Tracker.machine.Reachable t ∧ Tracked s t)
    ⟨_,.initial,rfl,List.Perm.refl _⟩ ?_ run
  rintro s a s' _ ⟨t,reached,tracked⟩ taken
  rcases openStep_cases taken with ⟨pods,_,rfl⟩ | ⟨_,turn⟩
  · exact ⟨t,reached,tracked.keep rfl⟩
  · cases turn with
    | request here moved act =>
      obtain ⟨t',steps,tracked'⟩ := tracked.request here moved.guarded
      rcases steps with rfl | ⟨act,stepped⟩
      · exact ⟨_,reached,tracked'⟩
      · exact ⟨t',reached.step trivial stepped,tracked'⟩
    | arrive =>
      refine ⟨t,reached,tracked.counts,?_⟩
      simpa [guardsOf,Handler.occupies,Handler.new,Pc.occupies] using tracked.guards
    | background works act => exact ⟨t,reached,tracked.keep works.inFlight⟩

theorem coordinator_counted {fleet : Fleet} {s : State} (run : (openMachine fleet).Reachable s) :
    Counted s.shared.inFlight (guardsOf s.handlers) := by
  obtain ⟨t,reached,tracked⟩ := coordinator_tracked run
  rw [← tracked.counts]
  exact (Tracker.reachable_counted reached).perm tracked.guards

/-- A tracker's entries count the live guards, whatever the order of starts and drops. So do
the coordinator's: a pod without a guard has no entry, a drop finds a count to take one off,
and a request that has ended leaves the counts of the others. -/
theorem counts_are_live_guards :
    (∀ t, Tracker.machine.Reachable t → (∀ pod, t.byPod pod = entry (t.guards.count pod)) ∧
      ∀ i act t', act = .drop i → t.step act = some t' →
        ∃ pod count, t.guards[i]? = some pod ∧ t.byPod pod = some (count + 1) ∧ t'.byPod.current pod = count) ∧
    ∀ (fleet : Fleet) (s : State), (openMachine fleet).Reachable s →
      (∀ pod, s.shared.inFlight pod = entry ((guardsOf s.handlers).count pod)) ∧
      (∀ (i : Nat) h pod, s.handlers[i]? = some h → h.occupies = some pod →
        ∃ count, s.shared.inFlight pod = some (count + 1) ∧ (s.shared.release h).inFlight.current pod = count) ∧
      ∀ (i : Nat) h, s.handlers[i]? = some h → h.pc.ended = true →
        ∀ pod, s.shared.inFlight pod = entry ((guardsOf (s.handlers.eraseIdx i)).count pod) := by
  refine ⟨fun t run => ⟨Tracker.reachable_counted run,?_⟩,fun fleet s run => ⟨coordinator_counted run,?_,?_⟩⟩
  · rintro i act t' rfl taken
    obtain ⟨pod,here,rfl⟩ := Option.map_eq_some_iff.mp taken
    obtain ⟨bound,rfl⟩ := List.getElem?_eq_some_iff.mp here
    have front := (Tracker.reachable_counted run).perm (List.getElem_cons_eraseIdx_perm bound).symm
    exact ⟨_,_,here,front.held,front.finish.current _⟩
  · intro i h pod here held
    have front := (coordinator_counted run).perm (guardsOf_perm here)
    rw [held] at front
    refine ⟨_,front.held,?_⟩
    rw [Shared.release,held]
    exact front.finish.current pod
  · intro i h here ended pod
    have free : h.occupies = none := by
      apply Handler.occupies_outside
      cases at_ : h.pc with
      | responded _ | refused | dropped => rfl
      | _ => simp [Pc.ended,at_] at ended
    have front := (coordinator_counted run).perm (guardsOf_perm here)
    rw [free] at front
    exact front pod

theorem counts_are_live_guards_dropped : ∃ s,
    (openMachine (.discovered id)).exec
      ([.discover [.ready "a-0" "a" 5],.monitor ["a-0"],.arrive (.page "a" "")] ++ dispatched 0 ++ [.drop 0])
      (openMachine (.discovered id)).initial = some s ∧ s.shared.inFlight "a-0" = none := by
  obtain ⟨s,ran,h,here,ended,alone⟩ : ∃ s,
      (openMachine (.discovered id)).exec
        ([.discover [.ready "a-0" "a" 5],.monitor ["a-0"],.arrive (.page "a" "")] ++ dispatched 0 ++ [.drop 0])
        (openMachine (.discovered id)).initial = some s ∧
      ∃ h, s.handlers[0]? = some h ∧ h.pc.ended = true ∧ s.handlers.eraseIdx 0 = [] :=
    ⟨_,rfl,_,rfl,rfl,rfl⟩
  have counts := (counts_are_live_guards.2 _ s (Machine.reachable_of_exec ran)).2.2 0 h here ended "a-0"
  rw [alone] at counts
  exact ⟨s,ran,counts⟩

end BrowserHive.Coordinator
