import Mathlib.Data.List.Induction
import BrowserHive.Lib.Simulation

/-! Tasks that work in rounds. A round takes a list, works through it item by item, and stores
what came of it at its end; what is stored is told by the history of the task. -/
namespace RoundTask

open Transition

universe u v w x

variable {ι : Type u} {β : Type v}

inductive Move (ι : Type u) (β : Type v) where
  | start (items : List ι)
  | item (result : β)
  | finish

inductive Loop (ι : Type u) (β : Type v) where
  | idle
  | working (todo : List ι) (done : List (ι × β))

structure State (ι : Type u) (β : Type v) where
  loop : Loop ι β
  /-- What came of the last round that was finished. -/
  stored : Option (List (ι × β))

def step (s : State ι β) : Move ι β → Option (State ι β)
  | .start items =>
    match s.loop with
    | .idle => some { s with loop := .working items [] }
    | .working .. => none
  | .item result =>
    match s.loop with
    | .working (i :: todo) done => some { s with loop := .working todo (done ++ [(i,result)]) }
    | _ => none
  | .finish =>
    match s.loop with
    | .working [] done => some ⟨.idle,some done⟩
    | _ => none

def machine (ι : Type u) (β : Type v) : Machine (State ι β) (Move ι β) := ⟨⟨.idle,none⟩,step⟩

theorem exec_start {s : State ι β} (idle : s.loop = .idle) (items : List ι) :
    (machine ι β).exec [.start items] s = some { s with loop := .working items [] } := by
  refine Machine.exec_one ?_
  simp only [machine,step,idle]

theorem exec_item {s : State ι β} (working : s.loop = .working (i :: todo) done) (result : β) :
    (machine ι β).exec [.item result] s = some { s with loop := .working todo (done ++ [(i,result)]) } := by
  refine Machine.exec_one ?_
  simp only [machine,step,working]

theorem exec_finish {s : State ι β} (working : s.loop = .working [] done) :
    (machine ι β).exec [.finish] s = some ⟨.idle,some done⟩ := by
  refine Machine.exec_one ?_
  simp only [machine,step,working]

/-- The moves of a round before its end, the items of `todo` not yet reached. -/
def opened (done : List (ι × β)) (todo : List ι) : List (Move ι β) :=
  .start (done.map Prod.fst ++ todo) :: done.map fun d => .item d.2

/-- The last round of a history, with the result of each of its items. -/
def LastRound (moves : List (Move ι β)) (done : List (ι × β)) : Prop :=
  ∃ before after, moves = before ++ opened done [] ++ .finish :: after ∧ .finish ∉ after

structure Told (moves : List (Move ι β)) (s : State ι β) : Prop where
  working : ∀ todo done, s.loop = .working todo done → ∃ before, moves = before ++ opened done todo
  none_ : s.stored = none → .finish ∉ moves
  last : ∀ done, s.stored = some done → LastRound moves done

variable {moves : List (Move ι β)} {s t : State ι β} {move : Move ι β} {done : List (ι × β)}

theorem opened_concat (done : List (ι × β)) (i : ι) (todo : List ι) (result : β) :
    opened done (i :: todo) ++ [.item result] = opened (done ++ [(i,result)]) todo := by
  simp [opened]

theorem LastRound.concat (last : LastRound moves done) (other : move ≠ .finish) : LastRound (moves ++ [move]) done := by
  obtain ⟨before,after,rfl,later⟩ := last
  refine ⟨before,after ++ [move],by simp,?_⟩
  simpa [later] using other.symm

theorem Told.concat (told : Told moves s) (other : move ≠ .finish) (stored : t.stored = s.stored)
    (working : ∀ todo done, t.loop = .working todo done → ∃ before, moves ++ [move] = before ++ opened done todo) :
    Told (moves ++ [move]) t := by
  refine ⟨working,fun none_ => ?_,fun done some_ => ?_⟩
  · have never := told.none_ (stored ▸ none_)
    simpa [never] using other.symm
  · exact (told.last done (stored ▸ some_)).concat other

theorem Told.step (told : Told moves s) (taken : step s move = some t) : Told (moves ++ [move]) t := by
  cases move with
  | start items =>
    simp only [RoundTask.step] at taken
    split at taken
    · obtain rfl := Option.some.inj taken
      refine told.concat (by simp) rfl fun todo done same => ?_
      obtain ⟨rfl,rfl⟩ := Loop.working.inj same
      exact ⟨moves,by simp [opened]⟩
    · contradiction
  | item result =>
    simp only [RoundTask.step] at taken
    split at taken
    · next i todo done here =>
      obtain rfl := Option.some.inj taken
      refine told.concat (by simp) rfl fun todo' done' same => ?_
      obtain ⟨rfl,rfl⟩ := Loop.working.inj same
      obtain ⟨before,rfl⟩ := told.working _ _ here
      exact ⟨before,by rw [List.append_assoc,opened_concat]⟩
    · contradiction
  | finish =>
    simp only [RoundTask.step] at taken
    split at taken
    · next done here =>
      obtain rfl := Option.some.inj taken
      obtain ⟨before,rfl⟩ := told.working _ _ here
      refine ⟨by simp,by simp,fun done' same => ?_⟩
      obtain rfl := Option.some.inj same
      exact ⟨before,[],by simp,List.not_mem_nil⟩
    · contradiction

theorem told (ran : (machine ι β).exec moves (machine ι β).initial = some s) : Told moves s := by
  induction moves using List.reverseRecOn generalizing s with
  | nil =>
    obtain rfl := Option.some.inj ran
    exact ⟨by simp [machine],fun _ => List.not_mem_nil,by simp [machine]⟩
  | append_singleton moves move ih =>
    rw [Machine.exec_append] at ran
    obtain ⟨mid,before,rest⟩ := Option.bind_eq_some_iff.mp ran
    obtain ⟨_,taken,last⟩ := Option.bind_eq_some_iff.mp rest
    obtain rfl := Option.some.inj last
    exact (ih before).step taken

variable {σ : Type w} {α : Type x} {m : Machine σ α} {performs : σ → α → σ → List (Move ι β)} {rel : σ → State ι β → Prop}

/-- The last round of a run that is over, with the result of each of its items: the step that
starts it, from which state, and what the run performs from there on. -/
def LastRun (m : Machine σ α) (performs : σ → α → σ → List (Move ι β)) (actions : List α) (done : List (ι × β)) (a : α)
    (s : σ) : Prop :=
  ∃ actions₁ actions₂ t after, actions = actions₁ ++ a :: actions₂ ∧ m.exec actions₁ m.initial = some s ∧
    m.step s a = some t ∧ performs s a t = [.start (done.map Prod.fst)] ∧
    m.trace performs actions₂ t = (done.map fun d => .item d.2) ++ .finish :: after ∧ .finish ∉ after

theorem LastRun.started {s : σ} {a : α} (last : LastRun m performs actions done a s) :
    ∃ t, m.Reachable s ∧ m.step s a = some t ∧ performs s a t = [.start (done.map Prod.fst)] := by
  obtain ⟨_,_,t,_,_,before,taken,started,_⟩ := last
  exact ⟨t,Machine.reachable_of_exec before,taken,started⟩

/-- A machine whose steps move the loop has stored what its run tells: nothing yet, or what
came of the last round. -/
theorem stored_told (sim : Machine.Simulation m (machine ι β) performs rel)
    (single : ∀ s a t, (performs s a t).length ≤ 1) {s : σ} (ran : m.exec actions m.initial = some s) :
    ∃ loop, rel s loop ∧ ((loop.stored = none ∧ .finish ∉ m.trace performs actions m.initial) ∨
      ∃ done a s₁, loop.stored = some done ∧ LastRun m performs actions done a s₁) := by
  obtain ⟨loop,performed,related⟩ := sim.exec ran
  have told_ := told performed
  refine ⟨loop,related,?_⟩
  cases stored : loop.stored with
  | none => exact .inl ⟨rfl,told_.none_ stored⟩
  | some done =>
    obtain ⟨before,after,split,later⟩ := told_.last done stored
    simp only [opened,List.append_nil,List.cons_append,List.append_assoc] at split
    obtain ⟨actions₁,a,actions₂,s₁,t₁,same,before_,taken,started,_,rest⟩ := Machine.trace_split single ran split
    exact .inr ⟨done,a,s₁,rfl,actions₁,actions₂,t₁,after,same,before_,taken,started,rest,later⟩

end RoundTask
