import Mathlib.Algebra.GroupWithZero.Nat
import Mathlib.Data.List.AList
import BrowserHive.Lib.Worklist

/-! The processes below the browser, walked from a snapshot of `/proc`, and the signals that
end them. -/
namespace BrowserHive.Worker.ProcessTree

open Worklist

abbrev Parents := List (UInt32 × UInt32)

def addChild (children : AList (fun _ : UInt32 => List UInt32)) (entry : UInt32 × UInt32) :
    AList (fun _ : UInt32 => List UInt32) :=
  children.insert entry.2 ((children.lookup entry.2).getD [] ++ [entry.1])

def childrenOf (parents : Parents) (pid : UInt32) : List UInt32 :=
  ((parents.foldl addChild ∅).lookup pid).getD []

/-- The loop of `descendants`, for that many rounds at most. -/
def walk (fuel : Nat) (root : UInt32) (parents : Parents) : State UInt32 :=
  run (childrenOf parents) fuel (start root)

def descendants (root : UInt32) (parents : Parents) : List UInt32 := (walk (parents.length + 1) root parents).found

/-- The call of kill(2) for a pid; one that does not fit the signed `pid_t` fails before it. -/
def killProcess (pid : UInt32) : Option UInt32 := if pid.toNat < 2^31 then some pid else none

/-- The calls of kill(2), in their order; without a `/proc` there is the root alone. -/
def killBrowserProcessTree (pid : UInt32) (processParents : Option Parents) : List UInt32 :=
  ((processParents.map (descendants pid)).getD [] ++ [pid]).filterMap killProcess

/-- The processes such calls reach: pid 0 stands for the group of the caller. -/
def signalled (group : List UInt32) (calls : List UInt32) : List UInt32 :=
  calls.flatMap fun pid => if pid = 0 then group else [pid]

def Below (parents : Parents) : UInt32 → UInt32 → Prop := Relation.ReflTransGen (fun ppid pid => (pid,ppid) ∈ parents)

section

variable {parents : Parents} {root pid : UInt32}

theorem lookup_foldl_addChild (parents : Parents) (children : AList (fun _ : UInt32 => List UInt32)) (ppid : UInt32) :
    ((parents.foldl addChild children).lookup ppid).getD [] =
      (children.lookup ppid).getD [] ++ (parents.filter (·.2 = ppid)).map Prod.fst := by
  induction parents generalizing children with
  | nil => simp
  | cons entry rest ih =>
    rw [List.foldl_cons,ih,addChild]
    by_cases own : entry.2 = ppid
    · rw [own,AList.lookup_insert,List.filter_cons_of_pos (by simpa using own)]
      simp
    · rw [AList.lookup_insert_ne (Ne.symm own),List.filter_cons_of_neg (by simpa using own)]

theorem mem_childrenOf (parents : Parents) (ppid pid : UInt32) : pid ∈ childrenOf parents ppid ↔ (pid,ppid) ∈ parents := by
  rw [childrenOf,lookup_foldl_addChild]
  simp only [AList.lookup_empty,Option.getD_none,List.nil_append,List.mem_map,List.mem_filter,decide_eq_true_eq]
  constructor
  · rintro ⟨⟨_,_⟩,⟨mem,rfl⟩,rfl⟩
    exact mem
  · intro mem
    exact ⟨(pid,ppid),⟨mem,rfl⟩,rfl⟩

theorem reaches_iff : Reaches (childrenOf parents) root pid ↔ Below parents root pid := by
  have same : (fun ppid pid => pid ∈ childrenOf parents ppid) = fun ppid pid => (pid,ppid) ∈ parents := by
    funext ppid pid
    exact propext (mem_childrenOf parents ppid pid)
  rw [Reaches,same,Below]

/-- A round for each listed process and one for the root empty the queue. -/
theorem walk_empty (root : UInt32) (parents : Parents) : (walk (parents.length + 1) root parents).queue = [] := by
  refine run_empty (parents.map Prod.fst).toFinset (fun ppid pid child => ?_) _ ?_
  · exact List.mem_toFinset.mpr (List.mem_map_of_mem ((mem_childrenOf parents ppid pid).mp child))
  · have few := Nat.le_trans (Finset.card_le_card (Finset.sdiff_subset (s := (parents.map Prod.fst).toFinset) (t := {root})))
      (List.toFinset_card_le _)
    rw [List.length_map] at few
    rw [work]
    simp only [start,List.length_singleton]
    omega

theorem walk_more (more : Nat) : walk (parents.length + 1 + more) root parents = walk (parents.length + 1) root parents :=
  run_more _ more (walk_empty root parents)

theorem descendants_exact (root : UInt32) (parents : Parents) :
    (descendants root parents).Nodup ∧ ∀ pid, pid ∈ descendants root parents ↔ pid ≠ root ∧ Below parents root pid := by
  have sound : Sound (childrenOf parents) root (walk (parents.length + 1) root parents) :=
    (Sound.start _ root).run _
  refine ⟨sound.tidy.nodup,fun pid => ?_⟩
  rw [← reaches_iff]
  exact sound.found (walk_empty root parents) pid

theorem mem_killBrowserProcessTree (root : UInt32) (parents : Parents) (pid : UInt32) :
    pid ∈ killBrowserProcessTree root (some parents) ↔ pid.toNat < 2^31 ∧ Below parents root pid := by
  have call : ∀ own : UInt32, killProcess own = some pid ↔ own = pid ∧ pid.toNat < 2^31 := by
    intro own
    rw [killProcess]
    split
    · next fits =>
      constructor
      · intro same
        obtain rfl := Option.some.inj same
        exact ⟨rfl,fits⟩
      · rintro ⟨rfl,_⟩
        rfl
    · next large => exact iff_of_false (by simp) (fun both => large (both.1 ▸ both.2))
  have tree : pid ∈ descendants root parents ++ [root] ↔ Below parents root pid := by
    rw [List.mem_append,(descendants_exact root parents).2,List.mem_singleton]
    by_cases own : pid = root
    · exact iff_of_true (.inr own) (own ▸ .refl)
    · simp [own]
  rw [killBrowserProcessTree,List.mem_filterMap]
  constructor
  · rintro ⟨own,mem,made⟩
    obtain ⟨rfl,fits⟩ := (call own).mp made
    exact ⟨fits,tree.mp mem⟩
  · rintro ⟨fits,below⟩
    exact ⟨pid,tree.mpr below,(call pid).mpr ⟨rfl,fits⟩⟩

/-- Where `/proc` lists no pid 0, no such pid is below a process. -/
theorem below_ne_zero (root_ : root ≠ 0) (listed : ∀ entry ∈ parents, entry.1 ≠ 0) (below : Below parents root pid) :
    pid ≠ 0 := by
  cases below with
  | refl => exact root_
  | tail _ entry => exact listed _ entry

theorem mem_signalled {group calls : List UInt32} (positive : ∀ pid ∈ calls, pid ≠ 0) :
    pid ∈ signalled group calls ↔ pid ∈ calls := by
  rw [signalled,List.mem_flatMap]
  constructor
  · rintro ⟨own,mem,reached⟩
    rw [if_neg (positive own mem)] at reached
    exact List.mem_singleton.mp reached ▸ mem
  · intro mem
    refine ⟨pid,mem,?_⟩
    rw [if_neg (positive pid mem)]
    exact List.mem_singleton_self pid

end

/-- The walk ends: its queue is empty in time, and more rounds change nothing. -/
structure Ends (root : UInt32) (parents : Parents) : Prop where
  queue : (walk (parents.length + 1) root parents).queue = []
  steady : ∀ more, walk (parents.length + 1 + more) root parents = walk (parents.length + 1) root parents

/-- Every snapshot is walked to its end and gives what is below the root, each pid once; the
calls that follow are for the tree, and reach its processes when the snapshot holds pids of
processes. -/
theorem process_tree_killed (root : UInt32) (parents : Parents) :
    Ends root parents ∧
    ((descendants root parents).Nodup ∧ ∀ pid, pid ∈ descendants root parents ↔ pid ≠ root ∧ Below parents root pid) ∧
    (∀ pid, pid ∈ killBrowserProcessTree root (some parents) ↔ pid.toNat < 2^31 ∧ Below parents root pid) ∧
    ∀ group, root ≠ 0 → (∀ entry ∈ parents, entry.1 ≠ 0) → ∀ pid,
      pid ∈ signalled group (killBrowserProcessTree root (some parents)) ↔ pid.toNat < 2^31 ∧ Below parents root pid := by
  refine ⟨⟨walk_empty root parents,fun more => walk_more more⟩,descendants_exact root parents,
    mem_killBrowserProcessTree root parents,fun group root_ listed pid => ?_⟩
  rw [mem_signalled fun own mem => below_ne_zero root_ listed ((mem_killBrowserProcessTree root parents own).mp mem).2]
  exact mem_killBrowserProcessTree root parents pid

theorem process_tree_killed_child : 2 ∈ signalled [9] (killBrowserProcessTree 1 (some [(2,1),(1,2),(7,5)])) := by
  have child : Below [(2,1),(1,2),(7,5)] 1 2 := .single (by decide)
  exact ((process_tree_killed 1 [(2,1),(1,2),(7,5)]).2.2.2 [9] (by decide) (by simp) 2).mpr ⟨by decide,child⟩

/-- A cycle, a process that is its own parent, one listed twice, and one of another tree. -/
example : descendants 1 [(1,3),(2,1),(3,2),(2,1),(4,4),(6,5)] = [2,3] := by decide

end BrowserHive.Worker.ProcessTree
