import Mathlib.Algebra.BigOperators.Ring.List
import Mathlib.Algebra.Ring.Nat
import BrowserHive.Pool.Stats
import BrowserHive.Coordinator.Discovery

/-! Cluster statistics: what the pools report passes through their workers' replies, in 32
bits, and the coordinator's sums over each scope, in 32 bits again. -/
namespace BrowserHive.Coordinator

def workerStats (stats : Pool.BrowserPoolStats) : WorkerStats :=
  { totalContexts := stats.totalContexts % 2^32
    availableSlots := stats.availableSlots % 2^32
    activeRequests := stats.activeRequests % 2^32
    totalRequests := stats.totalRequests }

structure ScopeStats where
  name : String
  totalWorkers : Nat
  totalSlots : Nat
  availableSlots : Nat
  activeRequests : Nat
  deriving DecidableEq, Repr

structure ClusterStats where
  scopeStats : List (String × ScopeStats)
  totalRequests : Nat
  activeJobs : Nat
  deriving DecidableEq, Repr

def scopeStats (name : String) (workers : List WorkerEndpoint) : ScopeStats :=
  { name := name
    totalWorkers := workers.length % 2^32
    totalSlots := (workers.map fun w => w.stats.totalContexts * 3).sum % 2^32
    availableSlots := (workers.map fun w => w.stats.availableSlots).sum % 2^32
    activeRequests := (workers.map fun w => w.stats.activeRequests).sum % 2^32 }

def getClusterStats (workers : List (String × List WorkerEndpoint)) : ClusterStats :=
  { scopeStats := workers.map fun (name,listed) => (name,scopeStats name listed)
    totalRequests := (workers.map fun (_,listed) => (listed.map fun w => w.stats.totalRequests).sum).sum
    activeJobs := (workers.map fun (_,listed) => (listed.map fun w => w.stats.activeRequests).sum).sum }

/-- A routable worker and the pool it reported, with what the report read of the busy flags
and of the pending counter, which can only fall while the contexts are locked. -/
structure Reporter where
  endpoint : WorkerEndpoint
  cfg : Pool.Config
  state : Pool.State
  reached : (Pool.machine cfg).Reachable state
  busy : ContextId → Bool
  pending : Nat
  fewer : pending ≤ state.pool.pendingCreations
  reported : endpoint.stats = workerStats (Pool.getStats cfg state.pool busy pending)

namespace Reporter

def capacity (r : Reporter) : Nat := r.cfg.scope.maxContexts

def built (r : Reporter) : Nat := r.state.pool.contexts.length

def stats (r : Reporter) : Pool.BrowserPoolStats := Pool.getStats r.cfg r.state.pool r.busy r.pending

/-- What is in use and what is free are within what the worker can serve. -/
theorem active_add_available_le (r : Reporter) :
    r.stats.activeRequests + r.stats.availableSlots ≤ r.capacity := by
  have bounded := (Pool.capacity_invariant r.reached).bounded
  obtain ⟨active,_,whole⟩ := Pool.stats_bounded bounded r.busy r.fewer
  unfold stats capacity
  omega

end Reporter

def endpoints (cluster : List (String × List Reporter)) : List (String × List WorkerEndpoint) :=
  cluster.map fun (name,reporters) => (name,reporters.map Reporter.endpoint)

/-- A scope's figures agree with each other and with the workers behind them. -/
def ScopeStats.Agrees (stats : ScopeStats) (reporters : List Reporter) : Prop :=
  stats.activeRequests + stats.availableSlots ≤ stats.totalSlots ∧
  stats.totalSlots = (reporters.map Reporter.capacity).sum

/-- Truncating the summands does not show in a truncated sum. -/
theorem sum_truncated (values : List α) (f : α → Nat) (m : Nat) :
    (values.map fun a => f a % m).sum % m = (values.map f).sum % m := by
  rw [List.sum_nat_mod,List.sum_nat_mod (values.map f),List.map_map,List.map_map]
  simp [Function.comp_def]

section Scope

variable (name : String) (reporters : List Reporter)

theorem scopeStats_active : (scopeStats name (reporters.map Reporter.endpoint)).activeRequests =
    (reporters.map fun r => r.stats.activeRequests).sum % 2^32 := by
  rw [← sum_truncated]
  simp only [scopeStats,List.map_map,Function.comp_def,Reporter.reported]
  rfl

theorem scopeStats_available : (scopeStats name (reporters.map Reporter.endpoint)).availableSlots =
    (reporters.map fun r => r.stats.availableSlots).sum % 2^32 := by
  rw [← sum_truncated]
  simp only [scopeStats,List.map_map,Function.comp_def,Reporter.reported]
  rfl

/-- The slots of a scope are counted from the contexts its pools have built. -/
theorem scopeStats_slots : (scopeStats name (reporters.map Reporter.endpoint)).totalSlots =
    3 * (reporters.map Reporter.built).sum % 2^32 := by
  have built : (reporters.map fun r => r.endpoint.stats.totalContexts) =
      reporters.map fun r => r.built % 2^32 := by
    apply List.map_congr_left
    intro r _
    rw [r.reported]
    rfl
  simp only [scopeStats,List.map_map,Function.comp_def,List.sum_map_mul_right]
  rw [Nat.mul_mod,built,sum_truncated,← Nat.mul_mod,Nat.mul_comm]

/-- What a scope's workers have in use and free is within what they can serve. -/
theorem sum_active_add_available_le :
    (reporters.map fun r => r.stats.activeRequests).sum + (reporters.map fun r => r.stats.availableSlots).sum ≤
      (reporters.map Reporter.capacity).sum := by
  induction reporters with
  | nil => simp
  | cons r rest ih =>
    have one := r.active_add_available_le
    simp only [List.map_cons,List.sum_cons]
    omega

/-- With the right number of slots the other figures fall into place. -/
theorem scopeStats_agrees_iff : (scopeStats name (reporters.map Reporter.endpoint)).Agrees reporters ↔
    3 * (reporters.map Reporter.built).sum % 2^32 = (reporters.map Reporter.capacity).sum := by
  unfold ScopeStats.Agrees
  rw [scopeStats_slots,scopeStats_active,scopeStats_available]
  constructor
  · exact And.right
  · intro slots
    refine ⟨?_,slots⟩
    have within := sum_active_add_available_le reporters
    have active := Nat.mod_le (reporters.map fun r => r.stats.activeRequests).sum (2^32)
    have available := Nat.mod_le (reporters.map fun r => r.stats.availableSlots).sum (2^32)
    omega

end Scope

/-- The figures of every scope agree with its workers exactly when, in every scope, three
times the contexts built is the number of requests its workers can serve. -/
theorem cluster_stats_agree_iff (cluster : List (String × List Reporter)) :
    List.Forall₂ (fun entry reported => reported.1 = entry.1 ∧ ScopeStats.Agrees reported.2 entry.2)
      cluster (getClusterStats (endpoints cluster)).scopeStats ↔
    ∀ entry ∈ cluster,
      3 * (entry.2.map Reporter.built).sum % 2^32 = (entry.2.map Reporter.capacity).sum := by
  have each : (getClusterStats (endpoints cluster)).scopeStats =
      cluster.map fun entry => (entry.1,scopeStats entry.1 (entry.2.map Reporter.endpoint)) := by
    simp only [getClusterStats,endpoints,List.map_map,Function.comp_def]
  rw [each,List.forall₂_map_right_iff,List.forall₂_same]
  simp only [true_and,scopeStats_agrees_iff]

def freshReporter : Reporter where
  endpoint := ⟨"web-0","10.0.0.1",workerPort,"web",
    workerStats ((Pool.machine (Pool.Config.small .alwaysNew)).initial.pool.stats (Pool.Config.small .alwaysNew)),0,
    false⟩
  cfg := Pool.Config.small .alwaysNew
  state := (Pool.machine (Pool.Config.small .alwaysNew)).initial
  reached := .initial
  busy := (Pool.machine (Pool.Config.small .alwaysNew)).initial.pool.isBusy
  pending := 0
  fewer := Nat.zero_le _
  reported := rfl

theorem cluster_stats_disagree :
    (getClusterStats (endpoints [("web",[freshReporter])])).scopeStats =
      [("web",⟨"web",1,0,1,0⟩)] ∧
    ¬List.Forall₂ (fun entry reported => reported.1 = entry.1 ∧ ScopeStats.Agrees reported.2 entry.2)
      [("web",[freshReporter])] (getClusterStats (endpoints [("web",[freshReporter])])).scopeStats := by
  have figures : (getClusterStats (endpoints [("web",[freshReporter])])).scopeStats =
      [("web",⟨"web",1,0,1,0⟩)] := rfl
  refine ⟨figures,?_⟩
  rw [figures,List.forall₂_cons]
  rintro ⟨⟨_,within,_⟩,_⟩
  exact absurd within (by decide)

end BrowserHive.Coordinator
