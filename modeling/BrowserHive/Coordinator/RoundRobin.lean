import Mathlib.Data.Finset.Sort
import Mathlib.Data.String.Basic
import Mathlib.Order.Interval.Finset.Nat
import BrowserHive.Coordinator.Rounds

/-! Round-robin among the workers of a scope that tie on free slots. One counter serves the
routing decisions of every scope, retries included, so what two requests of one scope are
sent to depends on the decisions that fall between them. -/
namespace BrowserHive.Coordinator

open Transition

def mostFree (candidates : List WorkerEndpoint) (freeSlots : WorkerEndpoint → Nat) : List String :=
  (candidates.filter fun w => candidates.all fun v => freeSlots v ≤ freeSlots w).map WorkerEndpoint.podName

section Pick

variable {candidates scopeWorkers : List WorkerEndpoint} {freeSlots : WorkerEndpoint → Nat}
  {healthy : List String} {T : Finset String}

instance : Std.Total byPodName := ⟨fun a b => String.le_total a.1.podName b.1.podName⟩

instance : IsTrans (WorkerEndpoint × Nat) byPodName := ⟨fun _ _ _ => String.le_trans⟩

theorem best_eq_all (max : ((candidates.map fun w => (w,freeSlots w)).map Prod.snd).max? = some best)
    (member : w ∈ candidates) : (freeSlots w == best) = candidates.all (fun v => freeSlots v ≤ freeSlots w) := by
  obtain ⟨attained,bound⟩ := List.max?_eq_some_iff.mp max
  have least : ∀ v ∈ candidates, freeSlots v ≤ best :=
    fun v member => bound _ (List.mem_map.mpr ⟨_,List.mem_map_of_mem member,rfl⟩)
  rw [Bool.eq_iff_iff,beq_iff_eq,List.all_eq_true]
  constructor
  · intro equal v other
    simpa [equal] using least v other
  · intro exceeds
    obtain ⟨entry,listed,rfl⟩ := List.mem_map.mp attained
    obtain ⟨v,other,rfl⟩ := List.mem_map.mp listed
    exact Nat.le_antisymm (least w member) (by simpa using exceeds v other)

theorem ranked_best (max : ((candidates.map fun w => (w,freeSlots w)).map Prod.snd).max? = some best) :
    ((candidates.map fun w => (w,freeSlots w)).filter fun entry => entry.2 == best).map
      (fun entry => entry.1.podName) = mostFree candidates freeSlots := by
  rw [List.filter_map,List.map_map,mostFree]
  apply congrArg
  exact List.filter_congr fun w => best_eq_all max

/-- The pick from a set of tied pods: ordered by name, the one the counter points to. -/
theorem pickMostFree_name (rotation : Nat) (tied : (mostFree candidates freeSlots : Multiset String) = T.val) :
    (pickMostFree candidates freeSlots rotation).map (fun picked => picked.1.podName) =
      (T.sort)[rotation % T.card]? := by
  unfold pickMostFree
  cases max : ((candidates.map fun w => (w,freeSlots w)).map Prod.snd).max? with
  | none =>
    obtain rfl : candidates = [] := by simpa using max
    obtain rfl : T = ∅ := Finset.val_eq_zero.mp tied.symm
    simp
  | some best =>
    generalize ordered : ((candidates.map fun w => (w,freeSlots w)).filter fun entry =>
      entry.2 == best).insertionSort byPodName = picks
    have names : picks.map (fun entry => entry.1.podName) = T.sort := by
      apply List.Perm.eq_of_pairwise' (r := (· ≤ ·))
      · rw [← ordered,List.pairwise_map]
        exact List.pairwise_insertionSort byPodName _
      · exact T.pairwise_sort (· ≤ ·)
      · apply Multiset.coe_eq_coe.mp
        rw [Finset.sort_eq,← tied,← ranked_best max,← ordered]
        exact Multiset.coe_eq_coe.mpr ((List.perm_insertionSort ..).map _)
    have length : picks.length = T.card := by
      rw [← List.length_map (fun entry : WorkerEndpoint × Nat => entry.1.podName),names,Finset.length_sort]
    simp only [max,Option.bind_eq_bind,Option.bind_some,ordered]
    rw [length,← names,List.getElem?_map]

/-- With healthy workers in the scope, the pick is one of these. -/
theorem selectBestWorker_name (rotation : Nat) (some_ : T.Nonempty)
    (tied : (mostFree (scopeWorkers.filter fun w => w.podName ∈ healthy) freeSlots : Multiset String) = T.val) :
    (selectBestWorker scopeWorkers healthy freeSlots rotation).map (fun selected => selected.worker.podName) =
      (T.sort)[rotation % T.card]? := by
  have alive : (scopeWorkers.filter fun w => w.podName ∈ healthy).isEmpty = false := by
    rw [List.isEmpty_eq_false_iff]
    intro empty
    rw [empty] at tied
    exact some_.ne_empty (Finset.val_eq_zero.mp tied.symm)
  rw [← pickMostFree_name rotation tied,selectBestWorker,alive,Option.map_map]
  rfl

end Pick

def Shared.mostFree (c : Shared) (scopeName : String) : List String :=
  Coordinator.mostFree (((c.routable scopeName).getD []).filter fun w => w.podName ∈ c.healthy) c.freeSlots

def Pc.picked : Pc → Option String
  | .refreshing target | .dispatching target _ => some target.workerId
  | _ => none

/-- A routing decision: the first one of a session-less request, or that of a retry. `counter`
is what it read of the routing counter. -/
structure Decision where
  scopeName : String
  first : Bool
  counter : Nat
  mostFree : List String
  pod : Option String
  deriving DecidableEq, Repr

def Decision.made (c : Shared) (h h' : Handler) : Decision :=
  ⟨h.req.scopeName,h.pc = .routing,c.rotation,c.mostFree h.req.scopeName,h'.pc.picked⟩

/-- A decision is made when the routing counter advances. -/
def Decision.follow (s : State) (log : List Decision) (a : Action) (t : State) : Option (List Decision) :=
  match a with
  | .advance i _ => do
    let h ← s.handlers[i]?
    let h' ← t.handlers[i]?
    some (if t.shared.rotation = s.shared.rotation then log else log ++ [.made s.shared h h'])
  | _ => some log

def routings (fleet : Fleet) : Machine (State × List Decision) Action :=
  (openMachine fleet).record [] id Decision.follow

/-- The decision on a request picks the tied pod its counter points to. -/
def Decision.InTurn (d : Decision) : Prop :=
  d.first = true → ∀ T : Finset String, (d.mostFree : Multiset String) = T.val → T.Nonempty →
    d.pod = (T.sort)[d.counter % T.card]?

/-- The decisions are numbered by the counter. -/
structure Numbered (s : State × List Decision) : Prop where
  rotation : s.1.shared.rotation = s.2.length % 2^64
  counter : ∀ (k : Nat) (d : Decision), s.2[k]? = some d → d.counter = k % 2^64
  inTurn : ∀ d ∈ s.2, d.InTurn

section Step

variable {fleet : Fleet} {s t : State × List Decision} {a : Action} {c c' : Shared} {h h' : Handler}

/-- The counter advances at a routing decision and nowhere else. -/
theorem Move.rotation (moved : Move c h (c',h')) : c'.rotation = c.rotation ∨
    c'.rotation = (c.rotation + 1) % 2^64 ∧ h'.pc ≠ .dropped := by
  cases moved with
  | refuse why =>
    cases why with
    | unselected => exact .inr ⟨rfl,by simp [Handler.goto]⟩
    | _ => exact .inl rfl
  | select _ _ _ _ full =>
    rcases full with ⟨rfl,_⟩ | ⟨rfl,_⟩
    · exact .inr ⟨rfl,by simp [Handler.goto]⟩
    · exact .inr ⟨rfl,by simp [Handler.goto]⟩
  | dispatch at_ => split <;> exact .inl rfl
  | judge at_ judged => cases judged <;> simp
  | retry at_ retried =>
    cases retried with
    | break_ same =>
      rcases same with rfl | rfl
      · exact .inl (by simp)
      · exact .inr ⟨by simp [Shared.rotate],by simp [Handler.goto]⟩
    | again => exact .inr ⟨by simp [Shared.rotate,Shared.sample],by simp [Handler.goto]⟩
  | respond at_ responded => cases responded <;> exact .inl rfl
  | invalid at_ | drop at_ => simp [Shared.sample]
  | _ => exact .inl rfl

theorem Move.inTurn (moved : Move c h (c',h')) (rotated : c'.rotation ≠ c.rotation) :
    (Decision.made c h h').InTurn := by
  intro first T tied some_
  have at_ : h.pc = .routing := of_decide_eq_true first
  have name (ws : List WorkerEndpoint) (listed : c.routable h.req.scopeName = some ws) :
      (selectBestWorker ws c.healthy c.freeSlots c.rotation).map (fun selected => selected.worker.podName) =
        (T.sort)[c.rotation % T.card]? := by
    apply selectBestWorker_name c.rotation some_
    simpa [Decision.made,Shared.mostFree,listed] using tied
  cases moved with
  | select _ _ listed selected full =>
    have picked := name _ listed
    rw [selected] at picked
    rcases full with ⟨rfl,_⟩ | ⟨rfl,_⟩
    · exact picked
    · exact picked
  | refuse why =>
    cases why with
    | unselected _ _ listed none_ =>
      have picked := name _ listed
      rw [none_] at picked
      exact picked
    | _ => exact absurd rfl rotated
  | look _ | miss _ | found _ | forget _ => exact absurd rfl rotated
  | accept other | confirm other | dispatch other | connect other | invalid other | retry other
  | unreachable other | respond other => simp [at_] at other
  | judge other =>
    rcases other with other | ⟨_,other⟩
    · simp [at_] at other
    · simp [at_] at other
  | drop => simp [Shared.sample] at rotated

theorem Numbered.initial (fleet : Fleet) : Numbered (routings fleet).initial :=
  ⟨rfl,nofun,nofun⟩

theorem Numbered.step (numbered : Numbered s) (taken : (routings fleet).step s a = some t) : Numbered t := by
  obtain ⟨s,log⟩ := s
  obtain ⟨t,log'⟩ := t
  obtain ⟨stepped,followed⟩ := Machine.record_step taken
  have kept (same : t.shared.rotation = s.shared.rotation) (log_ : log' = log) : Numbered (t,log') := by
    subst log_
    exact ⟨same.trans numbered.rotation,numbered.counter,numbered.inTurn⟩
  rcases openStep_cases stepped with ⟨pods,rfl,rfl⟩ | ⟨_,turn⟩
  · exact kept rfl (Option.some.inj followed).symm
  · cases turn with
    | @request i h shared h' _ here moved act =>
      rcases act with ⟨rfl,dropped⟩ | ⟨event,rfl⟩
      · rcases moved.rotation with same | ⟨_,going⟩
        · exact kept same (Option.some.inj followed).symm
        · exact absurd dropped going
      · have bound := (List.getElem?_eq_some_iff.mp here).1
        simp only [Decision.follow,here,List.getElem?_set_self bound] at followed
        by_cases same : shared.rotation = s.shared.rotation
        · exact kept same (by simpa [same] using followed.symm)
        · obtain rfl : log ++ [.made s.shared h h'] = log' := by simpa [same] using followed
          obtain ⟨advanced,_⟩ := moved.rotation.resolve_left same
          have rotation : s.shared.rotation = log.length % 2^64 := numbered.rotation
          apply Numbered.mk
          · calc shared.rotation = (s.shared.rotation + 1) % 2^64 := advanced
              _ = (log.length + 1) % 2^64 := by rw [rotation,Nat.mod_add_mod]
              _ = _ := by rw [List.length_append,List.length_singleton]
          · intro k d there
            rcases Tasks.getElem?_append_cases there with old | ⟨rfl,rfl⟩
            · exact numbered.counter k d old
            · exact rotation
          · intro d member
            rcases List.mem_append.mp member with old | new
            · exact numbered.inTurn d old
            · rw [List.mem_singleton.mp new]
              exact moved.inTurn same
    | arrive => exact kept rfl (Option.some.inj followed).symm
    | background works act =>
      apply kept works.rotation
      unfold Decision.follow at followed
      split at followed
      · exact absurd rfl (act.1 _ _)
      · exact (Option.some.inj followed).symm

theorem routings_numbered (run : (routings fleet).Reachable s) : Numbered s :=
  Machine.Reachable.invariant (Numbered.initial fleet) (fun _ _ _ _ numbered taken => numbered.step taken) run

end Step

/-- Of `n` tied pods, those at different places of the order are different. -/
theorem places_nodup (T : Finset String) (some_ : 0 < T.card) (counters : List Nat) :
    (counters.map fun k => (T.sort)[k % T.card]?).Nodup ↔ (counters.map fun k => k % T.card).Nodup := by
  have placed : (counters.map fun k => (T.sort)[k % T.card]?) =
      (counters.map fun k => k % T.card).map fun j => (T.sort)[j]? := by
    rw [List.map_map]
    rfl
  rw [placed]
  constructor
  · exact List.Nodup.of_map _
  · intro apart
    apply apart.map_on
    intro j there k _ same
    obtain ⟨counter,_,rfl⟩ := List.mem_map.mp there
    apply (List.getElem?_inj _ (T.sort_nodup _)).mp same
    rw [Finset.length_sort]
    exact Nat.mod_lt counter some_

section Window

variable {s : State} {log window : List Decision} {T : Finset String}

structure Tied (log : List Decision) (T : Finset String) (window : List Decision) : Prop where
  made : ∀ d ∈ window, d ∈ log
  first : ∀ d ∈ window, d.first = true
  same : ∀ d ∈ window, (d.mostFree : Multiset String) = T.val

theorem Tied.picked (among : Tied log T window) (numbered : Numbered (s,log)) (some_ : 0 < T.card)
    (d : Decision) (member : d ∈ window) : d.pod = (T.sort)[d.counter % T.card]? :=
  numbered.inTurn d (among.made d member) (among.first d member) T (among.same d member)
    (Finset.card_pos.mp some_)

theorem Tied.mem (among : Tied log T window) (numbered : Numbered (s,log)) (some_ : 0 < T.card)
    (d : Decision) (member : d ∈ window) : ∃ pod ∈ T, d.pod = some pod := by
  have bound : d.counter % T.card < T.sort.length := by
    rw [Finset.length_sort]
    exact Nat.mod_lt _ some_
  refine ⟨T.sort[d.counter % T.card],?_,?_⟩
  · exact (Finset.mem_sort _).mp (List.getElem_mem bound)
  · rw [among.picked numbered some_ d member,List.getElem?_eq_getElem bound]

theorem Tied.nodup_iff (among : Tied log T window) (numbered : Numbered (s,log)) (some_ : 0 < T.card) :
    (window.map Decision.pod).Nodup ↔ (window.map fun d => d.counter % T.card).Nodup := by
  have places := places_nodup T some_ (window.map Decision.counter)
  rw [List.map_map,List.map_map] at places
  rw [List.map_congr_left (among.picked numbered some_)]
  exact places

end Window

/-- The decisions of all scopes are numbered by one counter. While the most-free healthy
workers of a scope are the same `n` pods, `n` consecutive session-less requests of it are
routed to different ones of them exactly when their numbers are different modulo `n`. -/
theorem requests_rotate_iff (fleet : Fleet) (run : (routings fleet).Reachable (s,log)) :
    (∀ (k : Nat) (d : Decision), log[k]? = some d → d.counter = k % 2^64) ∧
    ∀ (scope : String) (T : Finset String) (window : List Decision),
      window <:+: log.filter (fun d => d.first && d.scopeName == scope) →
      (∀ d ∈ window, (d.mostFree : Multiset String) = T.val) → window.length = T.card →
      (∀ d ∈ window, ∃ pod ∈ T, d.pod = some pod) ∧
      ((window.map Decision.pod).Nodup ↔ (window.map fun d => d.counter % T.card).Nodup) := by
  have numbered := routings_numbered run
  refine ⟨numbered.counter,fun scope T window consecutive tied count => ?_⟩
  have chosen : ∀ d ∈ window, d ∈ log ∧ d.first = true := by
    intro d member
    obtain ⟨listed,first⟩ := List.mem_filter.mp (consecutive.subset member)
    exact ⟨listed,(Bool.and_eq_true_iff.mp first).1⟩
  have among : Tied log T window := ⟨fun d member => (chosen d member).1,fun d member => (chosen d member).2,tied⟩
  by_cases some_ : 0 < T.card
  · exact ⟨among.mem numbered some_,among.nodup_iff numbered some_⟩
  · obtain rfl : window = [] := List.length_eq_zero_iff.mp (by omega)
    simp

/-- Two pods of one scope and one of another, all with room. -/
def threePods : List Action :=
  [.discover [.ready "a-0" "a" 5,.ready "a-1" "a" 5,.ready "b-0" "b" 5],.monitor ["a-0","a-1","b-0"]]

def served (i : Nat) (scope : String) : List Action :=
  .arrive (.page scope "") :: dispatched i ++ [.advance i (.answered ⟨true,200,"",0,""⟩),.advance i .go]

def onlyKubernetes : Fleet := .discovered id

theorem requests_rotate_undisturbed : ∃ s first second,
    (routings onlyKubernetes).exec (threePods ++ served 0 "a" ++ served 1 "a")
      (routings onlyKubernetes).initial = some (s,[first,second]) ∧
    ([first,second].map Decision.pod).Nodup := by
  obtain ⟨s,first,second,ran,listed,tied,apart⟩ : ∃ s first second,
      (routings onlyKubernetes).exec (threePods ++ served 0 "a" ++ served 1 "a")
        (routings onlyKubernetes).initial = some (s,[first,second]) ∧
      [first,second].filter (fun d => d.first && d.scopeName == "a") = [first,second] ∧
      (first.mostFree = ["a-0","a-1"] ∧ second.mostFree = ["a-0","a-1"]) ∧
      first.counter % 2 ≠ second.counter % 2 :=
    ⟨_,_,_,rfl,by decide +kernel,by decide +kernel,by decide +kernel⟩
  refine ⟨s,first,second,ran,?_⟩
  have pair : (["a-0","a-1"] : List String).Nodup := by decide
  have both := (requests_rotate_iff onlyKubernetes (Machine.reachable_of_exec ran)).2 "a"
    ⟨["a-0","a-1"],pair⟩ [first,second]
  have rotate := (both ?_ ?_ rfl).2
  · have numbers : ([first,second].map fun d => d.counter % 2).Nodup := by simpa using apart
    exact rotate.mpr numbers
  · rw [listed]
  · simp [tied]

/-- A request of another scope in between, and the same pod is picked twice. -/
theorem other_scope_turns_counter : ∃ s first other second,
    (routings onlyKubernetes).exec (threePods ++ served 0 "a" ++ served 1 "b" ++ served 2 "a")
      (routings onlyKubernetes).initial = some (s,[first,other,second]) ∧
    [first,other,second].filter (fun d => d.first && d.scopeName == "a") = [first,second] ∧
    first.mostFree = ["a-0","a-1"] ∧ second.mostFree = ["a-0","a-1"] ∧ first.pod = second.pod :=
  ⟨_,_,_,_,rfl,by decide +kernel,by decide +kernel,by decide +kernel,by decide +kernel⟩

end BrowserHive.Coordinator
