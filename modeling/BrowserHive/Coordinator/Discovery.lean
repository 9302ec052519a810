import BrowserHive.Coordinator.InFlight

/-! One discovery round: from the pods Kubernetes lists and how each answered, the map
requests are routed on and what is known of every scope. -/
namespace BrowserHive.Coordinator

/-- What the pod list says about a scope, whether or not one of its pods can serve. -/
structure ScopePresence where
  podsTotal : Nat := 0
  podsReachable : Nat := 0
  podsNotRunning : Nat := 0
  podsTerminating : Nat := 0
  podsUnreachable : Nat := 0
  deriving DecidableEq, Repr

def ScopePresence.describe (p : ScopePresence) : String :=
  let parts :=
    (if p.podsNotRunning > 0 then [toString p.podsNotRunning ++ " not running"] else []) ++
    (if p.podsUnreachable > 0 then [toString p.podsUnreachable ++ " starting up or unreachable"] else []) ++
    (if p.podsTerminating > 0 then [toString p.podsTerminating ++ " terminating"] else [])
  let detail := if parts.isEmpty then "" else " (" ++ ", ".intercalate parts ++ ")"
  toString p.podsTotal ++ " pod(s), " ++ toString p.podsReachable ++ " reachable" ++ detail

/-- A listed pod; `scope` is its label. `answer` is what `GetStats` returned, with the
requests in flight to the pod at that moment, or `none` when it did not answer. -/
structure Pod where
  name : Option String
  scope : Option String
  running : Bool
  terminating : Bool
  podIp : Option String
  answer : Option (WorkerStats × Nat)
  deriving DecidableEq, Repr

def workerPort : Nat := 50052

abbrev Routable := String → Option (List WorkerEndpoint)

abbrev Presences := String → Option ScopePresence

def Routable.All (P : String → WorkerEndpoint → Prop) (m : Routable) : Prop :=
  ∀ scope ws, m scope = some ws → ∀ w ∈ ws, P scope w

def Routable.push (m : Routable) (scope : String) (w : WorkerEndpoint) : Routable :=
  Function.update m scope (some ((m scope).getD [] ++ [w]))

theorem Routable.All.push {P : String → WorkerEndpoint → Prop} {m : Routable} (all : m.All P)
    (new : P scope w) : (m.push scope w).All P := by
  intro other ws found v member
  rw [Routable.push,Function.update_apply] at found
  split at found
  · rename_i same
    subst same
    obtain rfl := Option.some.inj found
    rcases List.mem_append.mp member with old | added
    · cases before : m other with
      | none => simp [before] at old
      | some ws => exact all other ws before v (by simpa [before] using old)
    · exact List.mem_singleton.mp added ▸ new
  · exact all other ws found v member

/-- One pod's turn in the round. A pod without its label, name or address is skipped. -/
def discoverPod (maps : Routable × Presences) (pod : Pod) : Routable × Presences :=
  match pod.scope with
  | none => maps
  | some scope =>
    let presence := (maps.2 scope).getD {}
    let counted := { presence with podsTotal := presence.podsTotal + 1 }
    let skipped := { counted with podsNotRunning := counted.podsNotRunning + 1 }
    if !pod.running then (maps.1,Function.update maps.2 scope (some skipped))
    else match pod.name,pod.podIp,pod.answer with
      | none,_,_ | _,none,_ => (maps.1,Function.update maps.2 scope (some skipped))
      | some name,some ip,some (stats,baseline) =>
        (maps.1.push scope ⟨name,ip,workerPort,scope,stats,baseline,pod.terminating⟩,
          Function.update maps.2 scope (some { counted with podsReachable := counted.podsReachable + 1 }))
      | some _,some _,none =>
        (maps.1,Function.update maps.2 scope (some
          (if pod.terminating then { counted with podsTerminating := counted.podsTerminating + 1 }
          else { counted with podsUnreachable := counted.podsUnreachable + 1 })))

def discoverWorkers (pods : List Pod) : Routable × Presences :=
  pods.foldl discoverPod (fun _ => none,fun _ => none)

/-- A pod is routable under its own label only, with what it answered. -/
theorem discoverPod_routable {P : String → WorkerEndpoint → Prop} {maps : Routable × Presences}
    (all : maps.1.All P)
    (listed : ∀ w scope, pod.name = some w.podName → pod.scope = some scope →
      pod.answer = some (w.stats,w.inFlightAtSnapshot) → P scope w) :
    (discoverPod maps pod).1.All P := by
  unfold discoverPod
  cases label : pod.scope with
  | none => exact all
  | some scope =>
    simp only
    split
    · exact all
    · split
      · exact all
      · exact all
      · next name ip stats baseline named address answered =>
        exact all.push (listed _ scope named label answered)
      · exact all

theorem discoverWorkers_routable {P : String → WorkerEndpoint → Prop}
    (listed : ∀ pod ∈ pods, ∀ w scope, pod.name = some w.podName → pod.scope = some scope →
      pod.answer = some (w.stats,w.inFlightAtSnapshot) → P scope w) :
    (discoverWorkers pods).1.All P := by
  have each : ∀ (maps : Routable × Presences), maps.1.All P → (pods.foldl discoverPod maps).1.All P := by
    induction pods with
    | nil => exact fun maps all => all
    | cons pod rest ih =>
      intro maps all
      rw [List.foldl_cons]
      exact ih (fun p member => listed p (List.mem_cons_of_mem pod member)) _
        (discoverPod_routable all (listed pod List.mem_cons_self))
  exact each _ (fun _ _ found => nomatch found)

end BrowserHive.Coordinator
