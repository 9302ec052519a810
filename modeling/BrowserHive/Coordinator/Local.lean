import BrowserHive.Lib.Text
import BrowserHive.Coordinator.Machine

/-! Discovery for local development: the workers are named in the environment and never
change, so what is known of the scopes mirrors the routable workers. -/
namespace BrowserHive.Coordinator

/-- `parse::<u16>`: an optional plus sign and decimal digits. -/
def parseU16 (text : List Char) : Option Nat :=
  let digits := if text.head? = some '+' then text.tail else text
  if digits.isEmpty || !digits.all Char.isDigit then none
  else
    let value := digits.foldl (fun value c => 10 * value + (c.toNat - '0'.toNat)) 0
    if value < 2^16 then some value else none

/-- The parts of an entry `scope:host:port` that are read; further parts are not. -/
structure EndpointSpec where
  scopeName : String
  podIp : String
  port : Nat
  deriving DecidableEq, Repr

def defaultPort : Nat := 50052

/-- An entry with fewer than three parts is skipped; a port that is none is the default. -/
def parseEndpointSpec (entry : List Char) : Option EndpointSpec :=
  match (Text.trim entry).splitOn ':' with
  | scopeName :: podIp :: port :: _ =>
    some ⟨String.ofList scopeName,String.ofList podIp,(parseU16 port).getD defaultPort⟩
  | _ => none

def assumedStats : WorkerStats := { totalContexts := 3, availableSlots := 3 }

def EndpointSpec.endpoint (spec : EndpointSpec) : WorkerEndpoint :=
  ⟨"worker-" ++ spec.scopeName,spec.podIp,spec.port,spec.scopeName,assumedStats,0,false⟩

def legacyEndpoint (workerEndpoint workerScope : String) : WorkerEndpoint :=
  let parts := workerEndpoint.toList.splitOn ':'
  ⟨"worker-local",String.ofList (parts.headD []),(parts[1]?.bind parseU16).getD defaultPort,workerScope,
    assumedStats,0,false⟩

def Routable.Lists (m : Routable) (w : WorkerEndpoint) : Prop := ∃ scope ws, m scope = some ws ∧ w ∈ ws

structure LocalWorkerDiscovery where
  workers : Routable
  knownScopes : Presences

namespace LocalWorkerDiscovery

def register (workers : Routable) (entry : List Char) : Routable :=
  match parseEndpointSpec entry with
  | some spec => workers.push spec.scopeName spec.endpoint
  | none => workers

/-- The arguments are the variables `WORKER_ENDPOINTS`, `WORKER_ENDPOINT` and
`WORKER_SCOPE_NAME`, where they are set. -/
def new (workerEndpoints workerEndpoint workerScopeName : Option String) : LocalWorkerDiscovery :=
  let workers : Routable := match workerEndpoints with
    | some text => (text.toList.splitOn ',').foldl register (fun _ => none)
    | none =>
      let workerScope := workerScopeName.getD "local_dev"
      Function.update (fun _ => none) workerScope
        (some [legacyEndpoint (workerEndpoint.getD "worker:50052") workerScope])
  ⟨workers,fun scope => (workers scope).map fun endpoints =>
    { podsTotal := endpoints.length, podsReachable := endpoints.length }⟩

def Lists (discovery : LocalWorkerDiscovery) (w : WorkerEndpoint) : Prop := discovery.workers.Lists w

end LocalWorkerDiscovery

section Entries

variable {m : Routable} {v w : WorkerEndpoint}

theorem Routable.lists_push : (m.push scope v).Lists w ↔ m.Lists w ∨ w = v := by
  constructor
  · rintro ⟨other,ws,found,member⟩
    rw [Routable.push,Function.update_apply] at found
    by_cases same : other = scope
    · subst same
      rw [if_pos rfl] at found
      obtain rfl := Option.some.inj found
      rcases List.mem_append.mp member with old | new
      · cases before : m other with
        | none => simp [before] at old
        | some ws => exact .inl ⟨other,ws,before,by simpa [before] using old⟩
      · exact .inr (List.mem_singleton.mp new)
    · rw [if_neg same] at found
      exact .inl ⟨other,ws,found,member⟩
  · rintro (⟨other,ws,found,member⟩ | rfl)
    · by_cases same : other = scope
      · subst same
        exact ⟨other,ws ++ [v],by simp [Routable.push,found],List.mem_append_left _ member⟩
      · exact ⟨other,ws,by simp [Routable.push,same,found],member⟩
    · exact ⟨scope,(m scope).getD [] ++ [w],by simp [Routable.push],List.mem_append_right _ (List.mem_singleton.mpr rfl)⟩

theorem register_lists : (LocalWorkerDiscovery.register m entry).Lists w ↔
    m.Lists w ∨ ∃ spec, parseEndpointSpec entry = some spec ∧ w = spec.endpoint := by
  unfold LocalWorkerDiscovery.register
  cases parsed : parseEndpointSpec entry with
  | none => simp
  | some spec => simp [Routable.lists_push]

/-- The map lists a worker for each entry that has a scope, a host and a port. -/
theorem registered_lists {entries : List (List Char)} :
    (entries.foldl LocalWorkerDiscovery.register m).Lists w ↔
      m.Lists w ∨ ∃ entry ∈ entries, ∃ spec, parseEndpointSpec entry = some spec ∧ w = spec.endpoint := by
  induction entries generalizing m with
  | nil => simp
  | cons entry rest ih =>
    rw [List.foldl_cons,ih,register_lists,or_assoc]
    simp only [List.mem_cons,exists_eq_or_imp]

theorem registered_all {P : String → WorkerEndpoint → Prop} {entries : List (List Char)} (all : m.All P)
    (each : ∀ spec : EndpointSpec, P spec.scopeName spec.endpoint) :
    (entries.foldl LocalWorkerDiscovery.register m).All P := by
  induction entries generalizing m with
  | nil => exact all
  | cons entry rest ih =>
    apply ih
    unfold LocalWorkerDiscovery.register
    cases parseEndpointSpec entry with
    | none => exact all
    | some spec => exact all.push (each spec)

end Entries

theorem EndpointSpec.podName_eq_iff (a b : EndpointSpec) :
    a.endpoint.podName = b.endpoint.podName ↔ a.scopeName = b.scopeName :=
  String.append_right_inj "worker-"

theorem new_lists (text : String) (endpoint scope : Option String) :
    (LocalWorkerDiscovery.new (some text) endpoint scope).Lists w ↔
      ∃ entry ∈ text.toList.splitOn ',', ∃ spec, parseEndpointSpec entry = some spec ∧ w = spec.endpoint := by
  refine registered_lists.trans (or_iff_right ?_)
  rintro ⟨_,_,found,_⟩
  cases found

/-- Locally discovered workers at different endpoints have different names exactly when no
two entries of the variable agree in their scope and differ in their host or port. -/
theorem local_identities_distinct (text : String) (endpoint scope : Option String) :
    (∀ v w, (LocalWorkerDiscovery.new (some text) endpoint scope).Lists v →
      (LocalWorkerDiscovery.new (some text) endpoint scope).Lists w →
      (v.podIp,v.port) ≠ (w.podIp,w.port) → v.podName ≠ w.podName) ↔
    ∀ first ∈ text.toList.splitOn ',', ∀ second ∈ text.toList.splitOn ',', ∀ a b,
      parseEndpointSpec first = some a → parseEndpointSpec second = some b →
      a.scopeName = b.scopeName → a.podIp = b.podIp ∧ a.port = b.port := by
  simp only [new_lists]
  constructor
  · intro distinct first here second there a b parsed parsed' same
    have merged : a.endpoint.podName = b.endpoint.podName := (EndpointSpec.podName_eq_iff a b).mpr same
    by_contra apart
    refine distinct a.endpoint b.endpoint ⟨first,here,a,parsed,rfl⟩ ⟨second,there,b,parsed',rfl⟩ ?_ merged
    intro equal
    exact apart (Prod.mk.inj equal)
  · rintro unique _ _ ⟨first,here,a,parsed,rfl⟩ ⟨second,there,b,parsed',rfl⟩ apart merged
    have same : a.scopeName = b.scopeName := (EndpointSpec.podName_eq_iff a b).mp merged
    obtain ⟨ip,port⟩ := unique first here second there a b parsed parsed' same
    exact apart (Prod.ext ip port)

def localLabel (workerEndpoints workerScopeName : Option String) (podName : String) : String :=
  match workerEndpoints with
  | some _ => String.ofList (podName.toList.drop "worker-".length)
  | none => workerScopeName.getD "local_dev"

theorem new_labelled (endpoints endpoint scope : Option String) :
    (LocalWorkerDiscovery.new endpoints endpoint scope).workers.All
      (fun name w => localLabel endpoints scope w.podName = name) := by
  cases endpoints with
  | some text =>
    refine registered_all (fun _ _ found => nomatch found) fun spec => ?_
    have named : "worker-".toList.length = "worker-".length := by decide
    change String.ofList (("worker-" ++ spec.scopeName).toList.drop "worker-".length) = spec.scopeName
    rw [String.toList_append,List.drop_left' named,String.ofList_toList]
  | none =>
    intro name ws found w member
    simp only [LocalWorkerDiscovery.new,Function.update_apply] at found
    split at found
    · next same => exact same.symm
    · cases found

def LocalWorkerDiscovery.fleet (endpoints endpoint scope : Option String) : Fleet :=
  ⟨localLabel endpoints scope,(new endpoints endpoint scope).workers,
    (new endpoints endpoint scope).knownScopes,new_labelled endpoints endpoint scope⟩

def sharedScope : String := "web:10.0.0.1:50052, web:10.0.0.2:50052"

theorem local_identities_merged : ∃ v w,
    (LocalWorkerDiscovery.new (some sharedScope) none none).Lists v ∧
    (LocalWorkerDiscovery.new (some sharedScope) none none).Lists w ∧
    (v.podIp,v.port) ≠ (w.podIp,w.port) ∧ v.podName = w.podName := by
  let first : EndpointSpec := ⟨"web","10.0.0.1",50052⟩
  let second : EndpointSpec := ⟨"web","10.0.0.2",50052⟩
  refine ⟨first.endpoint,second.endpoint,?_,?_,by decide,rfl⟩
  · exact (new_lists ..).mpr ⟨"web:10.0.0.1:50052".toList,by decide,first,by decide,rfl⟩
  · exact (new_lists ..).mpr ⟨" web:10.0.0.2:50052".toList,by decide,second,by decide,rfl⟩

end BrowserHive.Coordinator
