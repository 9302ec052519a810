import BrowserHive.Coordinator.InFlight

/-! The coordinator's sessions: a session id names a pod and a browser context on it, and
the store remembers which scope and address the pod was reached under. -/
namespace BrowserHive.Coordinator

structure SessionId where
  workerId : String
  contextId : String
  deriving DecidableEq, Repr

/-- The format handed to clients, `{worker_id}:{context_id}`. -/
def SessionId.toString (id : SessionId) : String := id.workerId ++ ":" ++ id.contextId

def SessionId.fromString (session : String) : Option SessionId :=
  match session.toList.splitOn ':' with
  | [worker,context] => some ⟨String.ofList worker,String.ofList context⟩
  | _ => none

structure SessionInfo where
  sessionId : SessionId
  scopeName : String
  workerEndpoint : String
  lastUsedAt : Nat
  deriving DecidableEq, Repr

abbrev Sessions := String → Option SessionInfo

namespace Sessions

def empty : Sessions := fun _ => none

def createSession (m : Sessions) (now : Nat) (scopeName workerId contextId workerEndpoint : String) :
    SessionId × Sessions :=
  let sessionId : SessionId := ⟨workerId,contextId⟩
  (sessionId,Function.update m sessionId.toString (some ⟨sessionId,scopeName,workerEndpoint,now⟩))

/-- Reading a session also marks it used. -/
def getSession (m : Sessions) (now : Nat) (session : String) : Option (SessionInfo × Sessions) :=
  (m session).map fun info =>
    let used := { info with lastUsedAt := now }
    (used,Function.update m session (some used))

def removeSession (m : Sessions) (session : String) : Sessions := Function.update m session none

def cleanup (m : Sessions) (now ttl : Nat) : Sessions :=
  fun session => (m session).filter (fun info => now - info.lastUsedAt < ttl)

def All (P : SessionInfo → Prop) (m : Sessions) : Prop := ∀ session info, m session = some info → P info

section All

variable {P : SessionInfo → Prop} {m : Sessions}

theorem All.createSession (all : m.All P) (new : P ⟨⟨workerId,contextId⟩,scopeName,endpoint,now⟩) :
    (m.createSession now scopeName workerId contextId endpoint).2.All P := by
  intro session info found
  simp only [Sessions.createSession,Function.update_apply] at found
  split at found
  · exact Option.some.inj found ▸ new
  · exact all session info found

theorem All.getSession (all : m.All P) (used : ∀ (info : SessionInfo) (t : Nat),
    P info → P { info with lastUsedAt := t })
    (got : m.getSession now session = some (info,m')) : P info ∧ m'.All P := by
  obtain ⟨old,found,same⟩ := Option.map_eq_some_iff.mp got
  obtain ⟨rfl,rfl⟩ := Prod.mk.injEq .. ▸ same
  refine ⟨used old now (all session old found),fun other info there => ?_⟩
  rw [Function.update_apply] at there
  split at there
  · exact Option.some.inj there ▸ used old now (all session old found)
  · exact all other info there

theorem All.removeSession (all : m.All P) : (m.removeSession session).All P := by
  intro other info found
  rw [Sessions.removeSession,Function.update_apply] at found
  split at found
  · cases found
  · exact all other info found

theorem All.cleanup (all : m.All P) : (m.cleanup now ttl).All P := by
  intro session info found
  exact all session info (Option.mem_filter_iff.mp found).1

end All

end Sessions

end BrowserHive.Coordinator
