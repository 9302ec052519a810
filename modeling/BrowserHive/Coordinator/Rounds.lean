import BrowserHive.Lib.Record
import BrowserHive.Coordinator.Scope

/-! Discovery rounds against requests for a scope that is not routable: a round replaces the
routable map and then what is known of scopes, and such a request reads both. A round lists
any pods at all: here a pod's name does not fix its label. -/
namespace BrowserHive.Coordinator

open Transition

def openStep (fleet : Fleet) (s : State) : Action → Option State
  | .discover pods =>
    if s.shared.found.isNone ∧ s.handlers.all (fun h => !h.pc.reads) then
      let maps := discoverWorkers pods
      some { s with shared := { s.shared with routable := maps.1, found := some maps.2 } }
    else none
  | a => step fleet s a

def openMachine (fleet : Fleet) : Machine State Action := ⟨fleet.initial,openStep fleet⟩

/-- What a step does to the maps that discovery writes. -/
inductive Mapped (s : State) (a : Action) (t : State) : Prop where
  | discovered (act : a = .discover pods) (idle : s.shared.found = none)
      (unread : ∀ (i : Nat) (h : Handler), s.handlers[i]? = some h → h.pc.reads = false)
      (same : t = { s with shared := { s.shared with
        routable := (discoverWorkers pods).1, found := some (discoverWorkers pods).2 } })
  | published (act : a = .publish) (half : s.shared.found = some known)
      (same : t = { s with shared := { s.shared with presences := known, found := none } })
  | kept (act : (∀ pods, a ≠ .discover pods) ∧ a ≠ .publish) (routable : t.shared.routable = s.shared.routable)
      (presences : t.shared.presences = s.shared.presences) (found : t.shared.found = s.shared.found)

variable {fleet : Fleet} {s t : State} {a : Action}

/-- Apart from the rounds, the steps are those of the coordinator. -/
theorem openStep_cases (taken : openStep fleet s a = some t) :
    (∃ pods, a = .discover pods ∧ t = { s with shared := { s.shared with
      routable := (discoverWorkers pods).1, found := some (discoverWorkers pods).2 } }) ∨
    (∀ pods, a ≠ .discover pods) ∧ Turn fleet s a t := by
  cases a with
  | discover pods =>
    simp only [openStep] at taken
    split at taken
    · exact .inl ⟨pods,rfl,(Option.some.inj taken).symm⟩
    · contradiction
  | _ => exact .inr ⟨nofun,step_turn taken⟩

theorem openStep_mapped (taken : openStep fleet s a = some t) : Mapped s a t := by
  have request {i : Nat} (act : Shared → Handler → Option (Shared × Handler))
      (moves : ∀ c h r, act c h = some r → Move c h r) (other : (∀ pods, a ≠ .discover pods) ∧ a ≠ .publish)
      (taken : s.take i act = some t) : Mapped s a t := by
    obtain ⟨h,shared,h',here,moved,rfl⟩ := take_cases act taken
    have moved := moves _ _ _ moved
    exact .kept other moved.frame.routable moved.frame.presences moved.frame.found
  cases a with
  | discover pods =>
    simp only [openStep] at taken
    split at taken
    · next round =>
      apply Mapped.discovered rfl (Option.isNone_iff_eq_none.mp round.1) _ (Option.some.inj taken).symm
      intro i h here
      simpa using List.all_eq_true.mp round.2 h (List.mem_of_getElem? here)
    · contradiction
  | publish =>
    obtain ⟨known,half,rfl⟩ := Option.map_eq_some_iff.mp taken
    exact .published rfl half rfl
  | advance i event => exact request (fun shared h => next shared h event) (fun _ _ _ => next_move) (by simp) taken
  | drop i => exact request dropNext (fun _ _ _ => drop_move) (by simp) taken
  | tick | cancel | arrive | monitor | cleanup =>
    obtain rfl := Option.some.inj taken
    exact .kept (by simp) rfl rfl rfl

theorem discoverPod_known (maps : Routable × Presences) (pod : Pod) (scope : String) :
    ((discoverPod maps pod).2 scope).isSome ↔ (maps.2 scope).isSome ∨ pod.scope = some scope := by
  unfold discoverPod
  cases label : pod.scope with
  | none => simp
  | some own =>
    have updated (known : ScopePresence) : (Function.update maps.2 own (some known) scope).isSome ↔
        (maps.2 scope).isSome ∨ some own = some scope := by
      by_cases same : scope = own
      · simp [same]
      · simp [Function.update_of_ne same,Ne.symm same]
    simp only
    split
    · exact updated _
    · split <;> exact updated _

theorem discoverPod_listed (maps : Routable × Presences) (pod : Pod) (scope : String)
    (listed : ((discoverPod maps pod).1 scope).isSome) : (maps.1 scope).isSome ∨ pod.scope = some scope := by
  unfold discoverPod at listed
  cases label : pod.scope with
  | none =>
    rw [label] at listed
    exact .inl listed
  | some own =>
    by_cases same : scope = own
    · exact .inr (by rw [same])
    · left
      simp only [label] at listed
      split at listed
      · exact listed
      · split at listed
        · exact listed
        · exact listed
        · simpa [Routable.push,Function.update_of_ne same] using listed
        · exact listed

/-- What a round knows of a scope: whether it lists a pod with its label. -/
theorem discoverWorkers_known (pods : List Pod) (scope : String) :
    ((discoverWorkers pods).2 scope).isSome ↔ ∃ pod ∈ pods, pod.scope = some scope := by
  have each (maps : Routable × Presences) : ((pods.foldl discoverPod maps).2 scope).isSome ↔
      (maps.2 scope).isSome ∨ ∃ pod ∈ pods, pod.scope = some scope := by
    induction pods generalizing maps with
    | nil => simp
    | cons pod rest ih =>
      rw [List.foldl_cons,ih,discoverPod_known,or_assoc]
      simp
  rw [discoverWorkers,each]
  simp

theorem discoverWorkers_listed (pods : List Pod) (scope : String) :
    ((discoverWorkers pods).1 scope).isSome → ∃ pod ∈ pods, pod.scope = some scope := by
  have each (maps : Routable × Presences) (listed : ((pods.foldl discoverPod maps).1 scope).isSome) :
      (maps.1 scope).isSome ∨ ∃ pod ∈ pods, pod.scope = some scope := by
    induction pods generalizing maps with
    | nil => exact .inl listed
    | cons pod rest ih =>
      rcases ih (discoverPod maps pod) listed with before | ⟨other,member,label⟩
      · rcases discoverPod_listed maps pod scope before with old | label
        · exact .inl old
        · exact .inr ⟨pod,List.mem_cons_self,label⟩
      · exact .inr ⟨other,List.mem_cons_of_mem pod member,label⟩
  intro listed
  simpa using each _ listed

/-- The code a request was answered with when its scope was not routable, and the pods of
the round whose routable map it had read. -/
structure Verdict where
  scopeName : String
  errorCode : Int
  pods : List Pod
  deriving DecidableEq, Repr

/-- A scope with pods in the round exists, though none of them is routable. -/
structure Verdict.Right (v : Verdict) : Prop where
  missing : v.errorCode = ErrorCode.scopeNotFound.code → ∀ pod ∈ v.pods, pod.scope ≠ some v.scopeName
  starting : (∃ pod ∈ v.pods, pod.scope = some v.scopeName) → v.errorCode = ErrorCode.noWorkersAvailable.code

/-- The pod list of the latest round, the one of the round that each request read the
routable map of, and the verdicts on scopes that were not routable. -/
structure Rounds where
  latest : List Pod
  read : Nat → List Pod
  verdicts : List Verdict

namespace Rounds

def start : Rounds := ⟨[],fun _ => [],[]⟩

def observe (r : Rounds) (i : Nat) (h h' : Handler) : Rounds :=
  match h.pc,h'.pc with
  | .routing,_ => { r with read := Function.update r.read i r.latest }
  | .missing,.responded response =>
    { r with verdicts := r.verdicts ++ [⟨h.req.scopeName,response.errorCode,r.read i⟩] }
  | _,_ => r

def follow (s : State) (r : Rounds) (a : Action) (t : State) : Option Rounds :=
  match a with
  | .discover pods => some { r with latest := pods }
  | .advance i _ => do
    let h ← s.handlers[i]?
    let h' ← t.handlers[i]?
    some (r.observe i h h')
  | _ => some r

end Rounds

/-- A coordinator that knows its fleet from Kubernetes alone. -/
def rounds (label : String → String) : Machine (State × Rounds) Action :=
  (openMachine (.discovered label)).record .start id Rounds.follow

/-- The scope is looked up in what is known, while what the round found is not stored yet,
only if a scope the round found was known before. -/
def KnownBefore (s : State × Rounds) : Action → Prop
  | .advance i .go => ∀ (h : Handler), s.1.handlers[i]? = some h → h.pc = .missing →
    ∀ found, s.1.shared.found = some found → (found h.req.scopeName).isSome →
      (s.1.shared.presences h.req.scopeName).isSome
  | _ => True

/-- The maps are those of the latest round, the second one once it is stored; a request
between its two reads holds the first map where it is. -/
structure Current (s : State × Rounds) : Prop where
  routable : s.1.shared.routable = (discoverWorkers s.2.latest).1
  known : s.1.shared.found.getD s.1.shared.presences = (discoverWorkers s.2.latest).2
  read : ∀ (i : Nat) (h : Handler), s.1.handlers[i]? = some h → h.pc = .missing → s.2.read i = s.2.latest

section Step

variable {label : String → String} {s t : State × Rounds} {a : Action} {i : Nat} {h : Handler}

theorem Move.missing (moved : Move c h (c',h')) (at_ : h'.pc = .missing) : h.pc = .routing := by
  cases moved with
  | miss routing => exact routing
  | select routing => exact routing
  | judge _ judged => cases judged <;> simp at at_
  | retry _ retried => cases retried <;> simp [Handler.goto] at at_
  | respond _ responded => cases responded <;> simp [Handler.goto] at at_
  | _ => simp [Handler.goto] at at_

/-- A scope that is not routable gets the answer that what is known of it decides. -/
theorem next_of_missing {c : Shared} {r : Shared × Handler} (at_ : h.pc = .missing)
    (moved : next c h event = some r) : event = .go ∧ ∃ response, r.2.pc = .responded response ∧
      response.errorCode = (classifyMissingScope h.req.scopeName (c.presences h.req.scopeName)).2.1.code := by
  simp only [next,at_,routeNext] at moved
  cases event with
  | go =>
    obtain rfl := Option.some.inj moved
    exact ⟨rfl,_,rfl,rfl⟩
  | _ => contradiction

theorem Rounds.observe_latest (r : Rounds) (i : Nat) (h h' : Handler) : (r.observe i h h').latest = r.latest := by
  unfold Rounds.observe
  split <;> rfl

theorem Rounds.follow_cases {s t : State} (followed : Rounds.follow s r a t = some r') :
    (∃ pods, a = .discover pods ∧ r' = { r with latest := pods }) ∨
    (∃ i event h h', a = .advance i event ∧ s.handlers[i]? = some h ∧ t.handlers[i]? = some h' ∧
      r' = r.observe i h h') ∨
    (∀ pods, a ≠ .discover pods) ∧ (∀ i event, a ≠ .advance i event) ∧ r' = r := by
  cases a with
  | discover pods => exact .inl ⟨pods,rfl,(Option.some.inj followed).symm⟩
  | advance i event =>
    simp only [Rounds.follow,Option.bind_eq_bind,Option.bind_eq_some_iff] at followed
    obtain ⟨h,here,h',there,same⟩ := followed
    exact .inr (.inl ⟨i,event,h,h',rfl,here,there,(Option.some.inj same).symm⟩)
  | _ => exact .inr (.inr ⟨nofun,nofun,(Option.some.inj followed).symm⟩)

theorem Current.start (label : String → String) : Current (rounds label).initial :=
  ⟨rfl,rfl,fun i h here => by simp [rounds,Machine.record,openMachine,Fleet.initial] at here⟩

/-- Only the step that reads the routable map takes a request to the read of what is known. -/
theorem Current.advance (current : Current s) (here : s.1.handlers[i]? = some h) (moved : Move c h (c',h'))
    (j : Nat) (g : Handler) (found : (s.1.handlers.set i h')[j]? = some g) (at_ : g.pc = .missing) :
    (s.2.observe i h h').read j = s.2.latest := by
  rcases Tasks.getElem?_set_cases here found with ⟨rfl,rfl⟩ | ⟨other,old⟩
  · simp [Rounds.observe,moved.missing at_]
  · have same := current.read j g old at_
    unfold Rounds.observe
    split
    · exact (Function.update_of_ne other ..).trans same
    · exact same
    · exact same

theorem rounds_step {s t : State} {r r' : Rounds} (taken : (rounds label).step (s,r) a = some (t,r')) :
    openStep (.discovered label) s a = some t ∧ Rounds.follow s r a t = some r' :=
  Machine.record_step taken

theorem Current.step (current : Current s) (taken : (rounds label).step s a = some t) : Current t := by
  obtain ⟨s,r⟩ := s
  obtain ⟨t,r'⟩ := t
  obtain ⟨stepped,followed⟩ := rounds_step taken
  rcases Rounds.follow_cases followed with ⟨pods,rfl,rfl⟩ | ⟨i,event,h,h',rfl,here,there,rfl⟩ | ⟨round,request,rfl⟩
  · cases openStep_mapped stepped with
    | discovered act idle unread same =>
      obtain rfl := Action.discover.inj act
      obtain rfl := same
      refine ⟨rfl,rfl,fun j g found at_ => ?_⟩
      have reads := unread j g found
      simp [at_,Pc.reads] at reads
    | published act => contradiction
    | kept act => exact absurd rfl (act.1 pods)
  · obtain ⟨g,shared,g',before,moved,rfl⟩ := take_cases (fun shared h => next shared h event) stepped
    obtain rfl := Option.some.inj (here.symm.trans before)
    have moved := next_move moved
    have same : g' = h' := by
      have bound := (List.getElem?_eq_some_iff.mp here).1
      simpa [bound] using there
    obtain rfl := same
    refine ⟨?_,?_,?_⟩
    · rw [Rounds.observe_latest]
      exact moved.frame.routable.trans current.routable
    · rw [Rounds.observe_latest,moved.frame.presences,moved.frame.found]
      exact current.known
    · rw [Rounds.observe_latest]
      exact current.advance here moved
  · have turn := ((openStep_cases stepped).resolve_left fun ⟨pods,act,_⟩ => round pods act).2
    have missing : ∀ (j : Nat) (g : Handler), t.handlers[j]? = some g → g.pc = .missing →
        s.handlers[j]? = some g := by
      intro j g found at_
      cases turn with
      | request here moved act =>
        rcases act with ⟨_,dropped⟩ | ⟨event,act⟩
        · rcases Tasks.getElem?_set_cases here found with ⟨_,rfl⟩ | ⟨_,old⟩
          · simp [dropped] at at_
          · exact old
        · exact absurd act (request _ event)
      | arrive =>
        rcases Tasks.getElem?_append_cases found with old | ⟨_,rfl⟩
        · exact old
        · simp [Handler.new] at at_
      | background => exact found
    have read := fun j g found at_ => current.read j g (missing j g found at_) at_
    cases openStep_mapped stepped with
    | discovered act => exact absurd act (round _)
    | published act half same =>
      obtain rfl := same
      have known := current.known
      rw [half] at known
      exact ⟨current.routable,known,read⟩
    | kept act routable presences found =>
      refine ⟨routable.trans current.routable,?_,read⟩
      rw [presences,found]
      exact current.known

theorem verdict_given (current : Current s) (here : s.1.handlers[i]? = some h) (at_ : h.pc = .missing)
    (taken : (rounds label).step s (.advance i event) = some t) :
    event = .go ∧ t.2.verdicts = s.2.verdicts ++ [⟨h.req.scopeName,
      (classifyMissingScope h.req.scopeName (s.1.shared.presences h.req.scopeName)).2.1.code,s.2.latest⟩] := by
  obtain ⟨s,r⟩ := s
  obtain ⟨t,r'⟩ := t
  obtain ⟨stepped,followed⟩ := rounds_step taken
  obtain ⟨g,shared,h',before,moved,rfl⟩ := take_cases (fun shared h => next shared h event) stepped
  obtain rfl := Option.some.inj (here.symm.trans before)
  obtain ⟨rfl,response,answered,code⟩ := next_of_missing at_ moved
  change h'.pc = _ at answered
  have bound := (List.getElem?_eq_some_iff.mp before).1
  simp only [Rounds.follow,before,List.getElem?_set_self bound] at followed
  obtain rfl := Option.some.inj followed
  have read : r.read i = r.latest := current.read i h here at_
  simp only [Rounds.observe,at_,answered,code,read,true_and]

theorem verdicts_kept (other : ∀ i event h, a = .advance i event → s.1.handlers[i]? = some h → h.pc ≠ .missing)
    (taken : (rounds label).step s a = some t) : t.2.verdicts = s.2.verdicts := by
  obtain ⟨s,r⟩ := s
  obtain ⟨t,r'⟩ := t
  obtain ⟨stepped,followed⟩ := rounds_step taken
  rcases Rounds.follow_cases followed with ⟨pods,rfl,rfl⟩ | ⟨i,event,h,h',rfl,here,there,rfl⟩ | ⟨_,_,rfl⟩
  · rfl
  · have elsewhere := other i event h rfl here
    unfold Rounds.observe
    split
    · rfl
    · contradiction
    · rfl
  · rfl

/-- The answer is right exactly when the scope was known before, or is in no pod's label. -/
theorem verdict_right_iff (current : Current s) (scope : String) :
    Verdict.Right ⟨scope,(classifyMissingScope scope (s.1.shared.presences scope)).2.1.code,s.2.latest⟩ ↔
      ∀ found, s.1.shared.found = some found → (found scope).isSome → (s.1.shared.presences scope).isSome := by
  have known := discoverWorkers_known s.2.latest scope
  rw [← current.known] at known
  cases before : s.1.shared.presences scope with
  | some presence =>
    constructor
    · exact fun _ _ _ _ => rfl
    · intro _
      exact ⟨nofun,fun _ => rfl⟩
  | none =>
    constructor
    · rintro right found half listed
      rw [half] at known
      obtain ⟨pod,member,label⟩ := known.mp listed
      exact absurd label (right.missing rfl pod member)
    · intro unlisted
      have absent : ∀ pod ∈ s.2.latest, pod.scope ≠ some scope := by
        intro pod member label
        have listed := known.mpr ⟨pod,member,label⟩
        cases half : s.1.shared.found with
        | none => simp [half,before] at listed
        | some found => exact absurd (unlisted found half (by simpa [half] using listed)) (by simp)
      exact ⟨fun _ => absent,fun ⟨pod,member,label⟩ => absurd label (absent pod member)⟩

/-- Whether the verdicts are right after a step is decided by the one it gives, if any. -/
theorem verdicts_step (current : Current s) (taken : (rounds label).step s a = some t) :
    (∀ v ∈ t.2.verdicts, v.Right) ↔ (∀ v ∈ s.2.verdicts, v.Right) ∧ KnownBefore s a := by
  by_cases answers : ∃ i event h, a = .advance i event ∧ s.1.handlers[i]? = some h ∧ h.pc = .missing
  · obtain ⟨i,event,h,rfl,here,at_⟩ := answers
    obtain ⟨rfl,given⟩ := verdict_given current here at_ taken
    have known : KnownBefore s (.advance i .go) ↔ ∀ found, s.1.shared.found = some found →
        (found h.req.scopeName).isSome → (s.1.shared.presences h.req.scopeName).isSome := by
      constructor
      · exact fun known => known h here at_
      · rintro known g there _
        obtain rfl := Option.some.inj (here.symm.trans there)
        exact known
    rw [given,known,← verdict_right_iff current]
    simp [or_imp,forall_and]
  · rw [verdicts_kept (fun i event h act here at_ => answers ⟨i,event,h,act,here,at_⟩) taken]
    have known : KnownBefore s a := by
      unfold KnownBefore
      split
      · next i => exact fun h here at_ => absurd ⟨i,.go,h,rfl,here,at_⟩ answers
      · trivial
    simp [known]

end Step

/-- A missing scope is always judged on one round exactly when none is looked up, between the
two writes of the first round that lists a pod of it since no round did. -/
theorem missing_scope_judged_on_one_round_iff (label : String → String) (actions : List Action) :
    (rounds label).Along (fun s => ∀ v ∈ s.2.verdicts, v.Right) actions (rounds label).initial ↔
      (rounds label).Meets KnownBefore actions (rounds label).initial := by
  apply Machine.along_iff_meets (I := Current) (J := fun s => ∀ v ∈ s.2.verdicts, v.Right)
  · exact fun s a t current taken => current.step taken
  · exact fun s _ right => right
  · exact fun s a t current right known taken => (verdicts_step current taken).mpr ⟨right,known⟩
  · exact fun s a t current unknown taken right => unknown ((verdicts_step current taken).mp right).2
  · exact Current.start label
  · exact nofun

def startingPod : Pod := { Pod.ready "web-0" "web" 1 with answer := none }

def startingScope : List Action :=
  [.arrive (.page "web" ""),.advance 0 .go,.discover [startingPod],.advance 0 .go,.advance 0 .go,.advance 0 .go]

/-- The request is told that the scope does not exist, on the round that lists its pod. -/
theorem starting_scope_not_found : ∃ s v, (rounds id).exec startingScope (rounds id).initial = some s ∧
    s.2.verdicts = [v] ∧ v.errorCode = ErrorCode.scopeNotFound.code ∧
    (∃ pod ∈ v.pods, pod.scope = some v.scopeName) ∧ ¬v.Right := by
  obtain ⟨s,ran,given⟩ : ∃ s, (rounds id).exec startingScope (rounds id).initial = some s ∧
      s.2.verdicts = [⟨"web",ErrorCode.scopeNotFound.code,[startingPod]⟩] := ⟨_,rfl,rfl⟩
  refine ⟨s,_,ran,given,rfl,⟨startingPod,.head _,rfl⟩,fun right => ?_⟩
  exact right.missing rfl startingPod (.head _) rfl

end BrowserHive.Coordinator
