import BrowserHive.Lib.Keyed
import BrowserHive.Lib.Transition
import BrowserHive.DomainFilter
import BrowserHive.Worker.Observer

/-! Dropping loads by their type: the types are named in the environment, each tab of a slot
is given an interceptor that fails their loads, and the request path enables `Fetch`, which
pauses them. -/
namespace BrowserHive.Worker.Interception

open Transition
open DomainFilter (toAsciiLowercase)
open Observer (ResourceType BlockedResourceType)

inductive TypeSupport where
  | safe
  | risky
  /-- One of these fails the whole `Fetch.enable`. -/
  | unsupported
  deriving DecidableEq, Repr

def resourceTypes : List (String × ResourceType × TypeSupport) :=
  [("document",.document,.risky),("stylesheet",.stylesheet,.risky),("image",.other "Image",.risky),
    ("media",.other "Media",.safe),("font",.other "Font",.safe),("script",.script,.risky),
    ("texttrack",.other "TextTrack",.unsupported),("xhr",.xhr,.risky),("fetch",.fetch,.risky),
    ("prefetch",.other "Prefetch",.unsupported),("eventsource",.other "EventSource",.risky),
    ("websocket",.other "WebSocket",.unsupported),("manifest",.other "Manifest",.unsupported),
    ("signedexchange",.other "SignedExchange",.unsupported),("ping",.other "Ping",.risky),
    ("cspviolationreport",.other "CspViolationReport",.safe),("preflight",.other "Preflight",.unsupported),
    ("fedcm",.other "FedCm",.unsupported),("other",.other "Other",.risky)]

/-- A tab-init middleware: the types it reports, and the interceptor that `apply` installs,
which tells the loads to fail. -/
structure Middleware where
  blockedResourceTypes : List BlockedResourceType
  interceptor : Option (ResourceType → Bool)

namespace BlockedResourceTypesMiddleware

/-- The row of a name, unless Chrome's filter rejects the type. -/
def accepted (name : List Char) : Option BlockedResourceType :=
  match resourceTypes.find? fun row => row.1 = String.ofList (toAsciiLowercase (Text.trim name)) with
  | some (label,type,support) => if support = .unsupported then none else some ⟨type,label⟩
  | none => none

/-- One more name; blank, unknown and rejected ones are dropped, and so are repeats. -/
def add (types : List BlockedResourceType) (name : List Char) : List BlockedResourceType :=
  match accepted name with
  | some t => if types.all (·.label ≠ t.label) then types ++ [t] else types
  | none => types

def new (names : List (List Char)) : List BlockedResourceType := names.foldl add []

def fromEnv (raw : Option String) : List BlockedResourceType := new ((raw.getD "").toList.splitOn ',')

/-- With no types `apply` does nothing. -/
def middleware (types : List BlockedResourceType) : Middleware where
  blockedResourceTypes := types
  interceptor := if types.isEmpty then none else some fun type => type ∈ types.map BlockedResourceType.resourceType

end BlockedResourceTypesMiddleware

/-- What decides how the tabs of one slot are set up. -/
structure Setup where
  tabInitMiddlewares : List Middleware
  /-- Of the slot's proxy. -/
  credentials : Option (String × String)

/-- The configuration that the latest `Fetch.enable` left; with no patterns every load is
paused. -/
structure FetchConfig where
  patterns : Option (List ResourceType)
  handleAuth : Bool
  deriving DecidableEq, Repr

def FetchConfig.pauses (c : FetchConfig) (type : ResourceType) : Bool :=
  match c.patterns with
  | some types => type ∈ types
  | none => true

def enableFetch (proxyAuth : Bool) (blockedTypes : List BlockedResourceType) : FetchConfig where
  patterns := if proxyAuth then none else some (blockedTypes.map BlockedResourceType.resourceType)
  handleAuth := proxyAuth

namespace Setup

def blockedResourceTypes (c : Setup) : List BlockedResourceType := c.tabInitMiddlewares.flatMap Middleware.blockedResourceTypes

def proxyAuth (c : Setup) : Bool := c.credentials.isSome

def wantsFetch (c : Setup) : Bool := c.proxyAuth || !c.blockedResourceTypes.isEmpty

def fetchConfig (c : Setup) : FetchConfig := enableFetch c.proxyAuth c.blockedResourceTypes

/-- A tab has one interceptor: the last that a middleware installs. -/
def interceptor (c : Setup) : Option (ResourceType → Bool) :=
  c.tabInitMiddlewares.foldl (fun installed m => m.interceptor.or installed) none

end Setup

structure Tab where
  interceptor : Option (ResourceType → Bool)
  fetch : Option FetchConfig
  /-- What `authenticate` was given. -/
  auth : Option (String × String)
  /-- `Fetch.enable` was called: the browser may execute a call late. -/
  sent : Bool

namespace Tab

/-- A paused load goes on unless the interceptor fails it. -/
def drops (tab : Tab) (type : ResourceType) : Bool := tab.fetch.any (·.pauses type) && tab.interceptor.any (· type)

/-- The answer to the proxy's 407: only a paused request is asked for. -/
def answersAuth (tab : Tab) (type : ResourceType) : Option (String × String) :=
  if tab.fetch.any fun c => c.handleAuth && c.pauses type then tab.auth else none

end Tab

/-- Where the request that holds the tab lock stands; `again` after a tab was recreated. -/
inductive Stage where
  | free
  | locked
  | creating (again : Bool)
  | enabling (again : Bool)
  | authenticating
  | ready
  | navigated
  deriving DecidableEq, Repr

structure Slot where
  tab : Option Tab
  stage : Stage

inductive Action where
  | lock
  | look
  | created (ok : Bool)
  | enabled
  /-- A dead tab, or a closed connection, is worth a new one. -/
  | refused (recreates : Bool)
  | authenticated (ok : Bool)
  | navigate
  /-- The request ends or is dropped. -/
  | finish
  | closeTab
  /-- The browser executes a call, awaited or not. -/
  | execute
  deriving DecidableEq, Repr

namespace Slot

def newTab (c : Setup) : Tab := ⟨c.interceptor,none,none,false⟩

/-- The tab is there; `Fetch` is enabled where it is wanted. -/
def enter (c : Setup) (s : Slot) (again : Bool) : Slot :=
  if c.wantsFetch then ⟨s.tab.map fun tab => { tab with sent := true },.enabling again⟩
  else { s with stage := .ready }

def step (c : Setup) (s : Slot) : Action → Option Slot
  | .lock => if s.stage = .free then some { s with stage := .locked } else none
  | .look =>
    if s.stage = .locked then
      match s.tab with
      | some _ => some (s.enter c false)
      | none => some { s with stage := .creating false }
    else none
  | .created ok =>
    match s.stage with
    | .creating again => some (if ok then enter c ⟨some (newTab c),s.stage⟩ again else { s with stage := .free })
    | _ => none
  | .enabled =>
    match s.stage, s.tab with
    | .enabling _, some tab =>
      some ⟨some { tab with fetch := some c.fetchConfig },if c.proxyAuth then .authenticating else .ready⟩
    | _, _ => none
  | .refused recreates =>
    match s.stage with
    | .enabling again => some { s with stage := if recreates && !again then .creating true else .free }
    | _ => none
  | .authenticated ok =>
    match s.stage, s.tab with
    | .authenticating, some tab =>
      some (if ok then ⟨some { tab with auth := c.credentials },.ready⟩ else { s with stage := .free })
    | _, _ => none
  | .navigate => if s.stage = .ready then some { s with stage := .navigated } else none
  | .finish => if s.stage = .free then none else some { s with stage := .free }
  | .closeTab => if s.stage = .free then some { s with tab := none } else none
  | .execute =>
    match s.tab with
    | some tab =>
      if tab.sent then some { s with tab := some { tab with fetch := some c.fetchConfig } } else none
    | none => none

end Slot

def machine (c : Setup) : Machine Slot Action := ⟨⟨some (Slot.newTab c),.free⟩,Slot.step c⟩

/-- The worker's own middlewares: the user agent's touches no load. -/
def workerMiddlewares (raw : Option String) : List Middleware :=
  [⟨[],none⟩,BlockedResourceTypesMiddleware.middleware (BlockedResourceTypesMiddleware.fromEnv raw)]

/-- The variable names the type of this label, and Chrome's filter knows it. -/
def Named (raw : Option String) (label : String) (type : ResourceType) : Prop :=
  ∃ name ∈ (raw.getD "").toList.splitOn ',', String.ofList (toAsciiLowercase (Text.trim name)) = label ∧
    ∃ support, support ≠ .unsupported ∧ (label,type,support) ∈ resourceTypes

section Names

open BlockedResourceTypesMiddleware

theorem labels_unique : (resourceTypes.map Prod.fst).Nodup := by decide

theorem types_unique : (resourceTypes.map fun row => row.2.1).Nodup := by decide

theorem accepted_iff (name : List Char) (t : BlockedResourceType) : accepted name = some t ↔
    String.ofList (toAsciiLowercase (Text.trim name)) = t.label ∧
      ∃ support, support ≠ .unsupported ∧ (t.label,t.resourceType,support) ∈ resourceTypes := by
  have found (row : String × ResourceType × TypeSupport) :
      resourceTypes.find? (fun row => row.1 = String.ofList (toAsciiLowercase (Text.trim name))) = some row ↔
        row ∈ resourceTypes ∧ row.1 = String.ofList (toAsciiLowercase (Text.trim name)) :=
    Keyed.find_eq_some_iff labels_unique _
  unfold accepted
  constructor
  · intro accepts
    split at accepts
    · next label type support row =>
      obtain ⟨listed,same⟩ := (found _).mp row
      split at accepts
      · contradiction
      · next supported =>
        obtain rfl := Option.some.inj accepts
        exact ⟨same.symm,support,supported,listed⟩
    · contradiction
  · rintro ⟨same,support,supported,listed⟩
    rw [(found (t.label,t.resourceType,support)).mpr ⟨listed,same.symm⟩]
    simp [supported]

theorem accepted_label {name name' : List Char} {t t' : BlockedResourceType} (first : accepted name = some t)
    (second : accepted name' = some t') (same : t.label = t'.label) : t = t' := by
  obtain ⟨_,support,_,row⟩ := (accepted_iff name t).mp first
  obtain ⟨_,support',_,row'⟩ := (accepted_iff name' t').mp second
  have rows := List.inj_on_of_nodup_map labels_unique row row' same
  cases t
  cases t'
  simp_all

theorem mem_new (names : List (List Char)) (t : BlockedResourceType) :
    t ∈ new names ↔ ∃ name ∈ names, accepted name = some t := by
  have folded : ∀ types : List BlockedResourceType, (∀ t ∈ types, ∃ name, accepted name = some t) →
      (t ∈ names.foldl add types ↔ t ∈ types ∨ ∃ name ∈ names, accepted name = some t) := by
    induction names with
    | nil => simp
    | cons name rest ih =>
      intro types rows
      have step : (∀ t ∈ add types name, ∃ name, accepted name = some t) ∧
          (t ∈ add types name ↔ t ∈ types ∨ accepted name = some t) := by
        unfold add
        cases accepts : accepted name with
        | none => exact ⟨rows,by simp⟩
        | some t' =>
          dsimp only
          split
          · next fresh =>
            refine ⟨fun u member => ?_,by simp [eq_comm]⟩
            rcases List.mem_append.mp member with old | last
            · exact rows u old
            · exact ⟨name,List.mem_singleton.mp last ▸ accepts⟩
          · next repeated =>
            refine ⟨rows,(or_iff_left_of_imp ?_).symm⟩
            intro same
            obtain rfl := Option.some.inj same
            obtain ⟨u,member,same⟩ : ∃ u ∈ types, u.label = t'.label := by simpa using repeated
            obtain ⟨name',accepts'⟩ := rows u member
            exact accepted_label accepts' accepts same ▸ member
      rw [List.foldl_cons,ih _ step.1,step.2,or_assoc]
      simp
  rw [new,folded [] (by simp)]
  simp

theorem mem_fromEnv (raw : Option String) (label : String) (type : ResourceType) :
    (⟨type,label⟩ : BlockedResourceType) ∈ fromEnv raw ↔ Named raw label type := by
  rw [fromEnv,mem_new]
  refine exists_congr fun name => and_congr_right fun _ => ?_
  exact accepted_iff name ⟨type,label⟩

theorem find_fromEnv (raw : Option String) (label : String) (type : ResourceType) :
    ((fromEnv raw).find? fun t => t.resourceType = type).map BlockedResourceType.label = some label ↔ Named raw label type := by
  constructor
  · intro found
    obtain ⟨t,first,rfl⟩ := Option.map_eq_some_iff.mp found
    obtain rfl : t.resourceType = type := by simpa using List.find?_some first
    exact (mem_fromEnv ..).mp (List.mem_of_find?_eq_some first)
  · intro named
    have member := (mem_fromEnv ..).mpr named
    cases first : (fromEnv raw).find? fun t => t.resourceType = type with
    | none => simpa using List.find?_eq_none.mp first _ member
    | some t =>
      obtain rfl : t.resourceType = type := by simpa using List.find?_some first
      obtain ⟨_,_,_,support,_,row⟩ := (mem_fromEnv raw t.label t.resourceType).mp (List.mem_of_find?_eq_some first)
      obtain ⟨_,_,_,support',_,row'⟩ := named
      have rows := List.inj_on_of_nodup_map types_unique row row' rfl
      simp only [Prod.mk.injEq] at rows
      exact congrArg some rows.1

end Names

/-- `Fetch` of a tab is as it is wanted, if it is enabled at all. -/
structure Tab.Kept (c : Setup) (tab : Tab) : Prop where
  interceptor : tab.interceptor = c.interceptor
  wanted : tab.sent = true → c.wantsFetch = true
  fetch : ∀ config, tab.fetch = some config → config = c.fetchConfig ∧ c.wantsFetch = true

/-- The request has a tab, and what its stage says was done to it. -/
def Slot.Staged (c : Setup) (s : Slot) : Prop :=
  match s.stage with
  | .free | .locked | .creating _ => True
  | .enabling _ => s.tab.isSome ∧ c.wantsFetch = true
  | .authenticating => ∃ tab, s.tab = some tab ∧ tab.fetch = some c.fetchConfig
  | .ready | .navigated => ∃ tab, s.tab = some tab ∧ (c.wantsFetch = true → tab.fetch = some c.fetchConfig) ∧
      (c.proxyAuth = true → tab.auth = c.credentials)

structure Slot.Kept (c : Setup) (s : Slot) : Prop where
  tabs : ∀ tab, s.tab = some tab → tab.Kept c
  staged : s.Staged c

section Steps

variable {c : Setup} {s t : Slot}

theorem kept_newTab (c : Setup) : (Slot.newTab c).Kept c := ⟨rfl,by simp [Slot.newTab],by simp [Slot.newTab]⟩

theorem Slot.Kept.enter (tabs : ∀ tab, s.tab = some tab → tab.Kept c) (there : s.tab.isSome) (again : Bool) :
    (s.enter c again).Kept c := by
  obtain ⟨tab,at_⟩ := Option.isSome_iff_exists.mp there
  have old := tabs tab at_
  unfold Slot.enter
  split
  · next wants =>
    refine ⟨fun tab' at' => ?_,by simpa [Slot.Staged,at_] using wants⟩
    obtain rfl : { tab with sent := true } = tab' := by simpa [at_] using at'
    exact ⟨old.interceptor,fun _ => wants,old.fetch⟩
  · next wants =>
    refine ⟨tabs,tab,at_,fun wanted => absurd wanted wants,fun auth => absurd ?_ wants⟩
    simp [Setup.wantsFetch,auth]

theorem Tab.Kept.execute {tab : Tab} (kept : tab.Kept c) (wants : c.wantsFetch = true) :
    ({ tab with fetch := some c.fetchConfig } : Tab).Kept c :=
  ⟨kept.interceptor,kept.wanted,fun _ same => ⟨(Option.some.inj same).symm,wants⟩⟩

theorem Slot.Kept.step (kept : s.Kept c) (taken : (machine c).step s a = some t) : t.Kept c := by
  have taken : Slot.step c s a = some t := taken
  obtain ⟨tabs,staged⟩ := kept
  cases a with
  | lock =>
    simp only [Slot.step,Option.ite_none_right_eq_some] at taken
    obtain ⟨_,taken⟩ := taken
    cases taken
    exact ⟨tabs,trivial⟩
  | look =>
    simp only [Slot.step,Option.ite_none_right_eq_some] at taken
    obtain ⟨_,taken⟩ := taken
    split at taken
    · next tab at_ =>
      cases taken
      exact .enter tabs (by simp [at_]) false
    · cases taken
      exact ⟨tabs,trivial⟩
  | created ok =>
    simp only [Slot.step] at taken
    split at taken
    · next again at_ =>
      cases taken
      cases ok with
      | true => exact .enter (fun tab same => Option.some.inj same ▸ kept_newTab c) rfl again
      | false => exact ⟨tabs,trivial⟩
    · contradiction
  | enabled =>
    simp only [Slot.step] at taken
    split at taken
    · next again tab at_ there =>
      cases taken
      have wants : c.wantsFetch = true := by
        rw [Slot.Staged,at_] at staged
        exact staged.2
      refine ⟨fun tab' same => ?_,?_⟩
      · cases same
        exact (tabs tab there).execute wants
      · by_cases auth : c.proxyAuth = true
        · simp [Slot.Staged,auth]
        · simp [Slot.Staged,auth]
    · contradiction
  | refused recreates =>
    simp only [Slot.step] at taken
    split at taken
    · cases taken
      split
      · exact ⟨tabs,trivial⟩
      · exact ⟨tabs,trivial⟩
    · contradiction
  | authenticated ok =>
    simp only [Slot.step] at taken
    split at taken
    · next tab at_ there =>
      cases taken
      cases ok with
      | true =>
        have old := tabs tab there
        refine ⟨fun tab' same => ?_,_,rfl,fun _ => ?_,fun _ => rfl⟩
        · cases same
          exact ⟨old.interceptor,old.wanted,old.fetch⟩
        · rw [Slot.Staged,at_] at staged
          obtain ⟨tab',same,enabled⟩ := staged
          cases there.symm.trans same
          exact enabled
      | false => exact ⟨tabs,trivial⟩
    · contradiction
  | navigate =>
    simp only [Slot.step,Option.ite_none_right_eq_some] at taken
    obtain ⟨at_,taken⟩ := taken
    cases taken
    rw [Slot.Staged,at_] at staged
    exact ⟨tabs,staged⟩
  | finish =>
    simp only [Slot.step,Option.ite_none_left_eq_some] at taken
    obtain ⟨_,taken⟩ := taken
    cases taken
    exact ⟨tabs,trivial⟩
  | closeTab =>
    simp only [Slot.step,Option.ite_none_right_eq_some] at taken
    obtain ⟨at_,taken⟩ := taken
    cases taken
    refine ⟨by simp,?_⟩
    simp [Slot.Staged,at_]
  | execute =>
    simp only [Slot.step] at taken
    split at taken
    · next tab there =>
      simp only [Option.ite_none_right_eq_some] at taken
      obtain ⟨sent,taken⟩ := taken
      cases taken
      have old := tabs tab there
      refine ⟨fun tab' same => ?_,?_⟩
      · cases same
        exact old.execute (old.wanted sent)
      · cases at_ : s.stage with
        | free | locked | creating => simp [Slot.Staged]
        | enabling again => simp [Slot.Staged,old.wanted sent]
        | authenticating => simp [Slot.Staged]
        | ready | navigated =>
          rw [Slot.Staged,at_] at staged
          obtain ⟨tab',same,_,auth⟩ := staged
          cases there.symm.trans same
          simpa [Slot.Staged,at_] using auth
    · contradiction

theorem kept_initial (c : Setup) : (machine c).initial.Kept c := by
  refine ⟨fun tab same => ?_,trivial⟩
  obtain rfl : Slot.newTab c = tab := Option.some.inj same
  exact kept_newTab c

theorem kept_of_reachable (run : (machine c).Reachable s) : s.Kept c :=
  Machine.Reachable.invariant (kept_initial c) (fun _ _ _ _ kept taken => kept.step taken) run

end Steps

/-- A tab whose `Fetch` is as wanted pauses a load of any type when the proxy asks for
credentials, and of the blocked types otherwise. -/
theorem pauses_iff {c : Setup} {tab : Tab} (kept : tab.Kept c) (enabled : c.wantsFetch = true → tab.fetch = some c.fetchConfig)
    (type : ResourceType) : tab.fetch.any (·.pauses type) = true ↔
      c.proxyAuth = true ∨ type ∈ c.blockedResourceTypes.map BlockedResourceType.resourceType := by
  by_cases wants : c.wantsFetch = true
  · rw [enabled wants]
    by_cases auth : c.proxyAuth = true
    · simp [Setup.fetchConfig,enableFetch,FetchConfig.pauses,auth]
    · simp [Setup.fetchConfig,enableFetch,FetchConfig.pauses,auth]
  · have quiet : tab.fetch = none := by
      refine Option.eq_none_iff_forall_not_mem.mpr fun config enabled => ?_
      exact wants (kept.fetch config enabled).2
    obtain ⟨auth,none_⟩ : c.proxyAuth = false ∧ c.blockedResourceTypes = [] := by
      simpa [Setup.wantsFetch] using wants
    simp [quiet,auth,none_]

/-- In every run of the requests on a slot, the tab that a page is loaded in drops a load just
when its interceptor fails the type and `Fetch` pauses it, and it has the proxy's credentials for
every load. -/
theorem navigated_tab {c : Setup} {s : Slot} (run : (machine c).Reachable s) (navigated : s.stage = .navigated) :
    ∃ tab, s.tab = some tab ∧
      (∀ type, tab.drops type = true ↔ c.interceptor.any (· type) = true ∧
        (c.proxyAuth = true ∨ type ∈ c.blockedResourceTypes.map BlockedResourceType.resourceType)) ∧
      ∀ credentials, c.credentials = some credentials → ∀ type, tab.answersAuth type = some credentials := by
  have kept := kept_of_reachable run
  have staged := kept.staged
  rw [Slot.Staged,navigated] at staged
  obtain ⟨tab,there,enabled,auth⟩ := staged
  have old := kept.tabs tab there
  refine ⟨tab,there,fun type => ?_,fun credentials given type => ?_⟩
  · rw [Tab.drops,Bool.and_eq_true,pauses_iff old enabled,old.interceptor,and_comm]
  · have proxied : c.proxyAuth = true := by simp [Setup.proxyAuth,given]
    have wants : c.wantsFetch = true := by simp [Setup.wantsFetch,proxied]
    simp [Tab.answersAuth,enabled wants,Setup.fetchConfig,enableFetch,FetchConfig.pauses,proxied,auth proxied,given]

section Worker

open BlockedResourceTypesMiddleware

variable {raw : Option String} {credentials : Option (String × String)}

theorem worker_blockedResourceTypes (raw : Option String) (credentials : Option (String × String)) :
    (⟨workerMiddlewares raw,credentials⟩ : Setup).blockedResourceTypes = fromEnv raw := by
  simp [Setup.blockedResourceTypes,workerMiddlewares,middleware]

theorem worker_interceptor (type : ResourceType) :
    (⟨workerMiddlewares raw,credentials⟩ : Setup).interceptor.any (· type) = true ↔ ∃ label, Named raw label type := by
  have listed : (∃ label, Named raw label type) ↔ type ∈ (fromEnv raw).map BlockedResourceType.resourceType := by
    rw [List.mem_map]
    constructor
    · rintro ⟨label,named⟩
      exact ⟨⟨type,label⟩,(mem_fromEnv ..).mpr named,rfl⟩
    · rintro ⟨⟨_,label⟩,member,rfl⟩
      exact ⟨label,(mem_fromEnv ..).mp member⟩
  rw [listed]
  cases types : fromEnv raw with
  | nil => simp [Setup.interceptor,workerMiddlewares,middleware,types]
  | cons t rest => simp [Setup.interceptor,workerMiddlewares,middleware,types]

/-- In every run of the requests on a slot of the worker, whatever its variable says and whatever
becomes of the tabs: a page is loaded in a tab that drops the loads of just the types that are
named and that Chrome accepts, and asks every load for the proxy's credentials if there are any; a
dropped load is counted under the label of its type; and no type that Chrome rejects is sent to it. -/
theorem named_types_dropped {s : Slot} (run : (machine ⟨workerMiddlewares raw,credentials⟩).Reachable s)
    (navigated : s.stage = .navigated) :
    (∃ tab, s.tab = some tab ∧ (∀ type, tab.drops type = true ↔ ∃ label, Named raw label type) ∧
      ∀ given, credentials = some given → ∀ type, tab.answersAuth type = some given) ∧
    (∀ observer : Observer.Setup, observer.blockedTypes = fromEnv raw → ∀ type label,
      observer.blockedType type = some label ↔ Named raw label type) ∧
    ∀ patterns, (enableFetch credentials.isSome (fromEnv raw)).patterns = some patterns → ∀ type ∈ patterns,
      ∃ label support, support ≠ .unsupported ∧ (label,type,support) ∈ resourceTypes := by
  obtain ⟨tab,there,drops,auth⟩ := navigated_tab run navigated
  refine ⟨⟨tab,there,fun type => ?_,auth⟩,fun observer same type label => ?_,fun patterns sent type member => ?_⟩
  · rw [drops,worker_interceptor,worker_blockedResourceTypes]
    refine and_iff_left_of_imp ?_
    rintro ⟨label,named⟩
    exact .inr (List.mem_map.mpr ⟨⟨type,label⟩,(mem_fromEnv ..).mpr named,rfl⟩)
  · rw [Observer.Setup.blockedType,same,find_fromEnv]
  · cases proxied : credentials.isSome with
    | true => simp [enableFetch,proxied] at sent
    | false =>
      obtain rfl : (fromEnv raw).map BlockedResourceType.resourceType = patterns := by simpa [enableFetch,proxied] using sent
      obtain ⟨⟨_,label⟩,listed,rfl⟩ := List.mem_map.mp member
      obtain ⟨_,_,_,support,supported,row⟩ := (mem_fromEnv ..).mp listed
      exact ⟨label,support,supported,row⟩

def reconnected : List Action := [.lock,.look,.refused true,.created true,.enabled,.authenticated true,.navigate,.execute]

/-- Blanks, repeats, other spellings and types that Chrome rejects. -/
theorem named_types_dropped_media : ∃ s, (machine ⟨workerMiddlewares (some " Media,FONT,,media,video,prefetch"),
      some ("user","pass")⟩).exec reconnected
        (machine ⟨workerMiddlewares (some " Media,FONT,,media,video,prefetch"),some ("user","pass")⟩).initial = some s ∧
    ∃ tab, s.tab = some tab ∧ tab.drops (.other "Media") = true ∧ tab.answersAuth .script = some ("user","pass") := by
  obtain ⟨s,ran,navigated⟩ : ∃ s, (machine ⟨workerMiddlewares (some " Media,FONT,,media,video,prefetch"),
      some ("user","pass")⟩).exec reconnected
        (machine ⟨workerMiddlewares (some " Media,FONT,,media,video,prefetch"),some ("user","pass")⟩).initial = some s ∧
      s.stage = .navigated := ⟨_,rfl,rfl⟩
  obtain ⟨⟨tab,there,drops,auth⟩,_⟩ := named_types_dropped (Machine.reachable_of_exec ran) navigated
  refine ⟨s,ran,tab,there,(drops _).mpr ⟨"media"," Media".toList,by decide,by decide,.safe,by decide,by decide⟩,?_⟩
  exact auth _ rfl _

end Worker

end BrowserHive.Worker.Interception
