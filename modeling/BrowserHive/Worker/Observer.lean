import BrowserHive.Lib.CappedTally
import BrowserHive.Worker.Documents
import BrowserHive.Worker.ThirdParty

/-! The response observer of one request: what its listener keeps of the CDP events of the
tab, told from the history of these events alone. -/
namespace BrowserHive.Worker.Observer

open PageLoad (Hosts PageLoadTracker contains)
open ThirdParty (RequestLoads LoadEvent Increment)

/-- Every type that the worker has no use for is one here, with its name. -/
inductive ResourceType where
  | document
  | script
  | stylesheet
  | xhr
  | fetch
  | other (name : String)
  deriving DecidableEq, Repr

/-- The derived `Debug`. -/
def ResourceType.debug : ResourceType → String
  | .document => "Document"
  | .script => "Script"
  | .stylesheet => "Stylesheet"
  | .xhr => "Xhr"
  | .fetch => "Fetch"
  | .other name => name

def ResourceType.tracked : ResourceType → PageLoad.ResourceType
  | .script => .script
  | .stylesheet => .stylesheet
  | .xhr => .xhr
  | .fetch => .fetch
  | .document | .other _ => .other

/-- A JSON value among the headers; one that is no string as it is printed. -/
inductive HeaderValue where
  | string (text : String)
  | other (printed : String)
  deriving DecidableEq, Repr

def HeaderValue.print : HeaderValue → String
  | .string text | .other text => text

/-- The headers of a response are `none` when they are no JSON object. -/
inductive Event where
  | requestWillBeSent (requestId url : String) (type : Option ResourceType) (frameId : Option String)
  | loadingFinished (requestId : String)
  | loadingFailed (requestId : String) (type : ResourceType) (errorText : String) (canceled : Option Bool)
    (blockedReason : Option PageLoad.BlockedReason) (corsErrorStatus : Bool)
  | lifecycleEvent (name frameId : String)
  | responseReceived (requestId : String) (type : ResourceType) (frameId : Option String) (status : Nat) (url : String)
    (headers : Option (List (String × HeaderValue)))
  | other
  deriving DecidableEq, Repr

abbrev History := List (Nat × Event)

structure ObservedDocuments where
  latest : Option MainDocument
  requestId : String
  seq : Nat
  loaded : Bool
  deriving DecidableEq, Repr

namespace ObservedDocuments

def none : ObservedDocuments := ⟨.none,"",0,false⟩

/-- The view of `ObservedDocumentProbe`. -/
def probe (docs : ObservedDocuments) : Option DocumentSnapshot :=
  docs.latest.map fun doc => ⟨docs.seq,docs.loaded,doc⟩

def markDocumentLoaded (docs : ObservedDocuments) (requestId : String) : ObservedDocuments :=
  if docs.latest.isSome ∧ docs.requestId = requestId then { docs with loaded := true } else docs

def receive (docs : ObservedDocuments) (requestId : String) (doc : MainDocument) : ObservedDocuments :=
  ⟨some doc,requestId,docs.seq + 1,false⟩

end ObservedDocuments

def maxProxyFailureKinds : Nat := 8

def proxyErrors : List String :=
  ["ERR_TUNNEL_CONNECTION_FAILED","ERR_PROXY_CONNECTION_FAILED","ERR_PROXY_AUTH_UNSUPPORTED",
    "ERR_PROXY_CERTIFICATE_INVALID","ERR_UNEXPECTED_PROXY_AUTH","ERR_MANDATORY_PROXY_CONFIGURATION_FAILED",
    "ERR_SOCKS_CONNECTION_FAILED","ERR_SOCKS_CONNECTION_HOST_UNREACHABLE"]

def isProxyError (errorText : String) : Bool := proxyErrors.any (contains errorText)

abbrev ProxyFailures := CappedTally String

namespace ProxyFailures

def record (failures : ProxyFailures) (kind : String) : ProxyFailures := CappedTally.record maxProxyFailureKinds failures kind

def item (kind : String) (count : Nat) : String :=
  if 1 < count then kind ++ " (x" ++ toString count ++ ")" else kind

/-- The map is read in the order of its keys. -/
def summary (failures : ProxyFailures) : String :=
  ", ".intercalate ((failures.byKind.keys.insertionSort (· ≤ ·)).map fun kind => item kind (failures.byKind.get kind))

end ProxyFailures

structure BlockedResourceType where
  resourceType : ResourceType
  label : String
  deriving DecidableEq, Repr

structure Setup where
  hosts : Hosts
  mainFrameId : String
  blockedTypes : List BlockedResourceType
  requestedUrl : String
  /-- The loads before any event. -/
  loads : RequestLoads

/-- All that one listener writes to. `counted` and `blockedByType` are the increments made of
the third-party metrics, the latest first. -/
@[ext] structure Holders where
  documents : ObservedDocuments
  proxyFailures : ProxyFailures
  blockedUrls : Nat
  loads : RequestLoads
  counted : List Increment
  blockedByType : List String
  pageLoad : PageLoadTracker

def Holders.start (setup : Setup) : Holders where
  documents := .none
  proxyFailures := .empty
  blockedUrls := 0
  loads := setup.loads
  counted := []
  blockedByType := []
  pageLoad := .new setup.hosts setup.requestedUrl

def Holders.load (setup : Setup) (h : Holders) (e : LoadEvent) : Holders :=
  { h with
    loads := (h.loads.step setup.hosts e).1
    counted := (h.loads.step setup.hosts e).2.toList ++ h.counted }

def Setup.blockedType (setup : Setup) (type : ResourceType) : Option String :=
  (setup.blockedTypes.find? fun t => t.resourceType = type).map BlockedResourceType.label

def Holders.listen (setup : Setup) (h : Holders) (now : Nat) : Event → Holders
  | .requestWillBeSent requestId url type frameId =>
    { h.load setup (.willBeSent requestId url (type = some .document)) with
      pageLoad := h.pageLoad.willBeSent now requestId url (type.map ResourceType.tracked)
        (type = some .document ∧ frameId = some setup.mainFrameId) }
  | .loadingFinished requestId =>
    { h.load setup (.finished requestId) with
      documents := h.documents.markDocumentLoaded requestId
      pageLoad := h.pageLoad.finished requestId }
  | .loadingFailed requestId type errorText canceled blockedReason corsErrorStatus =>
    let blockedByList : Bool := blockedReason = some .inspector
    { h.load setup (.failed requestId blockedByList) with
      documents := h.documents.markDocumentLoaded requestId
      proxyFailures :=
        if isProxyError errorText then ProxyFailures.record h.proxyFailures (type.debug ++ " " ++ errorText) else h.proxyFailures
      blockedUrls := if blockedByList then h.blockedUrls + 1 else h.blockedUrls
      blockedByType := (if blockedByList then setup.blockedType type else none).toList ++ h.blockedByType
      pageLoad := h.pageLoad.failed requestId errorText (canceled.getD false) blockedReason corsErrorStatus }
  | .lifecycleEvent name frameId =>
    if name = "load" ∧ frameId = setup.mainFrameId then { h with pageLoad := h.pageLoad.loadEvent } else h
  | .responseReceived requestId type frameId status url headers =>
    { h with
      documents :=
        if type = .document ∧ frameId = some setup.mainFrameId then
          h.documents.receive requestId ⟨status,(headers.getD []).map fun entry => (entry.1,entry.2.print),url⟩
        else h.documents
      pageLoad := h.pageLoad.response requestId status }
  | .other => h

def Holders.after (setup : Setup) : History → Holders
  | [] => .start setup
  | (now,e) :: older => (Holders.after setup older).listen setup now e

namespace Event

variable (setup : Setup)

def document : Event → Option (String × MainDocument)
  | .responseReceived requestId type frameId status url headers =>
    if type = .document ∧ frameId = some setup.mainFrameId then
      some (requestId,⟨status,(headers.getD []).map fun entry => (entry.1,entry.2.print),url⟩)
    else none
  | _ => none

def ended : Event → Option String
  | .loadingFinished requestId | .loadingFailed requestId .. => some requestId
  | _ => none

def proxyFailure : Event → Option String
  | .loadingFailed _ type errorText .. => if isProxyError errorText then some (type.debug ++ " " ++ errorText) else none
  | _ => none

def blocked : Event → Bool
  | .loadingFailed _ _ _ _ blockedReason _ => blockedReason = some .inspector
  | _ => false

def blockedType : Event → Option String
  | .loadingFailed _ type _ _ blockedReason _ => if blockedReason = some .inspector then setup.blockedType type else none
  | _ => none

def load : Event → Option LoadEvent
  | .requestWillBeSent requestId url type _ => some (.willBeSent requestId url (type = some .document))
  | .loadingFinished requestId => some (.finished requestId)
  | .loadingFailed requestId _ _ _ blockedReason _ => some (.failed requestId (blockedReason = some .inspector))
  | _ => none

def pageLoad : Event → Option PageLoad.Event
  | .requestWillBeSent requestId url type frameId =>
    some (.willBeSent requestId url (type.map ResourceType.tracked) (type = some .document ∧ frameId = some setup.mainFrameId))
  | .loadingFinished requestId => some (.finished requestId)
  | .loadingFailed requestId _ errorText canceled blockedReason corsErrorStatus =>
    some (.failed requestId errorText (canceled.getD false) blockedReason corsErrorStatus)
  | .lifecycleEvent name frameId => if name = "load" ∧ frameId = setup.mainFrameId then some .loadEvent else none
  | .responseReceived requestId _ _ status _ _ => some (.response requestId status)
  | .other => none

end Event

section History

variable (setup : Setup)

def latestDocument (history : History) : Option (String × MainDocument) :=
  history.findSome? fun entry => entry.2.document setup

def sinceDocument (history : History) : History := history.takeWhile fun entry => (entry.2.document setup).isNone

def documentsOf (history : History) : ObservedDocuments where
  latest := (latestDocument setup history).map Prod.snd
  requestId := ((latestDocument setup history).map Prod.fst).getD ""
  seq := history.countP fun entry => (entry.2.document setup).isSome
  loaded := (latestDocument setup history).any fun (id,_) =>
    (sinceDocument setup history).any fun entry => entry.2.ended = some id

def failureKinds (history : History) : List String := history.filterMap fun entry => entry.2.proxyFailure

def pageLoads (history : History) : PageLoad.History :=
  history.filterMap fun entry => (entry.2.pageLoad setup).map (entry.1,·)

def loads (history : History) : List LoadEvent := (history.filterMap fun entry => entry.2.load).reverse

end History

theorem listen_eq (setup : Setup) (h : Holders) (now : Nat) (e : Event) : h.listen setup now e =
    { documents := match e.document setup, e.ended with
        | some (requestId,doc), _ => h.documents.receive requestId doc
        | none, some requestId => h.documents.markDocumentLoaded requestId
        | none, none => h.documents
      proxyFailures := e.proxyFailure.elim h.proxyFailures (ProxyFailures.record h.proxyFailures)
      blockedUrls := h.blockedUrls + if e.blocked then 1 else 0
      loads := e.load.elim h.loads fun l => (h.loads.step setup.hosts l).1
      counted := (e.load.bind fun l => (h.loads.step setup.hosts l).2).toList ++ h.counted
      blockedByType := (e.blockedType setup).toList ++ h.blockedByType
      pageLoad := (e.pageLoad setup).elim h.pageLoad (h.pageLoad.feed now) } := by
  cases e with
  | requestWillBeSent | loadingFinished | other => rfl
  | loadingFailed requestId type errorText canceled blockedReason cors =>
    simp only [Holders.listen,Holders.load,Event.document,Event.ended,Event.load,Event.pageLoad,Option.elim,Option.bind]
    congr 1
    · simp only [Event.proxyFailure]
      split <;> rfl
    · by_cases listed : blockedReason = some .inspector <;> simp [Event.blocked,listed]
    · simp only [Event.blockedType,decide_eq_true_eq]
  | lifecycleEvent name frameId =>
    simp only [Holders.listen,Event.pageLoad]
    split <;> rfl
  | responseReceived requestId type frameId status url headers =>
    simp only [Holders.listen,Event.document]
    split <;> rfl

variable {setup : Setup} {older : History}

theorem latestDocument_cons (now : Nat) (e : Event) :
    latestDocument setup ((now,e) :: older) = (e.document setup).or (latestDocument setup older) := by
  rw [latestDocument,List.findSome?_cons]
  cases e.document setup <;> rfl

theorem documentsOf_cons (now : Nat) (e : Event) : documentsOf setup ((now,e) :: older) =
    match e.document setup, e.ended with
    | some (requestId,doc), _ => (documentsOf setup older).receive requestId doc
    | none, some requestId => (documentsOf setup older).markDocumentLoaded requestId
    | none, none => documentsOf setup older := by
  cases came : e.document setup with
  | some found =>
    simp [documentsOf,latestDocument_cons,came,sinceDocument,ObservedDocuments.receive]
  | none =>
    simp only [documentsOf,latestDocument_cons,came,sinceDocument,List.takeWhile_cons,List.countP_cons]
    cases latest : latestDocument setup older with
    | none => cases e.ended <;> simp [ObservedDocuments.markDocumentLoaded]
    | some found =>
      cases ended : e.ended with
      | none => simp [ended]
      | some requestId =>
        by_cases same : found.1 = requestId
        · simp [ObservedDocuments.markDocumentLoaded,ended,same]
        · simp [ObservedDocuments.markDocumentLoaded,ended,same,Ne.symm same]

theorem failureKinds_cons (now : Nat) (e : Event) :
    CappedTally.ofKinds maxProxyFailureKinds (failureKinds ((now,e) :: older)) =
      e.proxyFailure.elim (CappedTally.ofKinds maxProxyFailureKinds (failureKinds older))
        (ProxyFailures.record (CappedTally.ofKinds maxProxyFailureKinds (failureKinds older))) := by
  rw [failureKinds,List.filterMap_cons]
  cases e.proxyFailure <;> rfl

theorem pageLoads_cons (now : Nat) (e : Event) :
    PageLoadTracker.after setup.hosts setup.requestedUrl (pageLoads setup ((now,e) :: older)) =
      (e.pageLoad setup).elim (.after setup.hosts setup.requestedUrl (pageLoads setup older))
        ((PageLoadTracker.after setup.hosts setup.requestedUrl (pageLoads setup older)).feed now) := by
  rw [pageLoads,List.filterMap_cons]
  cases e.pageLoad setup <;> rfl

theorem loads_cons (now : Nat) (e : Event) : loads ((now,e) :: older) = loads older ++ e.load.toList := by
  rw [loads,List.filterMap_cons]
  cases e.load <;> simp [loads]

theorem increments_concat (hosts : Hosts) (r : RequestLoads) (events : List LoadEvent) (e : LoadEvent) :
    r.increments hosts (events ++ [e]) = r.increments hosts events ++ [((r.after hosts events).step hosts e).2] := by
  induction events generalizing r with
  | nil => rfl
  | cons first rest ih =>
    rw [List.cons_append,RequestLoads.increments,ih]
    rfl

theorem after_eq (setup : Setup) (history : History) : Holders.after setup history =
    { documents := documentsOf setup history
      proxyFailures := CappedTally.ofKinds maxProxyFailureKinds (failureKinds history)
      blockedUrls := history.countP fun entry => entry.2.blocked
      loads := setup.loads.after setup.hosts (loads history)
      counted := ((setup.loads.increments setup.hosts (loads history)).filterMap id).reverse
      blockedByType := history.filterMap fun entry => entry.2.blockedType setup
      pageLoad := .after setup.hosts setup.requestedUrl (pageLoads setup history) } := by
  induction history with
  | nil => rfl
  | cons entry older ih =>
    obtain ⟨now,e⟩ := entry
    rw [Holders.after,ih,listen_eq]
    ext1
    · exact (documentsOf_cons now e).symm
    · exact (failureKinds_cons now e).symm
    · rw [List.countP_cons]
    · simp only [loads_cons]
      cases e.load <;> simp [RequestLoads.after]
    · simp only [loads_cons]
      cases e.load with
      | none => simp
      | some l =>
        simp only [Option.toList_some,increments_concat,List.filterMap_append,List.reverse_append,Option.bind_some]
        cases ((setup.loads.after setup.hosts (loads older)).step setup.hosts l).2 <;> rfl
    · simp only [List.filterMap_cons]
      cases e.blockedType setup <;> rfl
    · exact (pageLoads_cons now e).symm

/-! ### The wait for a challenge to pass -/

section Challenge

variable (setup : Setup) (detectors : List ChallengeDetector)

def snapshotAfter (history : History) : Option DocumentSnapshot := (Holders.after setup history).documents.probe

def BringsDocument (events : History) : Prop := ∃ entry ∈ events, (entry.2.document setup).isSome

/-- The body of the latest top-level document has arrived, or never will. -/
def Arrived (history : History) : Prop :=
  ∃ found, latestDocument setup history = some found ∧ ∃ entry ∈ sinceDocument setup history, entry.2.ended = some found.1

def Challenged (history : History) : Prop :=
  ∃ found, latestDocument setup history = some found ∧ isChallenge detectors found.2 = true

def Cleared (history : History) : Prop :=
  ∃ found, latestDocument setup history = some found ∧ isChallenge detectors found.2 = false

/-- The first poll that saw a document, among polls at these histories. -/
def firstSeen (polls : List History) : Option History := polls.find? fun history => (latestDocument setup history).isSome

/-- The first document that a poll saw is a challenge, and a poll saw another one that came
since, is none, and whose body had arrived. -/
def PassedIn (polls : List History) : Prop :=
  ∃ first between, firstSeen setup polls = some first ∧ Challenged setup detectors first ∧ between ++ first ∈ polls ∧
    BringsDocument setup between ∧ Arrived setup (between ++ first) ∧ Cleared setup detectors (between ++ first)

/-- The first document that a poll saw, if any did, is no challenge. -/
def UnchallengedIn (polls : List History) : Prop := ∀ first, firstSeen setup polls = some first → Cleared setup detectors first

variable {setup detectors} {polls : List History} {history first : History} {snapshot old : DocumentSnapshot}

theorem snapshotAfter_eq (setup : Setup) (history : History) : snapshotAfter setup history =
    (latestDocument setup history).map fun found =>
      ⟨history.countP fun entry => (entry.2.document setup).isSome,(documentsOf setup history).loaded,found.2⟩ := by
  rw [snapshotAfter,after_eq]
  simp only [ObservedDocuments.probe,documentsOf,Option.map_map]
  rfl

theorem loaded_iff (setup : Setup) (history : History) : (documentsOf setup history).loaded = true ↔ Arrived setup history := by
  simp only [documentsOf,Arrived]
  cases latestDocument setup history <;> simp

/-- A later snapshot has a higher number exactly when a top-level document came in between. -/
theorem seq_lt_iff {between : History} (before : snapshotAfter setup first = some old)
    (later : snapshotAfter setup (between ++ first) = some snapshot) :
    old.seq < snapshot.seq ↔ BringsDocument setup between := by
  rw [snapshotAfter_eq] at before later
  obtain ⟨_,_,rfl⟩ := Option.map_eq_some_iff.mp before
  obtain ⟨_,_,rfl⟩ := Option.map_eq_some_iff.mp later
  simp only [List.countP_append,Nat.lt_add_left_iff_pos,List.countP_pos_iff,BringsDocument]

theorem snapshotAfter_challenge (detectors : List ChallengeDetector) (seen : snapshotAfter setup history = some snapshot) :
    (isChallenge detectors snapshot.doc = true ↔ Challenged setup detectors history) ∧
    (isChallenge detectors snapshot.doc = false ↔ Cleared setup detectors history) ∧
    (snapshot.loaded = true ↔ Arrived setup history) := by
  rw [snapshotAfter_eq] at seen
  obtain ⟨found,latest,rfl⟩ := Option.map_eq_some_iff.mp seen
  refine ⟨?_,?_,loaded_iff setup history⟩
  · simp only [Challenged,latest,Option.some.injEq,exists_eq_left']
  · simp only [Cleared,latest,Option.some.injEq,exists_eq_left']

/-- The polls before the first document was seen saw none. -/
theorem firstSeen_cases (setup : Setup) (polls : List History) :
    firstSeen setup polls = none ∧ polls.filterMap (snapshotAfter setup) = [] ∨
    ∃ front first rest snapshot, firstSeen setup polls = some first ∧ polls = front ++ first :: rest ∧
      (∀ history ∈ front, latestDocument setup history = none) ∧ snapshotAfter setup first = some snapshot ∧
      polls.filterMap (snapshotAfter setup) = snapshot :: rest.filterMap (snapshotAfter setup) := by
  cases seen : firstSeen setup polls with
  | none =>
    refine .inl ⟨rfl,List.filterMap_eq_nil_iff.mpr fun history member => ?_⟩
    have unseen := List.find?_eq_none.mp seen history member
    rw [snapshotAfter_eq,Option.map_eq_none_iff]
    simpa using unseen
  | some first =>
    obtain ⟨some_,front,rest,rfl,unseen⟩ := List.find?_eq_some_iff_append.mp seen
    obtain ⟨found,latest⟩ := Option.isSome_iff_exists.mp some_
    have none_ (history : History) (member : history ∈ front) : latestDocument setup history = none := by
      simpa using unseen history member
    have quiet : front.filterMap (snapshotAfter setup) = [] := by
      refine List.filterMap_eq_nil_iff.mpr fun history member => ?_
      rw [snapshotAfter_eq,none_ history member]
      rfl
    have snapshot := snapshotAfter_eq setup first
    rw [latest] at snapshot
    refine .inr ⟨front,first,rest,_,rfl,rfl,none_,snapshot,?_⟩
    rw [List.filterMap_append,quiet,List.filterMap_cons,snapshot]
    rfl

theorem passes_iff (ordered : polls.Pairwise (· <:+ ·)) :
    Passes detectors (polls.filterMap (snapshotAfter setup)) ↔ PassedIn setup detectors polls := by
  rcases firstSeen_cases setup polls with ⟨unseen,quiet⟩ | ⟨front,first,rest,old,seen,rfl,none_,before,shots⟩
  · rw [quiet]
    constructor
    · exact False.elim
    · rintro ⟨first,_,seen,_⟩
      rw [unseen] at seen
      contradiction
  · have flagged := (snapshotAfter_challenge detectors before).1
    rw [shots,Passes,flagged]
    have tail := (List.pairwise_append.mp ordered).2.1
    constructor
    · rintro ⟨challenged,snapshot,member,newer,loaded,clear⟩
      obtain ⟨history,polled,shot⟩ := List.mem_filterMap.mp member
      obtain ⟨between,rfl⟩ := (List.pairwise_cons.mp tail).1 history polled
      have told := snapshotAfter_challenge detectors shot
      refine ⟨first,between,seen,challenged,?_,(seq_lt_iff before shot).mp newer,told.2.2.mp loaded,told.2.1.mp clear⟩
      exact List.mem_append_right _ (List.mem_cons_of_mem _ polled)
    · rintro ⟨other,between,same,challenged,polled,brings,arrived,cleared⟩
      obtain rfl : first = other := Option.some.inj (seen.symm.trans same)
      obtain ⟨found,latest,_⟩ := id cleared
      have polled : between ++ first ∈ rest := by
        rcases List.mem_append.mp polled with early | late
        · rw [none_ _ early] at latest
          contradiction
        · rcases List.mem_cons.mp late with itself | later
          · obtain rfl := List.append_left_eq_self.mp itself
            obtain ⟨_,⟨⟩,_⟩ := brings
          · exact later
      have shot := snapshotAfter_eq setup (between ++ first)
      rw [latest] at shot
      have told := snapshotAfter_challenge detectors shot
      refine ⟨challenged,_,List.mem_filterMap.mpr ⟨_,polled,shot⟩,(seq_lt_iff before shot).mpr brings,?_,?_⟩
      · exact told.2.2.mpr arrived
      · exact told.2.1.mpr cleared

theorem unchallenged_iff (polls : List History) :
    Unchallenged detectors (polls.filterMap (snapshotAfter setup)) ↔ UnchallengedIn setup detectors polls := by
  rcases firstSeen_cases setup polls with ⟨unseen,quiet⟩ | ⟨front,first,rest,old,seen,rfl,none_,before,shots⟩
  · rw [quiet]
    simp only [Unchallenged,UnchallengedIn,unseen]
    exact ⟨fun _ => by rintro _ ⟨⟩,fun _ => trivial⟩
  · rw [shots,Unchallenged,(snapshotAfter_challenge detectors before).2.1,UnchallengedIn,seen]
    simp only [Option.some.injEq,forall_eq']

end Challenge

section Wait

open Polling

variable {σ : Type} {tab : Tab σ} {time : σ → Nat}

/-- The tab of a request with a listener: the events that came stay, others may come with every
operation, and the latest document is read from the holder when it has been told `held`. -/
structure Listens (tab : Tab σ) (setup : Setup) (history held : σ → History) : Prop where
  now : ∀ s, history s <:+ history (tab.now s).2
  sleep : ∀ d s, history s <:+ history (tab.sleep d s)
  cancelled : ∀ s, history s <:+ history (tab.cancelled s).2
  before : ∀ s, history s <:+ held s
  after : ∀ s, held s <:+ history (tab.latest s).2
  latest : ∀ s, (tab.latest s).1 = snapshotAfter setup (held s)

/-- The tab that also keeps what the holder had been told at each reading of the latest document. -/
def watched (tab : Tab σ) (held : σ → History) : Tab (σ × List History) where
  ms := tab.ms
  now := fun (s,polls) => ((tab.now s).1,(tab.now s).2,polls)
  sleep d := fun (s,polls) => (tab.sleep d s,polls)
  spin := fun (s,polls) => (tab.spin s,polls)
  cancelled := fun (s,polls) => ((tab.cancelled s).1,(tab.cancelled s).2,polls)
  latest := fun (s,polls) => ((tab.latest s).1,(tab.latest s).2,polls ++ [held s])
  selectorExists purpose text := fun (s,polls) =>
    ((tab.selectorExists purpose text s).1,(tab.selectorExists purpose text s).2,polls)
  navigationStatus := fun (s,polls) => ((tab.navigationStatus s).1,(tab.navigationStatus s).2,polls)
  listen timeout := fun (s,polls) => (tab.listen timeout s,polls)
  idle := fun (s,polls) => ((tab.idle s).1,(tab.idle s).2,polls)
  documentReady wait selector := fun (s,polls) => (tab.documentReady wait selector s,polls)
  waitUntilNavigated := fun (s,polls) => ((tab.waitUntilNavigated s).1,(tab.waitUntilNavigated s).2,polls)

theorem clock_watched (clock : tab.Clock time) (held : σ → History) : (watched tab held).Clock fun t => time t.1 where
  ticks := clock.ticks
  now t := clock.now t.1
  sleep d t := clock.sleep d t.1
  spin t := clock.spin t.1
  cancelled t := clock.cancelled t.1
  latest t := clock.latest t.1
  selectorExists purpose selector t := clock.selectorExists purpose selector t.1
  navigationStatus t := clock.navigationStatus t.1
  listen timeout t := clock.listen timeout t.1
  idle t := clock.idle t.1
  documentReady wait selector t := clock.documentReady wait selector t.1
  waitUntilNavigated t := clock.waitUntilNavigated t.1

theorem watched_forget (tab : Tab σ) (held : σ → History) (detectors : List ChallengeDetector) (window : Nat)
    (t : σ × List History) : tab.waitOutChallenge detectors window t.1 =
      ((watched tab held).waitOutChallenge detectors window t).map (Prod.map id Prod.fst) := by
  have round : Follows (Prod.map Prod.fst id) ((watched tab held).challengeRound detectors (tab.now t.1).1 window)
      (tab.challengeRound detectors (tab.now t.1).1 window) := by
    apply Follows.cons fun _ => rfl
    apply Follows.cons fun _ => rfl
    apply Follows.cons fun _ => rfl
    exact Follows.last fun _ => rfl
  have rounds := round.poll (window + 1) (((watched tab held).now t).2,none)
  have began : Prod.map Prod.fst id (((watched tab held).now t).2,none) = ((tab.now t.1).2,(none : Option Nat)) := rfl
  rw [began] at rounds
  have itself : tab.waitOutChallenge detectors window t.1 = (poll (tab.challengeRound detectors (tab.now t.1).1 window)
      (window + 1) ((tab.now t.1).2,none)).map fun ended => (ended.1,ended.2.1) := rfl
  have kept : (watched tab held).waitOutChallenge detectors window t =
      (poll ((watched tab held).challengeRound detectors (tab.now t.1).1 window) (window + 1)
        (((watched tab held).now t).2,none)).map fun ended => (ended.1,ended.2.1) := rfl
  rw [itself,kept,rounds,Option.map_map,Option.map_map]
  rfl

/-- A log whose documents were read from the holder at the histories of these polls, each as
long as the one before it or longer. -/
structure Polled (setup : Setup) (polls : List History) (start current : History) (log : List Observation) : Prop where
  ordered : polls.Pairwise (· <:+ ·)
  within : ∀ history ∈ polls, start <:+ history ∧ history <:+ current
  since : start <:+ current
  shots : documents log = polls.filterMap (snapshotAfter setup)

variable {setup : Setup} {detectors : List ChallengeDetector} {history held : σ → History} {polls : List History}
  {start current : History} {log : List Observation}

theorem Polled.grow (polled : Polled setup polls start current log) (grows : current <:+ later)
    (same : documents log' = documents log) : Polled setup polls start later log' where
  ordered := polled.ordered
  within h member := ⟨(polled.within h member).1,(polled.within h member).2.trans grows⟩
  since := polled.since.trans grows
  shots := same.trans polled.shots

theorem Polled.look {told : History} (polled : Polled setup polls start current log) (grows : current <:+ told)
    (stays : told <:+ later) : Polled setup (polls ++ [told]) start later (.document (snapshotAfter setup told) :: log) where
  ordered := by
    refine List.pairwise_append.mpr ⟨polled.ordered,List.pairwise_singleton ..,fun earlier member other last => ?_⟩
    obtain rfl := List.mem_singleton.mp last
    exact (polled.within earlier member).2.trans grows
  within h member := by
    rcases List.mem_append.mp member with old | last
    · exact ⟨(polled.within h old).1,(polled.within h old).2.trans (grows.trans stays)⟩
    · obtain rfl := List.mem_singleton.mp last
      exact ⟨polled.since.trans grows,stays⟩
  since := polled.since.trans (grows.trans stays)
  shots := by
    rw [List.filterMap_append,← polled.shots]
    cases seen : snapshotAfter setup told with
    | none => simp [seen]
    | some snapshot => simp [seen]

def Logged (setup : Setup) (start : History) (history : σ → History) (t : (σ × List History) × List Observation) : Prop :=
  Polled setup t.1.2 start (history t.1.1) t.2

/-- An outcome was reached by a poll, and before the window is over only by the document it read. -/
def Reached (time : σ → Nat) (began window : Nat) (outcome : Option ChallengeOutcome)
    (t : (σ × List History) × List Observation) : Prop :=
  outcome = none ∨ t.1.2 ≠ [] ∧
    (outcome = some .passed ∨ (outcome = some .none ∧ documents t.2 ≠ []) ∨ window ≤ time t.1.1 - began)

theorem meets_logged (clock : tab.Clock time) (listens : Listens tab setup history held)
    (detectors : List ChallengeDetector) (began window : Nat) :
    Meets (fun t => Logged setup start history t.1) ((watched tab held).recorded.challengeRound detectors began window)
      (fun outcome t => Logged setup start history t.1 ∧ Reached time began window outcome t.1)
      (fun t => Logged setup start history t.1) := by
  have reads : ∀ s polls log, Logged setup start history ((s,polls),log) →
      Logged setup start history (((tab.now s).2,polls),.read (tab.now s).1 :: log) :=
    fun s polls log polled => polled.grow (listens.now s) rfl
  apply Meets.cons fun t => Logged setup start history t.1
  · rintro ⟨⟨⟨s,polls⟩,log⟩,first⟩ polled
    have kept : Logged setup start history ((watched tab held).recorded.cancelled ((s,polls),log)).2 :=
      Polled.grow polled (listens.cancelled s) rfl
    refine ⟨fun outcome answered => ⟨kept,.inl ?_⟩,fun _ => kept⟩
    simp only [Step.beside,Tab.checkCancellation] at answered
    split at answered
    · exact (Option.some.inj answered).symm
    · contradiction
  apply Meets.cons fun t => Logged setup start history t.1 ∧ t.1.1.2 ≠ []
  · rintro ⟨⟨⟨s,polls⟩,log⟩,first⟩ polled
    have look : Polled setup (polls ++ [held s]) start (history (tab.latest s).2)
        (.document (snapshotAfter setup (held s)) :: log) := Polled.look polled (listens.before s) (listens.after s)
    rw [← listens.latest s] at look
    have polled : polls ++ [held s] ≠ [] := by simp
    refine ⟨fun outcome answered => ⟨look,.inr ⟨polled,?_⟩⟩,fun _ => ⟨look,polled⟩⟩
    obtain ⟨verdict,judged,rfl⟩ := Option.map_eq_some_iff.mp answered
    change (judgeDocument detectors (tab.latest s).1 first).1 = some verdict at judged
    rcases judgeDocument_cases judged with rfl | ⟨rfl,snapshot,seen⟩
    · exact .inl rfl
    · refine .inr (.inl ⟨rfl,?_⟩)
      change documents (.document (tab.latest s).1 :: log) ≠ []
      rw [seen,documents_cons_some]
      simp
  apply Meets.cons fun t => Logged setup start history t.1
  · rintro ⟨⟨⟨s,polls⟩,log⟩,first⟩ ⟨logged,polled⟩
    refine ⟨fun outcome answered => ⟨reads s polls log logged,.inr ⟨polled,.inr (.inr ?_)⟩⟩,fun _ => reads s polls log logged⟩
    simp only [Tab.closeWindow] at answered
    split at answered
    · next closed =>
      have read := (clock.now s).2
      have past : window ≤ (tab.now s).1 - began := closed
      change window ≤ time (tab.now s).2 - began
      omega
    · contradiction
  apply Meets.last
  rintro ⟨⟨⟨s,polls⟩,log⟩,first⟩ logged
  exact ⟨by rintro _ ⟨⟩,fun _ => Polled.grow (reads s polls log logged) (listens.sleep ..) rfl⟩

/-- A wait for a challenge, not cancelled, tells what the CDP events up to its polls say, and it
polls until its window is over if they do not tell before. -/
theorem challenge_told_by_events (clock : tab.Clock time) (listens : Listens tab setup history held)
    (detectors : List ChallengeDetector) (window : Nat) (s : σ) :
    ∃ outcome s' polls log, tab.waitOutChallenge detectors window s = some (outcome,s') ∧
      (watched tab held).recorded.waitOutChallenge detectors window ((s,[]),[]) = some (outcome,(s',polls),log) ∧
      polls.Pairwise (· <:+ ·) ∧ (∀ h ∈ polls, history s <:+ h ∧ h <:+ history s') ∧
      (.cancelled true ∉ log → polls ≠ [] ∧
        (outcome = some .passed ↔ PassedIn setup detectors polls) ∧
        (outcome = some .none ↔ UnchallengedIn setup detectors polls) ∧
        (outcome = some .failed ↔ ¬PassedIn setup detectors polls ∧ ¬UnchallengedIn setup detectors polls) ∧
        (time s' - time s < window → PassedIn setup detectors polls ∨
          ∃ first, firstSeen setup polls = some first ∧ Cleared setup detectors first)) := by
  obtain ⟨outcome,⟨⟨s',polls⟩,log⟩,ended⟩ :=
    (clock_watched clock held).recorded.waitOutChallenge detectors window ((s,[]),[])
  have itself : tab.waitOutChallenge detectors window s = some (outcome,s') := by
    rw [watched_forget tab held detectors window (s,[]),
      waitOutChallenge_forget (watched tab held) detectors window ((s,[]),[]),ended]
    rfl
  have sound := sound_waitOutChallenge (watched tab held) detectors window (s,[]) ended
  obtain ⟨polled,reached⟩ : Logged setup (history s) history ((s',polls),log) ∧
      Reached time (tab.now s).1 window outcome ((s',polls),log) := by
    obtain ⟨⟨_,t,first⟩,answered,same⟩ := Option.map_eq_some_iff.mp ended
    obtain ⟨rfl,rfl⟩ := Prod.mk.inj same
    apply poll_sound (meets_logged clock listens detectors _ window) _ answered
    exact ⟨.nil,nofun,listens.now s,rfl⟩
  refine ⟨outcome,s',polls,log,itself,ended,polled.ordered,polled.within,fun going => ?_⟩
  have told := sound.told going
  rw [polled.shots,passes_iff polled.ordered,unchallenged_iff] at told
  obtain ⟨passed,unchallenged,failed⟩ := told
  have some_ : outcome ≠ none := by
    rintro rfl
    cases sound
    contradiction
  obtain ⟨made,how⟩ := reached.resolve_left some_
  refine ⟨made,passed,unchallenged,failed,fun early => ?_⟩
  rcases how with done | ⟨done,seen⟩ | late
  · exact .inl (passed.mp done)
  · rw [polled.shots] at seen
    have cleared := unchallenged.mp done
    rcases firstSeen_cases setup polls with ⟨_,quiet⟩ | ⟨_,first,_,_,first_,_⟩
    · exact absurd quiet seen
    · exact .inr ⟨first,first_,cleared first first_⟩
  · have began := (clock.now s).1
    change window ≤ time s' - (tab.now s).1 at late
    omega

def oneFrame : Setup := ⟨⟨fun _ => none,fun _ => false,some⟩,"F",[],"",⟨"","",∅⟩⟩

def lifted (now : Nat) : History :=
  if now < 250 then [(0,.responseReceived "1" .document (some "F") 403 "" none)]
  else [(250,.loadingFinished "2"),(240,.responseReceived "2" .document (some "F") 200 "" none),
    (0,.responseReceived "1" .document (some "F") 403 "" none)]

def liftedPage : Tab Nat := { guardedPage with latest := fun t => (snapshotAfter oneFrame (lifted t),t) }

theorem lifted_grows (earlier : now ≤ later) : lifted now <:+ lifted later := by
  unfold lifted
  split
  · split
    · exact List.suffix_refl _
    · exact ⟨[_,_],rfl⟩
  · rw [if_neg (by omega)]

theorem challenge_told_by_events_lifted : ∃ polls log,
    (watched liftedPage lifted).recorded.waitOutChallenge [fun doc => doc.status == 403] 1000 ((0,[]),[]) =
      some (some .passed,(300,polls),log) ∧ PassedIn oneFrame [fun doc => doc.status == 403] polls := by
  have clean : ∀ run ∈ (watched liftedPage lifted).recorded.waitOutChallenge [fun doc => doc.status == 403] 1000
      ((0,[]),[]), .cancelled true ∉ run.2.2 := by
    decide +kernel
  have same : liftedPage.waitOutChallenge [fun doc => doc.status == 403] 1000 0 = some (some .passed,300) := by
    decide +kernel
  have prompt : liftedPage.Prompt id 0 := by
    constructor <;> intros <;> simp [liftedPage,guardedPage]
  have listens : Listens liftedPage oneFrame lifted lifted :=
    ⟨fun _ => List.suffix_refl _,fun _ _ => lifted_grows (Nat.le_add_right _ _),fun _ => List.suffix_refl _,
      fun _ => List.suffix_refl _,fun _ => List.suffix_refl _,fun _ => rfl⟩
  obtain ⟨outcome,t,polls,log,ended,recorded,_,_,told⟩ :=
    challenge_told_by_events prompt.clock listens [fun doc => doc.status == 403] 1000 0
  obtain ⟨rfl,rfl⟩ := Prod.mk.inj (Option.some.inj (ended.symm.trans same))
  obtain ⟨_,passed,_⟩ := told (clean _ recorded)
  exact ⟨polls,log,recorded,passed.mp rfl⟩

end Wait

end BrowserHive.Worker.Observer
