import Mathlib.Data.List.AList
import Mathlib.Data.List.Sort
import Mathlib.Data.List.Dedup
import BrowserHive.Lib.Text

/-! Evidence that a page did not finish loading: the tracker that listens to the loads of one
request, and what its verdict counts, told from the history of the events alone. Times are
nanoseconds. -/
namespace BrowserHive.Worker.PageLoad

def stalledAfter : Nat := 10 * 1000000000

def maxTracked : Nat := 4096

def maxListed : Nat := 5

def maxUrlChars : Nat := 120

def transportErrors : List String :=
  ["ERR_TIMED_OUT","ERR_CONNECTION_TIMED_OUT","ERR_CONNECTION_RESET","ERR_CONNECTION_CLOSED",
    "ERR_CONNECTION_ABORTED","ERR_EMPTY_RESPONSE","ERR_HTTP2_","ERR_QUIC_PROTOCOL_ERROR",
    "ERR_INCOMPLETE_CHUNKED_ENCODING","ERR_CONTENT_LENGTH_MISMATCH"]

def crossOriginBlocks : List String := ["ERR_BLOCKED_BY_ORB","ERR_BLOCKED_BY_RESPONSE"]

/-- Types that are not tracked are one here. -/
inductive ResourceType where
  | script
  | stylesheet
  | xhr
  | fetch
  | other
  deriving DecidableEq, Repr

inductive BlockedReason where
  | inspector
  | other
  deriving DecidableEq, Repr

inductive Kind where
  | asset
  | data
  deriving DecidableEq, Repr

def Kind.of : ResourceType → Option (Kind × String)
  | .script => some (.asset,"Script")
  | .stylesheet => some (.asset,"Stylesheet")
  | .xhr => some (.data,"XHR")
  | .fetch => some (.data,"Fetch")
  | .other => none

inductive Outcome where
  | pending
  | status (code : Nat)
  | failed (errorText : String) (canceled blockedByUs cors : Bool)
  deriving DecidableEq, Repr

structure Load where
  url : String
  typeLabel : String
  kind : Kind
  started : Nat
  responded : Option Nat
  outcome : Outcome
  deriving DecidableEq, Repr

/-- What the crates `url` and `psl` and the address parser of the standard library answer. -/
structure Hosts where
  /-- Scheme and host of a URL that parses. -/
  parse : String → Option (String × Option String)
  isIpAddr : String → Bool
  domainStr : String → Option String

namespace Hosts

variable (hosts : Hosts)

def hostOf (url : String) : Option String := do
  let (scheme,host) ← hosts.parse url
  if scheme ∉ ["http","https","ws","wss"] then none
  else host.map String.toLower

def registrableDomain (host : String) : String :=
  if "[".isPrefixOf host || hosts.isIpAddr host then host else (hosts.domainStr host).getD host

def isCrossSite (pageHost otherHost : String) : Bool :=
  hosts.registrableDomain pageHost ≠ hosts.registrableDomain otherHost

def isSameSite (pageHost url : String) : Bool :=
  match hosts.hostOf url with
  | some host => if pageHost ≠ "" then !hosts.isCrossSite pageHost host else false
  | none => false

end Hosts

/-- The values of a map come in an order of its own; `verdictAt` is given it. -/
structure PageLoadTracker where
  pageHost : String
  loads : AList fun _ : String => Load
  /-- The main document while it is still loading. -/
  mainDocument : Option String
  /-- The latest main document, loaded or not. -/
  lastDocument : Option String
  loadFired : Bool

def shortUrl (url : String) : String :=
  let base := url.toList.takeWhile fun c => c ≠ '?' && c ≠ '#'
  if base.length ≤ maxUrlChars then String.ofList base else String.ofList (base.take maxUrlChars) ++ "…"

def contains (text pattern : String) : Bool := (Text.find pattern.toList text.toList).isSome

/-- `trim_start_matches("net::")`. -/
def trimNet : Nat → List Char → List Char
  | 0, text => text
  | fuel + 1, text =>
    if "net::".toList.isPrefixOf text then trimNet fuel (text.drop "net::".length) else text

namespace PageLoadTracker

def new (hosts : Hosts) (requestedUrl : String) : PageLoadTracker :=
  ⟨(hosts.hostOf requestedUrl).getD "",∅,none,none,false⟩

def willBeSent (t : PageLoadTracker) (now : Nat) (id url : String) (type : Option ResourceType)
    (isMainDocument : Bool) : PageLoadTracker :=
  if isMainDocument then
    { t with
      loads := if t.lastDocument.any (· ≠ id) then ∅ else t.loads
      loadFired := if t.lastDocument ≠ some id then false else t.loadFired
      lastDocument := some id
      mainDocument := some id }
  else match type.bind Kind.of with
    | none => t
    | some (kind,typeLabel) =>
      match t.loads.lookup id with
      | some load => { t with loads := t.loads.insert id { load with url := url } }
      | none =>
        if maxTracked ≤ t.loads.entries.length then t
        else { t with loads := t.loads.insert id ⟨url,typeLabel,kind,now,none,.pending⟩ }

def loadEvent (t : PageLoadTracker) : PageLoadTracker := { t with loadFired := true }

def response (t : PageLoadTracker) (id : String) (status : Nat) : PageLoadTracker :=
  match t.loads.lookup id with
  | none => t
  | some load => { t with loads := t.loads.insert id { load with
      responded := some status
      outcome := if status = 403 ∨ status = 429 then .status status else load.outcome } }

def closeDocument (t : PageLoadTracker) (id : String) : PageLoadTracker :=
  { t with mainDocument := if t.mainDocument = some id then none else t.mainDocument }

def finished (t : PageLoadTracker) (id : String) : PageLoadTracker :=
  let t := t.closeDocument id
  match t.loads.lookup id with
  | none => t
  | some load => if load.outcome = .pending then { t with loads := t.loads.erase id } else t

def failed (t : PageLoadTracker) (id errorText : String) (canceled : Bool)
    (blockedReason : Option BlockedReason) (cors : Bool) : PageLoadTracker :=
  let t := t.closeDocument id
  match t.loads.lookup id with
  | none => t
  | some load => { t with loads := t.loads.insert id { load with
      outcome := .failed errorText canceled (blockedReason = some .inspector) cors } }

def judge (hosts : Hosts) (t : PageLoadTracker) (load : Load) (now : Nat) : Option String :=
  if load.kind = .data ∧ !hosts.isSameSite t.pageHost load.url then none
  else match load.outcome with
    | .pending =>
      let age := now - load.started
      if stalledAfter ≤ age then
        match load.responded with
        | some status => some ("pending " ++ toString (age / 1000000000) ++ "s, HTTP " ++ toString status ++ " body")
        | none => some ("pending " ++ toString (age / 1000000000) ++ "s")
      else none
    | .status status => some ("HTTP " ++ toString status)
    | .failed errorText canceled blockedByUs cors =>
      if canceled || blockedByUs || contains errorText "ERR_ABORTED" then none
      else
        let error := String.ofList (trimNet errorText.length errorText.toList)
        if cors then some ("CORS " ++ error)
        else if crossOriginBlocks.any (contains errorText) || transportErrors.any (contains errorText) then some error
        else none

def verdictAt (hosts : Hosts) (t : PageLoadTracker) (values : List Load) (now : Nat) : List String × Nat :=
  let loads := values.filterMap fun load => (judge hosts t load now).map fun reason =>
    (load.started,load.typeLabel ++ " " ++ reason ++ " " ++ shortUrl load.url)
  let sorted := loads.insertionSort fun a b => a.1 ≤ b.1
  let document :=
    if t.mainDocument.isSome then some "main document still loading"
    else if t.lastDocument.isSome && !t.loadFired then some "load event never fired"
    else none
  let markers := document.toList ++ sorted.map Prod.snd
  (markers.take maxListed,markers.length)

end PageLoadTracker

inductive Event where
  | willBeSent (id url : String) (type : Option ResourceType) (isMainDocument : Bool)
  | response (id : String) (status : Nat)
  | finished (id : String)
  | failed (id errorText : String) (canceled : Bool) (blockedReason : Option BlockedReason) (cors : Bool)
  | loadEvent
  deriving DecidableEq, Repr

/-- The events fed to a tracker and when, the latest first. -/
abbrev History := List (Nat × Event)

def PageLoadTracker.feed (t : PageLoadTracker) (now : Nat) : Event → PageLoadTracker
  | .willBeSent id url type isMainDocument => t.willBeSent now id url type isMainDocument
  | .response id status => t.response id status
  | .finished id => t.finished id
  | .failed id errorText canceled blockedReason cors => t.failed id errorText canceled blockedReason cors
  | .loadEvent => t.loadEvent

def PageLoadTracker.after (hosts : Hosts) (requestedUrl : String) : History → PageLoadTracker
  | [] => .new hosts requestedUrl
  | (now,e) :: older => (PageLoadTracker.after hosts requestedUrl older).feed now e

namespace Event

def document : Event → Option String
  | .willBeSent id _ _ true => some id
  | _ => none

/-- A request of a tracked type: its id, URL, kind and label. -/
def load : Event → Option (String × String × Kind × String)
  | .willBeSent id url type false => (type.bind Kind.of).map fun (kind,label) => (id,url,kind,label)
  | _ => none

/-- What was decided of a load, for those that are closed without it. -/
def decision (id : String) : Event → Option Outcome
  | .response other status => if other = id ∧ (status = 403 ∨ status = 429) then some (.status status) else none
  | .failed other errorText canceled blockedReason cors =>
    if other = id then some (.failed errorText canceled (blockedReason = some .inspector) cors) else none
  | _ => none

def status (id : String) : Event → Option Nat
  | .response other status => if other = id then some status else none
  | _ => none

def sent (id : String) (e : Event) : Option (String × Kind × String) :=
  match e.load with
  | some (other,load) => if other = id then some load else none
  | none => none

end Event

def latestDocument : History → Option String
  | [] => none
  | (_,e) :: older => e.document.or (latestDocument older)

def replaces (older : History) (e : Event) : Bool :=
  e.document.any fun id => (latestDocument older).any (· ≠ id)

/-- The events of the current page: those since its document replaced another one. -/
def currentPage : History → History
  | [] => []
  | (now,e) :: older => if replaces older e then [] else (now,e) :: currentPage older

/-- The events since the load that is open for the id began, and none when none is open: a
request of a tracked type begins it, a finish closes it if nothing was decided of it. -/
def openLoad (id : String) : History → History
  | [] => []
  | (now,e) :: older =>
    match openLoad id older with
    | [] => if (e.sent id).isSome then [(now,e)] else []
    | load =>
      if e = .finished id ∧ load.all fun entry => (entry.2.decision id).isNone then [] else (now,e) :: load

def openIds (page : History) : List String :=
  (page.filterMap fun entry => entry.2.load.map Prod.fst).dedup.filter fun id => !(openLoad id page).isEmpty

/-- Whether an open load counts: it is a script's or stylesheet's, or one of the same site, and
the latest decision on it counts, or nothing was decided since it began long enough ago. -/
def counts (hosts : Hosts) (pageHost : String) (now : Nat) (id : String) (load : History) : Bool :=
  match load.getLast?.bind fun entry => (entry.2.sent id).map (entry.1,·) with
  | none => false
  | some (started,url,kind,_) =>
    let latestUrl := ((load.findSome? fun entry => entry.2.sent id).map Prod.fst).getD url
    (kind = .asset || hosts.isSameSite pageHost latestUrl) &&
      match (load.findSome? fun entry => entry.2.decision id : Option Outcome) with
      | some (.failed errorText canceled blockedByUs cors) =>
        !canceled && !blockedByUs && !contains errorText "ERR_ABORTED" &&
          (cors || crossOriginBlocks.any (contains errorText) || transportErrors.any (contains errorText))
      | some _ => true
      | none => stalledAfter ≤ now - started

/-- The main document is still loading: it has neither finished nor failed since it was sent. -/
def documentPending (history : History) : Bool :=
  (latestDocument history).any fun id => (history.takeWhile fun entry => entry.2.document.isNone).all fun entry =>
    match entry.2 with
    | .finished other | .failed other .. => other ≠ id
    | _ => true

/-- The events since a main document had another id than the one before it, if any did. -/
def sinceDocument : History → History
  | [] => []
  | (now,e) :: older =>
    if e.document.isSome ∧ latestDocument older ≠ e.document then [] else (now,e) :: sinceDocument older

/-- One marker for a main document that is still loading, or whose `load` event did not fire. -/
def documentMarkers (history : History) : Nat :=
  if documentPending history then 1
  else if (latestDocument history).isSome ∧ (sinceDocument history).all fun entry => entry.2 ≠ .loadEvent then 1
  else 0

def markers (hosts : Hosts) (requestedUrl : String) (history : History) (now : Nat) : Nat :=
  let page := currentPage history
  documentMarkers history +
    (openIds page).countP fun id => counts hosts ((hosts.hostOf requestedUrl).getD "") now id (openLoad id page)

def loadOf (id : String) (load : History) : Option Load :=
  (load.getLast?.bind fun entry => (entry.2.sent id).map (entry.1,·)).map fun (started,url,kind,label) =>
    { url := ((load.findSome? fun entry => entry.2.sent id).map Prod.fst).getD url
      typeLabel := label
      kind := kind
      started := started
      responded := load.findSome? fun entry => entry.2.status id
      outcome := (load.findSome? fun entry => entry.2.decision id).getD .pending }

/-- What one event does to the load that is open for an id, if one is. -/
def stepLoad (id : String) (now : Nat) (e : Event) : Option Load → Option Load
  | none => (e.sent id).map fun (url,kind,label) => ⟨url,label,kind,now,none,.pending⟩
  | some load =>
    if e = .finished id ∧ load.outcome = .pending then none
    else some { load with
      url := ((e.sent id).map Prod.fst).getD load.url
      responded := (e.status id).or load.responded
      outcome := (e.decision id).getD load.outcome }

section Reference

variable {id : String} {now : Nat} {e : Event} {older page load : History}

theorem decision_ne_pending (decided : e.decision id = some outcome) : outcome ≠ .pending := by
  unfold Event.decision at decided
  split at decided
  · split at decided
    · obtain rfl := Option.some.inj decided
      nofun
    · contradiction
  · split at decided
    · obtain rfl := Option.some.inj decided
      nofun
    · contradiction
  · contradiction

theorem sent_silent (sent : e.sent id = some begun) : e.status id = none ∧ e.decision id = none := by
  cases e with
  | willBeSent => exact ⟨rfl,rfl⟩
  | _ => contradiction

/-- An open load begins with the request that began it. -/
theorem openLoad_begins (id : String) (page : History) (open_ : openLoad id page ≠ []) :
    ∃ entry begun, (openLoad id page).getLast? = some entry ∧ entry.2.sent id = some begun := by
  induction page with
  | nil => exact absurd rfl open_
  | cons entry older ih =>
    obtain ⟨now,e⟩ := entry
    cases former : openLoad id older with
    | nil =>
      simp only [openLoad,former] at open_ ⊢
      split at open_
      · next sent =>
        obtain ⟨begun,sent⟩ := Option.isSome_iff_exists.mp sent
        exact ⟨(now,e),begun,by simp [sent],sent⟩
      · exact absurd rfl open_
    | cons first rest =>
      obtain ⟨entry,begun,last,sent⟩ := ih (by simp [former])
      simp only [openLoad,former] at open_ last ⊢
      split at open_
      · exact absurd rfl open_
      · next kept =>
        rw [if_neg kept,List.getLast?_cons_cons]
        exact ⟨entry,begun,last,sent⟩

theorem loadOf_eq_none : loadOf id (openLoad id page) = none ↔ openLoad id page = [] := by
  constructor
  · intro none_
    by_contra open_
    obtain ⟨entry,begun,last,sent⟩ := openLoad_begins id page open_
    simp [loadOf,last,sent] at none_
  · intro closed
    rw [closed]
    rfl

/-- Nothing was decided of a pending load. -/
theorem loadOf_pending (found : loadOf id load = some l) :
    l.outcome = .pending ↔ load.all (fun entry => (entry.2.decision id).isNone) = true := by
  obtain ⟨begun,_,rfl⟩ := Option.map_eq_some_iff.mp found
  simp only [List.all_eq_true]
  cases decided : load.findSome? fun entry => entry.2.decision id with
  | none => simpa using List.findSome?_eq_none_iff.mp decided
  | some outcome =>
    obtain ⟨entry,member,decision⟩ := List.exists_of_findSome?_eq_some decided
    constructor
    · intro pending
      exact absurd pending (decision_ne_pending decision)
    · intro none_
      have undecided := none_ entry member
      rw [decision] at undecided
      contradiction

/-- The load read off the history takes the steps that the events say. -/
theorem loadOf_step (id : String) (now : Nat) (e : Event) (page : History) :
    loadOf id (openLoad id ((now,e) :: page)) = stepLoad id now e (loadOf id (openLoad id page)) := by
  cases former : openLoad id page with
  | nil =>
    simp only [openLoad,former]
    cases sent : e.sent id with
    | none => simp [loadOf,stepLoad,sent]
    | some begun =>
      obtain ⟨silent,undecided⟩ := sent_silent sent
      simp [loadOf,stepLoad,sent,silent,undecided]
  | cons first rest =>
    have open_ : loadOf id (openLoad id page) ≠ none := by
      rw [Ne,loadOf_eq_none,former]
      exact List.cons_ne_nil first rest
    obtain ⟨l,found⟩ := Option.ne_none_iff_exists'.mp open_
    have pending := loadOf_pending found
    rw [former] at found pending
    rw [found]
    simp only [openLoad,former,stepLoad]
    by_cases closes : e = .finished id ∧ l.outcome = .pending
    · rw [if_pos ⟨closes.1,pending.mp closes.2⟩,if_pos closes]
      rfl
    · rw [if_neg (fun both => closes ⟨both.1,pending.mpr both.2⟩),if_neg closes]
      obtain ⟨begun,last,rfl⟩ := Option.map_eq_some_iff.mp found
      simp only [loadOf,List.getLast?_cons_cons,last,Option.map_some]
      simp only [List.findSome?_cons]
      cases e.sent id <;> cases e.status id <;> cases e.decision id <;> rfl

end Reference

section Tracker

variable {t : PageLoadTracker} {now : Nat} {e : Event} {id other : String}

def Event.about : Event → Option String
  | .willBeSent id .. | .response id _ | .finished id | .failed id .. => some id
  | .loadEvent => none

theorem stepLoad_other (apart : e.about ≠ some id) (load : Option Load) : stepLoad id now e load = load := by
  have silent : e.sent id = none ∧ e.status id = none ∧ e.decision id = none ∧ e ≠ .finished id := by
    cases e with
    | willBeSent other url type isMain =>
      have differs : other ≠ id := by simpa [Event.about] using apart
      refine ⟨?_,rfl,rfl,nofun⟩
      cases isMain with
      | true => rfl
      | false => cases tracked : type.bind Kind.of <;> simp [Event.sent,Event.load,tracked,differs]
    | response | finished | failed =>
      simp only [Event.about,ne_eq,Option.some.injEq] at apart
      simp [Event.sent,Event.load,Event.status,Event.decision,apart]
    | loadEvent => exact ⟨rfl,rfl,rfl,nofun⟩
  obtain ⟨sent,status,decision,finished⟩ := silent
  cases load with
  | none => simp [stepLoad,sent]
  | some load => simp [stepLoad,sent,status,decision,finished]

/-- A main document begins no load and decides nothing of one. -/
theorem stepLoad_document (document : e.document = some other) (load : Option Load) : stepLoad id now e load = load := by
  cases e with
  | willBeSent other url type isMain =>
    cases isMain with
    | true => cases load <;> rfl
    | false => contradiction
  | _ => contradiction

theorem response_loads (t : PageLoadTracker) (now : Nat) (other : String) (status : Nat) (id : String) :
    (t.response other status).loads.lookup id = stepLoad id now (.response other status) (t.loads.lookup id) := by
  by_cases same : id = other
  · subst same
    unfold PageLoadTracker.response
    cases found : t.loads.lookup id with
    | none => simp [found,stepLoad,Event.sent,Event.load]
    | some load =>
      simp only [AList.lookup_insert]
      by_cases marked : status = 403 ∨ status = 429 <;>
        simp [stepLoad,Event.sent,Event.load,Event.status,Event.decision,marked]
  · rw [stepLoad_other (by simpa [Event.about] using Ne.symm same)]
    unfold PageLoadTracker.response
    split
    · rfl
    · exact AList.lookup_insert_ne same

theorem failed_loads (t : PageLoadTracker) (now : Nat) (other errorText : String) (canceled : Bool)
    (blockedReason : Option BlockedReason) (cors : Bool) (id : String) :
    (t.failed other errorText canceled blockedReason cors).loads.lookup id =
      stepLoad id now (.failed other errorText canceled blockedReason cors) (t.loads.lookup id) := by
  by_cases same : id = other
  · subst same
    unfold PageLoadTracker.failed PageLoadTracker.closeDocument
    cases found : t.loads.lookup id with
    | none => simp [found,stepLoad,Event.sent,Event.load]
    | some load => simp [found,stepLoad,Event.sent,Event.load,Event.status,Event.decision]
  · rw [stepLoad_other (by simpa [Event.about] using Ne.symm same)]
    unfold PageLoadTracker.failed PageLoadTracker.closeDocument
    simp only
    split
    · rfl
    · exact AList.lookup_insert_ne same

theorem finished_loads (t : PageLoadTracker) (now : Nat) (other id : String) :
    (t.finished other).loads.lookup id = stepLoad id now (.finished other) (t.loads.lookup id) := by
  by_cases same : id = other
  · subst same
    unfold PageLoadTracker.finished PageLoadTracker.closeDocument
    cases found : t.loads.lookup id with
    | none => simp [found,stepLoad,Event.sent,Event.load]
    | some load =>
      by_cases pending : load.outcome = .pending
      · simp [found,stepLoad,pending]
      · simp [found,stepLoad,pending,Event.sent,Event.load,Event.status,Event.decision]
  · rw [stepLoad_other (by simpa [Event.about] using Ne.symm same)]
    unfold PageLoadTracker.finished PageLoadTracker.closeDocument
    simp only
    split
    · rfl
    · split
      · exact AList.lookup_erase_ne same
      · rfl

theorem willBeSent_loads (t : PageLoadTracker) (now : Nat) (other url : String) (type : Option ResourceType) (id : String)
    (room : t.loads.entries.length < maxTracked) :
    (t.willBeSent now other url type false).loads.lookup id =
      stepLoad id now (.willBeSent other url type false) (t.loads.lookup id) := by
  have crowded : ¬maxTracked ≤ t.loads.entries.length := Nat.not_le.mpr room
  cases tracked : type.bind Kind.of with
  | none =>
    have untouched : t.willBeSent now other url type false = t := by simp [PageLoadTracker.willBeSent,tracked]
    rw [untouched]
    cases t.loads.lookup id <;>
      simp [stepLoad,Event.sent,Event.load,Event.status,Event.decision,tracked]
  | some load =>
    obtain ⟨kind,label⟩ := load
    by_cases same : id = other
    · subst same
      cases found : t.loads.lookup id with
      | none => simp [PageLoadTracker.willBeSent,tracked,found,crowded,stepLoad,Event.sent,Event.load]
      | some load =>
        simp [PageLoadTracker.willBeSent,tracked,found,stepLoad,Event.sent,Event.load,Event.status,Event.decision]
    · rw [stepLoad_other (by simpa [Event.about] using Ne.symm same)]
      cases found : t.loads.lookup other with
      | none => simp [PageLoadTracker.willBeSent,tracked,found,crowded,AList.lookup_insert_ne same]
      | some load => simp [PageLoadTracker.willBeSent,tracked,found,AList.lookup_insert_ne same]

/-- An event of the page takes every load of it a step on. -/
theorem feed_loads (t : PageLoadTracker) (now : Nat) (e : Event) (id : String)
    (room : t.loads.entries.length < maxTracked) (inner : e.document = none) :
    (t.feed now e).loads.lookup id = stepLoad id now e (t.loads.lookup id) := by
  cases e with
  | willBeSent other url type isMain =>
    cases isMain with
    | false => exact willBeSent_loads t now other url type id room
    | true => contradiction
  | response other status => exact response_loads t now other status id
  | finished other => exact finished_loads t now other id
  | failed other errorText canceled blockedReason cors => exact failed_loads t now other errorText canceled blockedReason cors id
  | loadEvent => cases found : t.loads.lookup id <;>
      simp [PageLoadTracker.feed,PageLoadTracker.loadEvent,found,stepLoad,Event.sent,Event.load,Event.status,Event.decision]

def Event.spares (id : String) (e : Event) : Bool :=
  match e with
  | .finished other | .failed other .. => other ≠ id
  | _ => true

structure Rest (t t' : PageLoadTracker) (e : Event) : Prop where
  pageHost : t'.pageHost = t.pageHost
  lastDocument : t'.lastDocument = t.lastDocument
  mainDocument : t'.mainDocument = t.mainDocument.filter (e.spares ·)
  loadFired : t'.loadFired = (t.loadFired || decide (e = .loadEvent))

theorem Rest.unspoiled (loads : AList fun _ : String => Load) (spared : ∀ id, e.spares id = true)
    (silent : e ≠ .loadEvent) : Rest t { t with loads := loads } e := by
  refine ⟨rfl,rfl,?_,by simp [silent]⟩
  have all : (fun id => e.spares id) = fun _ => true := funext spared
  rw [all]
  cases t.mainDocument <;> rfl

theorem Rest.ended (loads : AList fun _ : String => Load) (spared : ∀ other, e.spares other = decide (id ≠ other))
    (silent : e ≠ .loadEvent) : Rest t { t.closeDocument id with loads := loads } e := by
  refine ⟨rfl,rfl,?_,by simp [silent,PageLoadTracker.closeDocument]⟩
  have others : (fun other => e.spares other) = fun other => decide (id ≠ other) := funext spared
  rw [others]
  cases main : t.mainDocument with
  | none => simp [PageLoadTracker.closeDocument,main]
  | some document =>
    by_cases same : document = id
    · simp [PageLoadTracker.closeDocument,main,same,Option.filter]
    · simp [PageLoadTracker.closeDocument,main,same,Ne.symm same,Option.filter]

theorem feed_rest (t : PageLoadTracker) (now : Nat) (e : Event) (inner : e.document = none) : Rest t (t.feed now e) e := by
  cases e with
  | willBeSent id url type isMain =>
    cases isMain with
    | true => contradiction
    | false =>
      have loads : ∃ loads, t.willBeSent now id url type false = { t with loads := loads } := by
        simp only [PageLoadTracker.willBeSent,Bool.false_eq_true,if_false]
        split
        · exact ⟨t.loads,rfl⟩
        · split
          · exact ⟨_,rfl⟩
          · split
            · exact ⟨t.loads,rfl⟩
            · exact ⟨_,rfl⟩
      obtain ⟨loads,same⟩ := loads
      rw [PageLoadTracker.feed,same]
      exact .unspoiled loads (fun _ => rfl) nofun
  | response id status =>
    have loads : ∃ loads, t.response id status = { t with loads := loads } := by
      unfold PageLoadTracker.response
      split
      · exact ⟨t.loads,rfl⟩
      · exact ⟨_,rfl⟩
    obtain ⟨loads,same⟩ := loads
    rw [PageLoadTracker.feed,same]
    exact .unspoiled loads (fun _ => rfl) nofun
  | finished id =>
    have loads : ∃ loads, t.finished id = { t.closeDocument id with loads := loads } := by
      simp only [PageLoadTracker.finished]
      split
      · exact ⟨t.loads,rfl⟩
      · split
        · exact ⟨_,rfl⟩
        · exact ⟨t.loads,rfl⟩
    obtain ⟨loads,same⟩ := loads
    rw [PageLoadTracker.feed,same]
    exact .ended loads (fun _ => rfl) nofun
  | failed id errorText canceled blockedReason cors =>
    have loads : ∃ loads, t.failed id errorText canceled blockedReason cors =
        { t.closeDocument id with loads := loads } := by
      simp only [PageLoadTracker.failed]
      split
      · exact ⟨t.loads,rfl⟩
      · exact ⟨_,rfl⟩
    obtain ⟨loads,same⟩ := loads
    rw [PageLoadTracker.feed,same]
    exact .ended loads (fun _ => rfl) nofun
  | loadEvent =>
    refine ⟨rfl,rfl,?_,by simp [PageLoadTracker.feed,PageLoadTracker.loadEvent]⟩
    change t.mainDocument = t.mainDocument.filter fun _ => true
    cases t.mainDocument <;> rfl

theorem feed_document (t : PageLoadTracker) (now : Nat) (document : e.document = some id) :
    t.feed now e = { t with
      loads := if t.lastDocument.any (· ≠ id) then ∅ else t.loads
      loadFired := if t.lastDocument ≠ some id then false else t.loadFired
      lastDocument := some id
      mainDocument := some id } := by
  cases e with
  | willBeSent other url type isMain =>
    cases isMain with
    | true =>
      obtain rfl : other = id := Option.some.inj document
      rfl
    | false => contradiction
  | _ => contradiction

end Tracker

section Simulation

variable {hosts : Hosts} {requestedUrl : String} {history older : History} {now : Nat} {e : Event}

structure Follows (t : PageLoadTracker) (pageHost : String) (history : History) : Prop where
  pageHost : t.pageHost = pageHost
  loads : ∀ id, t.loads.lookup id = loadOf id (openLoad id (currentPage history))
  lastDocument : t.lastDocument = latestDocument history
  mainDocument : t.mainDocument = (latestDocument history).filter fun _ => documentPending history
  loadFired : t.loadFired = !(sinceDocument history).all fun entry => entry.2 ≠ .loadEvent

theorem Follows.new (hosts : Hosts) (requestedUrl : String) :
    Follows (PageLoadTracker.new hosts requestedUrl) ((hosts.hostOf requestedUrl).getD "") [] :=
  ⟨rfl,fun _ => rfl,rfl,rfl,rfl⟩

theorem currentPage_cons (older : History) (now : Nat) (e : Event) (same : replaces older e = false) :
    currentPage ((now,e) :: older) = (now,e) :: currentPage older := by
  simp [currentPage,same]

variable {t : PageLoadTracker} {host id : String}

theorem Follows.document (follows : Follows t host older) (document : e.document = some id) :
    Follows (t.feed now e) host ((now,e) :: older) := by
  rw [feed_document t now document]
  refine ⟨follows.pageHost,fun other => ?_,?_,?_,?_⟩
  · have replaced : t.lastDocument.any (· ≠ id) = replaces older e := by
      simp [replaces,document,follows.lastDocument]
    simp only [replaced]
    cases page : replaces older e with
    | true =>
      simp only [currentPage,page,if_true]
      rfl
    | false =>
      rw [currentPage_cons older now e page,loadOf_step,stepLoad_document document]
      exact follows.loads other
  · simp [latestDocument,document]
  · simp [latestDocument,document,documentPending,Option.filter]
  · simp only [sinceDocument,document,Option.isSome_some,true_and,follows.lastDocument,follows.loadFired]
    by_cases same : latestDocument older = some id
    · have quiet : e ≠ .loadEvent := by
        rintro rfl
        contradiction
      simp [same,quiet]
    · simp [same]

theorem Follows.event (follows : Follows t host older) (room : t.loads.entries.length < maxTracked)
    (inner : e.document = none) : Follows (t.feed now e) host ((now,e) :: older) := by
  have rest := feed_rest t now e inner
  have latest : latestDocument ((now,e) :: older) = latestDocument older := by simp [latestDocument,inner]
  refine ⟨rest.pageHost.trans follows.pageHost,fun id => ?_,?_,?_,?_⟩
  · have page : replaces older e = false := by simp [replaces,inner]
    rw [feed_loads t now e id room inner,currentPage_cons older now e page,loadOf_step,follows.loads id]
  · rw [rest.lastDocument,latest,follows.lastDocument]
  · rw [rest.mainDocument,latest,follows.mainDocument]
    cases main : latestDocument older with
    | none => rfl
    | some document =>
      have pending : documentPending ((now,e) :: older) = (e.spares document && documentPending older) := by
        simp only [documentPending,latest,main,List.takeWhile_cons,inner]
        rfl
      rw [pending]
      cases spared : e.spares document <;> cases documentPending older <;> simp [Option.filter,spared]
  · rw [rest.loadFired,follows.loadFired,sinceDocument]
    simp [inner,Bool.or_comm]

theorem Follows.feed (follows : Follows t host older) (room : t.loads.entries.length < maxTracked) :
    Follows (t.feed now e) host ((now,e) :: older) := by
  cases document : e.document with
  | some id => exact follows.document document
  | none => exact follows.event room document

theorem mem_openLoad (member : entry ∈ openLoad id page) : entry ∈ page := by
  induction page with
  | nil => contradiction
  | cons first older ih =>
    obtain ⟨now,e⟩ := first
    cases former : openLoad id older with
    | nil =>
      simp only [openLoad,former] at member
      split at member
      · rw [List.mem_singleton.mp member]
        exact List.mem_cons_self
      · contradiction
    | cons begun rest =>
      simp only [openLoad,former] at member
      split at member
      · contradiction
      · rcases List.mem_cons.mp member with rfl | old
        · exact List.mem_cons_self
        · exact List.mem_cons_of_mem _ (ih (former ▸ old))

theorem mem_openIds (id : String) (page : History) : id ∈ openIds page ↔ openLoad id page ≠ [] := by
  rw [openIds,List.mem_filter,List.mem_dedup,List.mem_filterMap]
  constructor
  · rintro ⟨_,open_⟩
    simpa using open_
  · intro open_
    refine ⟨?_,by simpa using open_⟩
    obtain ⟨entry,begun,last,sent⟩ := openLoad_begins id page open_
    refine ⟨entry,mem_openLoad (List.mem_of_getLast? last),?_⟩
    unfold Event.sent at sent
    split at sent
    · next other load found =>
      split at sent
      · next same => rw [found,Option.map_some,same]
      · contradiction
    · contradiction

theorem Follows.keys (follows : Follows t host history) : t.loads.keys.Perm (openIds (currentPage history)) := by
  refine (List.perm_ext_iff_of_nodup t.loads.keys_nodup ((List.nodup_dedup _).filter _)).mpr fun id => ?_
  change id ∈ t.loads.keys ↔ id ∈ openIds (currentPage history)
  rw [mem_openIds,Ne,← loadOf_eq_none,← follows.loads id,← AList.mem_keys,← AList.lookup_isSome,Option.isSome_iff_ne_none]

/-- Fewer loads open at once than are tracked. -/
def Roomy (history : History) : Prop :=
  ∀ earlier, earlier <:+ history → (openIds (currentPage earlier)).length < maxTracked

theorem after_follows (hosts : Hosts) (requestedUrl : String) (roomy : Roomy history) :
    Follows (.after hosts requestedUrl history) ((hosts.hostOf requestedUrl).getD "") history := by
  induction history with
  | nil => exact .new hosts requestedUrl
  | cons first older ih =>
    have former := ih fun earlier part => roomy earlier (part.trans (List.suffix_cons ..))
    have room : (PageLoadTracker.after hosts requestedUrl older).loads.entries.length < maxTracked := by
      rw [← List.length_map Sigma.fst]
      exact former.keys.length_eq ▸ roomy older (List.suffix_cons ..)
    exact former.feed room

/-- The judgement of a load is that of its history. -/
theorem judge_counts (hosts : Hosts) (t : PageLoadTracker) (now : Nat) (found : loadOf id load = some l) :
    (PageLoadTracker.judge hosts t l now).isSome = counts hosts t.pageHost now id load := by
  obtain ⟨⟨started,url,kind,label⟩,begun,rfl⟩ := Option.map_eq_some_iff.mp found
  unfold PageLoadTracker.judge counts
  simp only [begun]
  generalize ((load.findSome? fun entry => entry.2.sent id).map Prod.fst).getD url = latest
  by_cases foreign : kind = .data ∧ hosts.isSameSite t.pageHost latest = false
  · obtain ⟨rfl,elsewhere⟩ := foreign
    simp [elsewhere]
  · have relevant : (decide (kind = .asset) || hosts.isSameSite t.pageHost latest) = true := by
      cases kind with
      | asset => rfl
      | data => simpa using foreign
    have judged : ¬(kind = .data ∧ (!hosts.isSameSite t.pageHost latest) = true) := by simpa using foreign
    rw [if_neg judged,relevant,Bool.true_and]
    cases decided : load.findSome? fun entry => entry.2.decision id with
    | none =>
      simp only [Option.getD_none]
      by_cases stalled : stalledAfter ≤ now - started
      · rw [if_pos stalled,decide_eq_true stalled]
        split <;> rfl
      · rw [if_neg stalled,decide_eq_false stalled]
        rfl
    | some outcome =>
      obtain ⟨entry,_,decision⟩ := List.exists_of_findSome?_eq_some decided
      cases outcome with
      | pending => exact absurd rfl (decision_ne_pending decision)
      | status code => rfl
      | failed errorText canceled blockedByUs cors =>
        simp only [Option.getD_some]
        cases canceled <;> cases blockedByUs <;> cases contains errorText "ERR_ABORTED" <;> cases cors <;> try rfl
        cases crossOriginBlocks.any (contains errorText) <;> cases transportErrors.any (contains errorText) <;> rfl

theorem Follows.countP (follows : Follows t host history) (hosts : Hosts) (now : Nat) (values : List Load)
    (order : values.Perm (t.loads.entries.map Sigma.snd)) :
    values.countP (fun load => (PageLoadTracker.judge hosts t load now).isSome) =
      (openIds (currentPage history)).countP fun id => counts hosts host now id (openLoad id (currentPage history)) := by
  rw [order.countP_eq,← follows.keys.countP_eq,AList.keys,List.countP_map,List.keys,List.countP_map]
  refine List.countP_congr fun entry member => ?_
  have found := AList.mem_lookup_iff.mpr (show (⟨entry.1,entry.2⟩ : Sigma fun _ : String => Load) ∈ t.loads.entries from member)
  rw [follows.loads] at found
  simp only [Function.comp_apply]
  rw [judge_counts hosts t now found,follows.pageHost]

end Simulation

/-- The number of markers is the one that the history gives, in whatever order the tracked
loads come. -/
theorem verdict_counts_history (hosts : Hosts) (requestedUrl : String) (history : History) (now : Nat)
    (roomy : Roomy history) (values : List Load)
    (order : values.Perm ((PageLoadTracker.after hosts requestedUrl history).loads.entries.map Sigma.snd)) :
    (PageLoadTracker.verdictAt hosts (.after hosts requestedUrl history) values now).2 =
      markers hosts requestedUrl history now := by
  have follows := after_follows hosts requestedUrl roomy
  have counted := follows.countP hosts now values order
  have document : (if (PageLoadTracker.after hosts requestedUrl history).mainDocument.isSome then
        some "main document still loading"
      else if (PageLoadTracker.after hosts requestedUrl history).lastDocument.isSome &&
          !(PageLoadTracker.after hosts requestedUrl history).loadFired then some "load event never fired"
      else none).toList.length = documentMarkers history := by
    rw [follows.mainDocument,follows.lastDocument,follows.loadFired,documentMarkers]
    cases latest : latestDocument history with
    | none => simp [documentPending,latest]
    | some id =>
      cases loading : documentPending history with
      | true => simp [Option.filter]
      | false =>
        generalize ((sinceDocument history).all fun entry => entry.2 ≠ .loadEvent) = quiet
        cases quiet <;> rfl
  simp only [PageLoadTracker.verdictAt,List.length_append,List.length_map,List.length_insertionSort,document,markers]
  rw [← counted,List.length_filterMap_eq_countP]
  congr 1
  refine List.countP_congr fun load _ => ?_
  simp

/-- A load without a decision that clears it, however young it is and wherever it is from. -/
def unfinished (id : String) (load : History) : Bool :=
  !load.isEmpty && match (load.findSome? fun entry => entry.2.decision id : Option Outcome) with
    | some (.failed errorText canceled blockedByUs cors) =>
      !canceled && !blockedByUs &&
        (cors || crossOriginBlocks.any (contains errorText) || transportErrors.any (contains errorText))
    | _ => true

def unfinishedLoads (history : History) : Nat :=
  (openIds (currentPage history)).countP fun id => unfinished id (openLoad id (currentPage history))

def exampleHosts : Hosts := ⟨fun _ => some ("https",some "example.com"),fun _ => false,some⟩

def oneScript : History := [(0,.willBeSent "1" "https://example.com/app.js" (some .script) false)]

/-- At the moment it is requested, the script is unfinished and no marker. -/
theorem young_load_unmarked : unfinishedLoads oneScript = 1 ∧
    ∀ values : List Load,
      values.Perm ((PageLoadTracker.after exampleHosts "https://example.com" oneScript).loads.entries.map Sigma.snd) →
      (PageLoadTracker.verdictAt exampleHosts (.after exampleHosts "https://example.com" oneScript) values 0).2 = 0 := by
  refine ⟨by decide,fun values order => ?_⟩
  obtain rfl := List.perm_singleton.mp order
  rfl

theorem currentPage_earlier (history : History) : currentPage history <+: history := by
  induction history with
  | nil => exact List.prefix_refl _
  | cons first older ih =>
    obtain ⟨now,e⟩ := first
    rw [currentPage]
    split
    · exact List.nil_prefix
    · exact List.cons_prefix_cons.mpr ⟨rfl,ih⟩

/-- As many loads as there were events are open at most. -/
theorem roomy_of_short (short : history.length < maxTracked) : Roomy history := by
  intro earlier part
  have ids : (openIds (currentPage earlier)).length ≤ (currentPage earlier).length :=
    ((List.filter_sublist.trans (List.dedup_sublist _)).length_le).trans (List.length_filterMap_le _ _)
  have page := (currentPage_earlier earlier).length_le
  have whole := part.length_le
  omega

def replacedPage : History :=
  [(10,.finished "D2"),(9,.willBeSent "2" "https://example.com/moved.js" (some .script) false),(8,.finished "3"),
    (7,.finished "4"),(6,.response "3" 429),(5,.willBeSent "4" "https://example.com/app.css" (some .stylesheet) false),
    (4,.willBeSent "3" "https://example.com/data" (some .xhr) false),
    (3,.willBeSent "2" "https://example.com/app.js" (some .script) false),
    (2,.willBeSent "D2" "https://example.com/home" none true),
    (1,.willBeSent "1" "https://example.com/old.js" (some .script) false),
    (0,.willBeSent "D1" "https://example.com" none true)]

/-- The script stalled, the data were refused, and the page never fired its load event. -/
theorem verdict_counts_history_stalled :
    (PageLoadTracker.verdictAt exampleHosts (.after exampleHosts "https://example.com" replacedPage)
      ((PageLoadTracker.after exampleHosts "https://example.com" replacedPage).loads.entries.map Sigma.snd)
      (3 + stalledAfter)).2 = 3 := by
  have counted := verdict_counts_history exampleHosts "https://example.com" replacedPage (3 + stalledAfter)
    (roomy_of_short (by decide)) _ (.refl _)
  exact counted.trans (by decide +kernel)

end BrowserHive.Worker.PageLoad
