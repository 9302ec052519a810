import BrowserHive.Lib.CappedTable
import BrowserHive.Worker.Observer

/-! What a page did while it loaded: its XHR and fetch requests, the loads that are still
pending, and its lifecycle, as the diagnostics of one request report them. Times are
nanoseconds; `F` stands for `f64`. -/
namespace BrowserHive.Worker.Activity

open PageLoad (shortUrl trimNet)
open Observer (ResourceType)

def maxDataRequests : Nat := 40

def maxPendingLoads : Nat := 512

def maxPendingListed : Nat := 15

def timelineEvents : List String := ["DOMContentLoaded","load","networkAlmostIdle","networkIdle"]

def u64Max : Nat := 2^64 - 1

structure Printing (F : Type) where
  secs : Nat → String
  size : F → String
  ofNat : Nat → F
  /-- The derived `Debug` of a list of texts. -/
  debug : List String → String

inductive State (F : Type) where
  | pending
  | finished (took : Nat) (bytes : F)
  | failed (took : Nat) (error : String)

def State.isPending {F : Type} : State F → Bool
  | .pending => true
  | _ => false

structure DataRequest (F : Type) where
  method : String
  url : String
  typeLabel : String
  started : Nat
  status : Option Nat
  responded : Option Nat
  received : Nat
  state : State F

structure PendingLoad where
  typeLabel : String
  url : String
  started : Nat
  deriving DecidableEq, Repr

/-- Those of a request's own are data requests. -/
def dataLabel : Option ResourceType → Option String
  | some .xhr => some "XHR"
  | some .fetch => some "Fetch"
  | _ => none

def otherLabel : Option ResourceType → String
  | some type => type.debug
  | none => "Other"

structure PageActivity (F : Type) where
  started : Nat
  /-- `requests` and `untracked`. -/
  requests : CappedTable String (DataRequest F)
  /-- `pending` and `pending_untracked`. -/
  pending : CappedTable String PendingLoad
  timeline : List (Option Nat)

variable {F : Type}

namespace PageActivity

def new (started : Nat) : PageActivity F := ⟨started,.empty,.empty,timelineEvents.map fun _ => none⟩

def offset (a : PageActivity F) (now : Nat) : Nat := now - a.started

def willBeSent (a : PageActivity F) (now : Nat) (id method url : String) (type : Option ResourceType) : PageActivity F :=
  match dataLabel type with
  | some typeLabel => { a with
      requests := a.requests.put maxDataRequests id ⟨method,url,typeLabel,a.offset now,none,none,0,.pending⟩
        fun request => { request with url := url } }
  | none => { a with
      pending := a.pending.put maxPendingLoads id ⟨otherLabel type,url,a.offset now⟩ fun load => { load with url := url } }

def response (a : PageActivity F) (now : Nat) (id : String) (status : Nat) : PageActivity F :=
  { a with requests := a.requests.revise id fun request =>
      { request with status := some status, responded := some (a.offset now) } }

def dataReceived (a : PageActivity F) (id : String) (bytes : Nat) : PageActivity F :=
  { a with requests := a.requests.revise id fun request =>
      { request with received := min (request.received + bytes) u64Max } }

def finished (a : PageActivity F) (now : Nat) (id : String) (bytes : F) : PageActivity F :=
  { a with
    pending := a.pending.drop id
    requests := a.requests.revise id fun request =>
      { request with state := .finished (a.offset now - request.started) bytes } }

def failed (a : PageActivity F) (now : Nat) (id errorText : String) (blockedByUs : Bool) : PageActivity F :=
  { a with
    pending := a.pending.drop id
    requests :=
      if blockedByUs then a.requests.drop id
      else a.requests.revise id fun request =>
        { request with
          state := .failed (a.offset now - request.started)
            (String.ofList (trimNet errorText.length errorText.toList)) } }

def lifecycle (a : PageActivity F) (now : Nat) (name : String) : PageActivity F :=
  match timelineEvents.findIdx? (· = name) with
  | some index => { a with timeline := a.timeline.set index (some (a.offset now)) }
  | none => a

end PageActivity

def describe (print : Printing F) (request : DataRequest F) (now : Nat) : String :=
  let status := request.status.elim "" fun status => toString status ++ " "
  let outcome := match request.state with
    | .pending =>
      let pending := print.secs (now - request.started)
      match request.responded with
      | some at_ => status ++ "after " ++ print.secs (at_ - request.started) ++ ", " ++
          print.size (print.ofNat request.received) ++ " received, pending " ++ pending
      | none => status ++ "pending " ++ pending
    | .finished took bytes => status ++ "in " ++ print.secs took ++ ", " ++ print.size bytes
    | .failed took error => status ++ "failed after " ++ print.secs took ++ ": " ++ error
  request.typeLabel ++ " " ++ request.method ++ " " ++ shortUrl request.url ++ " +" ++ print.secs request.started ++
    " → " ++ outcome

def PendingLoad.describe (print : Printing F) (load : PendingLoad) (now : Nat) : String :=
  load.typeLabel ++ " " ++ shortUrl load.url ++ " +" ++ print.secs load.started ++ " → pending " ++
    print.secs (now - load.started)

namespace PageActivity

/-- The line of some requests, with the number of those that found no room. -/
def dataRequestsText (print : Printing F) (untracked : Nat) (requests : List (DataRequest F)) (now : Nat) : String :=
  toString requests.length ++ " recorded, " ++ toString (requests.countP fun r => r.state.isPending) ++ " pending" ++
    (if 0 < untracked then ", " ++ toString untracked ++ " more not recorded" else "") ++ ": " ++
    print.debug (requests.map fun request => describe print request now)

def pendingLoadsText (print : Printing F) (untracked : Nat) (loads : List PendingLoad) (now : Nat) : String :=
  toString loads.length ++ " pending" ++
    (if 0 < untracked then ", " ++ toString untracked ++ " more not tracked" else "") ++ ": " ++
    print.debug ((loads.take maxPendingListed).map fun load => load.describe print now)

/-- The values of the map come in an order of its own. -/
def dataRequestsReport (print : Printing F) (a : PageActivity F) (values : List (DataRequest F)) (now : Nat) :
    Option String :=
  if values.isEmpty then none
  else some (dataRequestsText print a.requests.refused (values.insertionSort fun a b => a.started ≤ b.started) (a.offset now))

def pendingLoadsReport (print : Printing F) (a : PageActivity F) (values : List PendingLoad) (now : Nat) : Option String :=
  if values.isEmpty then none
  else some (pendingLoadsText print a.pending.refused (values.insertionSort fun a b => a.started ≤ b.started) (a.offset now))

def milestone (print : Printing F) (name : String) (at_ : Option Nat) : String :=
  match at_ with
  | some at_ => name ++ " +" ++ print.secs at_
  | none => name ++ " not reached"

def timelineReport (print : Printing F) (a : PageActivity F) : String :=
  ", ".intercalate (List.zipWith (milestone print) timelineEvents a.timeline)

end PageActivity

inductive Event (F : Type) where
  | willBeSent (id method url : String) (type : Option ResourceType)
  | response (id : String) (status : Nat)
  | dataReceived (id : String) (bytes : Nat)
  | finished (id : String) (bytes : F)
  | failed (id errorText : String) (blockedByUs : Bool)
  | lifecycle (name : String)

abbrev History (F : Type) := List (Nat × Event F)

namespace PageActivity

def feed (a : PageActivity F) (now : Nat) : Event F → PageActivity F
  | .willBeSent id method url type => a.willBeSent now id method url type
  | .response id status => a.response now id status
  | .dataReceived id bytes => a.dataReceived id bytes
  | .finished id bytes => a.finished now id bytes
  | .failed id errorText blockedByUs => a.failed now id errorText blockedByUs
  | .lifecycle name => a.lifecycle now name

def after (started : Nat) : History F → PageActivity F
  | [] => .new started
  | (now,e) :: older => (after started older).feed now e

end PageActivity

namespace Event

def dataUrl (id : String) : Event F → Option String
  | .willBeSent id' _ url type => if id' = id ∧ (dataLabel type).isSome then some url else none
  | _ => none

def otherUrl (id : String) : Event F → Option String
  | .willBeSent id' _ url type => if id' = id ∧ dataLabel type = none then some url else none
  | _ => none

def answer (id : String) : Event F → Option Nat
  | .response id' status => if id' = id then some status else none
  | _ => none

def bytes (id : String) : Event F → Nat
  | .dataReceived id' bytes => if id' = id then bytes else 0
  | _ => 0

def ending (id : String) (took : Nat) : Event F → Option (State F)
  | .finished id' bytes => if id' = id then some (.finished took bytes) else none
  | .failed id' errorText false =>
    if id' = id then some (.failed took (String.ofList (trimNet errorText.length errorText.toList))) else none
  | _ => none

def ends (id : String) : Event F → Bool
  | .finished id' _ | .failed id' .. => id' = id
  | _ => false

def blocked (id : String) : Event F → Bool
  | .failed id' _ true => id' = id
  | _ => false

def milestone (name : String) : Event F → Bool
  | .lifecycle name' => name' = name
  | _ => false

end Event

def DataRequest.first (method url typeLabel : String) (started : Nat) : DataRequest F :=
  ⟨method,url,typeLabel,started,none,none,0,.pending⟩

def DataRequest.told (started : Nat) (newer : History F) (id : String) (first : DataRequest F) : DataRequest F where
  method := first.method
  url := (newer.findSome? fun e => e.2.dataUrl id).getD first.url
  typeLabel := first.typeLabel
  started := first.started
  status := newer.findSome? fun e => e.2.answer id
  responded := newer.findSome? fun e => (e.2.answer id).map fun _ => e.1 - started
  received := min (newer.map fun e => e.2.bytes id).sum u64Max
  state := (newer.findSome? fun e => e.2.ending id (e.1 - started - first.started)).getD .pending

def Recorded (started : Nat) (history : History F) (id : String) (request : DataRequest F) : Prop :=
  ∃ newer now method url type typeLabel older, history = newer ++ (now,.willBeSent id method url type) :: older ∧
    dataLabel type = some typeLabel ∧ (PageActivity.after started older).requests.lookup id = none ∧
    (PageActivity.after started older).requests.size < maxDataRequests ∧ (∀ e ∈ newer, e.2.blocked id = false) ∧
    request = .told started newer id (.first method url typeLabel (now - started))

def Waiting (started : Nat) (history : History F) (id : String) (load : PendingLoad) : Prop :=
  ∃ newer now method url type older, history = newer ++ (now,.willBeSent id method url type) :: older ∧
    dataLabel type = none ∧ (PageActivity.after started older).pending.lookup id = none ∧
    (PageActivity.after started older).pending.size < maxPendingLoads ∧ (∀ e ∈ newer, e.2.ends id = false) ∧
    load = ⟨otherLabel type,(newer.findSome? fun e => e.2.otherUrl id).getD url,now - started⟩

def unrecorded (started : Nat) : History F → Bool
  | (_,.willBeSent id _ _ type) :: older =>
    (dataLabel type).isSome && ((PageActivity.after started older).requests.lookup id).isNone &&
      maxDataRequests ≤ (PageActivity.after started older).requests.size
  | _ => false

def untracked (started : Nat) : History F → Bool
  | (_,.willBeSent id _ _ type) :: older =>
    (dataLabel type).isNone && ((PageActivity.after started older).pending.lookup id).isNone &&
      maxPendingLoads ≤ (PageActivity.after started older).pending.size
  | _ => false

section Tables

open CappedTable (Op)

def requestOp (started now : Nat) : Event F → Option (Op String (DataRequest F))
  | .willBeSent id method url type => (dataLabel type).map fun typeLabel =>
      .put id (.first method url typeLabel (now - started)) fun request => { request with url := url }
  | .response id status => some (.revise id fun request =>
      { request with status := some status, responded := some (now - started) })
  | .dataReceived id bytes => some (.revise id fun request =>
      { request with received := min (request.received + bytes) u64Max })
  | .finished id bytes => some (.revise id fun request =>
      { request with state := .finished (now - started - request.started) bytes })
  | .failed id errorText blockedByUs =>
    if blockedByUs then some (.drop id)
    else some (.revise id fun request =>
      { request with
        state := .failed (now - started - request.started) (String.ofList (trimNet errorText.length errorText.toList)) })
  | .lifecycle _ => none

def pendingOp (started now : Nat) : Event F → Option (Op String PendingLoad)
  | .willBeSent id _ url type =>
    if dataLabel type = none then
      some (.put id ⟨otherLabel type,url,now - started⟩ fun load => { load with url := url })
    else none
  | .finished id _ | .failed id .. => some (.drop id)
  | _ => none

def requestOps (started : Nat) (history : History F) : List (Op String (DataRequest F)) :=
  history.filterMap fun e => requestOp started e.1 e.2

def pendingOps (started : Nat) (history : History F) : List (Op String PendingLoad) :=
  history.filterMap fun e => pendingOp started e.1 e.2

end Tables

variable {started now : Nat} {history newer older : History F} {id : String} {e : Event F}

@[simp] theorem started_after (started : Nat) (history : History F) :
    (PageActivity.after started history).started = started := by
  induction history with
  | nil => rfl
  | cons entry older ih =>
    obtain ⟨now,e⟩ := entry
    cases e with
    | willBeSent id method url type =>
      simp only [PageActivity.after,PageActivity.feed,PageActivity.willBeSent]
      split <;> exact ih
    | lifecycle name =>
      simp only [PageActivity.after,PageActivity.feed,PageActivity.lifecycle]
      split <;> exact ih
    | response | dataReceived | finished | failed => exact ih

theorem requests_feed (a : PageActivity F) (now : Nat) (e : Event F) : (a.feed now e).requests =
    (requestOp a.started now e).elim a.requests (a.requests.step maxDataRequests) := by
  cases e with
  | willBeSent id method url type =>
    simp only [PageActivity.feed,PageActivity.willBeSent,requestOp]
    split
    · next typeLabel own => simp [own,CappedTable.step,DataRequest.first,PageActivity.offset]
    · next other => simp [other]
  | failed id errorText blockedByUs => cases blockedByUs <;> rfl
  | lifecycle name =>
    simp only [PageActivity.feed,PageActivity.lifecycle,requestOp,Option.elim]
    split <;> rfl
  | response | dataReceived | finished => rfl

theorem pending_feed (a : PageActivity F) (now : Nat) (e : Event F) : (a.feed now e).pending =
    (pendingOp a.started now e).elim a.pending (a.pending.step maxPendingLoads) := by
  cases e with
  | willBeSent id method url type =>
    simp only [PageActivity.feed,PageActivity.willBeSent,pendingOp]
    split
    · next typeLabel own => simp [own]
    · next other => simp [other,CappedTable.step,PageActivity.offset]
  | lifecycle name =>
    simp only [PageActivity.feed,PageActivity.lifecycle,pendingOp,Option.elim]
    split <;> rfl
  | response | dataReceived | finished | failed => rfl

theorem requests_after (started : Nat) (history : History F) :
    (PageActivity.after started history).requests = .after maxDataRequests (requestOps started history) := by
  induction history with
  | nil => rfl
  | cons entry older ih =>
    rw [PageActivity.after,requests_feed,started_after,ih,requestOps,requestOps,List.filterMap_cons]
    cases requestOp started entry.1 entry.2 <;> rfl

theorem pending_after (started : Nat) (history : History F) :
    (PageActivity.after started history).pending = .after maxPendingLoads (pendingOps started history) := by
  induction history with
  | nil => rfl
  | cons entry older ih =>
    rw [PageActivity.after,pending_feed,started_after,ih,pendingOps,pendingOps,List.filterMap_cons]
    cases pendingOp started entry.1 entry.2 <;> rfl

def DataRequest.hear (r : DataRequest F) (started now : Nat) (id : String) (e : Event F) : DataRequest F :=
  { r with
    url := (e.dataUrl id).getD r.url
    status := (e.answer id).or r.status
    responded := ((e.answer id).map fun _ => now - started).or r.responded
    received := min (r.received + e.bytes id) u64Max
    state := (e.ending id (now - started - r.started)).getD r.state }

theorem told_cons (started now : Nat) (e : Event F) (newer : History F) (id : String) (first : DataRequest F) :
    DataRequest.told started ((now,e) :: newer) id first =
      (DataRequest.told started newer id first).hear started now id e := by
  simp only [DataRequest.told,DataRequest.hear,List.findSome?_cons,List.map_cons,List.sum_cons,DataRequest.mk.injEq,
    true_and]
  refine ⟨?_,?_,?_,by omega,?_⟩
  · cases e.dataUrl id <;> rfl
  · cases e.answer id <;> rfl
  · cases e.answer id <;> rfl
  · cases e.ending id (now - started - first.started) <;> rfl

theorem requestOp_hear (started now : Nat) (e : Event F) (id : String) (r : DataRequest F) (bounded : r.received ≤ u64Max) :
    ((requestOp started now e).elim r fun op => op.apply id r) = r.hear started now id e := by
  have still : min r.received u64Max = r.received := Nat.min_eq_left bounded
  cases e with
  | willBeSent id' method url type =>
    cases own : dataLabel type with
    | none => simp [requestOp,DataRequest.hear,Event.dataUrl,Event.answer,Event.bytes,Event.ending,own,still]
    | some typeLabel =>
      by_cases same : id' = id
      · simp [requestOp,CappedTable.Op.apply,DataRequest.hear,Event.dataUrl,Event.answer,Event.bytes,Event.ending,own,same,still]
      · simp [requestOp,CappedTable.Op.apply,DataRequest.hear,Event.dataUrl,Event.answer,Event.bytes,Event.ending,own,same,still]
  | response id' status =>
    by_cases same : id' = id <;>
      simp [requestOp,CappedTable.Op.apply,DataRequest.hear,Event.dataUrl,Event.answer,Event.bytes,Event.ending,same,still]
  | dataReceived id' bytes =>
    by_cases same : id' = id <;>
      simp [requestOp,CappedTable.Op.apply,DataRequest.hear,Event.dataUrl,Event.answer,Event.bytes,Event.ending,same,still]
  | finished id' bytes =>
    by_cases same : id' = id <;>
      simp [requestOp,CappedTable.Op.apply,DataRequest.hear,Event.dataUrl,Event.answer,Event.bytes,Event.ending,same,still]
  | failed id' errorText blockedByUs =>
    cases blockedByUs with
    | true =>
      simp [requestOp,CappedTable.Op.apply,DataRequest.hear,Event.dataUrl,Event.answer,Event.bytes,Event.ending,still]
    | false =>
      by_cases same : id' = id <;>
        simp [requestOp,CappedTable.Op.apply,DataRequest.hear,Event.dataUrl,Event.answer,Event.bytes,Event.ending,same,still]
  | lifecycle name => simp [requestOp,DataRequest.hear,Event.dataUrl,Event.answer,Event.bytes,Event.ending,still]

/-- The later operations make of a request what the later events tell of it. -/
theorem requests_told (started : Nat) (newer : History F) (id method url typeLabel : String) (began : Nat) :
    CappedTable.told id (requestOps started newer) (.first method url typeLabel began) =
      DataRequest.told started newer id (.first method url typeLabel began) := by
  induction newer with
  | nil => simp [requestOps,CappedTable.told,DataRequest.told,DataRequest.first]
  | cons entry newer ih =>
    have bounded : (DataRequest.told started newer id (.first method url typeLabel began)).received ≤ u64Max :=
      Nat.min_le_right ..
    rw [told_cons,← requestOp_hear _ _ _ _ _ bounded,← ih]
    cases op : requestOp started entry.1 entry.2 <;> simp [requestOps,CappedTable.told,op]

theorem pending_told (started : Nat) (newer : History F) (id label url : String) (began : Nat) :
    CappedTable.told id (pendingOps started newer) ⟨label,url,began⟩ =
      ⟨label,(newer.findSome? fun e => e.2.otherUrl id).getD url,began⟩ := by
  induction newer with
  | nil => simp [pendingOps,CappedTable.told]
  | cons entry newer ih =>
    obtain ⟨now,e⟩ := entry
    have later : CappedTable.told id (pendingOps started ((now,e) :: newer)) ⟨label,url,began⟩ =
        (pendingOp started now e).elim (CappedTable.told id (pendingOps started newer) ⟨label,url,began⟩) fun op =>
          op.apply id (CappedTable.told id (pendingOps started newer) ⟨label,url,began⟩) := by
      cases op : pendingOp started now e <;> simp [pendingOps,CappedTable.told,op]
    rw [later,ih]
    cases e with
    | willBeSent id' method' url' type =>
      cases own : dataLabel type with
      | some label' => simp [pendingOp,own,Event.otherUrl]
      | none =>
        by_cases same : id' = id
        · simp [pendingOp,own,Event.otherUrl,CappedTable.Op.apply,same]
        · simp [pendingOp,own,Event.otherUrl,CappedTable.Op.apply,same]
    | response | dataReceived | finished | failed | lifecycle => simp [pendingOp,Event.otherUrl,CappedTable.Op.apply]

theorem requestOp_put : requestOp started now e = some (.put id first again) ↔
    ∃ method url type typeLabel, e = .willBeSent id method url type ∧ dataLabel type = some typeLabel ∧
      first = .first method url typeLabel (now - started) ∧ again = fun request => { request with url := url } := by
  cases e with
  | willBeSent id' method url type =>
    cases own : dataLabel type with
    | none =>
      simp only [requestOp,own,Option.map_none]
      constructor
      · simp
      · rintro ⟨_,_,type',typeLabel,same,own',_⟩
        cases same
        simp [own] at own'
    | some typeLabel =>
      simp only [requestOp,own,Option.map_some,Option.some.injEq,CappedTable.Op.put.injEq]
      constructor
      · rintro ⟨rfl,rfl,rfl⟩
        exact ⟨method,url,type,typeLabel,rfl,own,rfl,rfl⟩
      · rintro ⟨_,_,_,typeLabel',same,own',rfl,rfl⟩
        cases same
        obtain rfl : typeLabel = typeLabel' := by simpa [own] using own'
        exact ⟨rfl,rfl,rfl⟩
  | failed id' errorText blockedByUs => cases blockedByUs <;> simp [requestOp]
  | response | dataReceived | finished | lifecycle => simp [requestOp]

theorem requestOp_drop : requestOp started now e = some (.drop id) ↔ e.blocked id = true := by
  cases e with
  | willBeSent id' method url type => cases own : dataLabel type <;> simp [requestOp,Event.blocked,own]
  | failed id' errorText blockedByUs => cases blockedByUs <;> simp [requestOp,Event.blocked]
  | response | dataReceived | finished | lifecycle => simp [requestOp,Event.blocked]

theorem pendingOp_put : pendingOp started now e = some (.put id first again) ↔
    ∃ method url type, e = .willBeSent id method url type ∧ dataLabel type = none ∧
      first = ⟨otherLabel type,url,now - started⟩ ∧ again = fun load => { load with url := url } := by
  cases e with
  | willBeSent id' method url type =>
    by_cases other : dataLabel type = none
    · simp only [pendingOp,other,if_true,Option.some.injEq,CappedTable.Op.put.injEq]
      constructor
      · rintro ⟨rfl,rfl,rfl⟩
        exact ⟨method,url,type,rfl,other,rfl,rfl⟩
      · rintro ⟨_,_,_,same,_,rfl,rfl⟩
        cases same
        exact ⟨rfl,rfl,rfl⟩
    · simp only [pendingOp,other,if_false]
      constructor
      · simp
      · rintro ⟨_,_,_,same,other',_⟩
        cases same
        exact absurd other' other
  | response | dataReceived | finished | failed | lifecycle => simp [pendingOp]

theorem pendingOp_drop : pendingOp started now e = some (.drop id) ↔ e.ends id = true := by
  cases e with
  | willBeSent id' method url type => by_cases other : dataLabel type = none <;> simp [pendingOp,Event.ends,other]
  | response | dataReceived | finished | failed | lifecycle => simp [pendingOp,Event.ends]

/-- A split of what is read off a list is one of the list. -/
theorem filterMap_split {α β : Type} {f : α → Option β} {list : List α} {newer older : List β} {b : β} :
    list.filterMap f = newer ++ b :: older ↔
      ∃ newer' a older', list = newer' ++ a :: older' ∧ newer'.filterMap f = newer ∧ f a = some b ∧
        older'.filterMap f = older := by
  constructor
  · intro split_
    obtain ⟨front,back,rfl,rfl,rest⟩ := List.filterMap_eq_append_iff.mp split_
    obtain ⟨silent,a,older',rfl,none_,found,rfl⟩ := List.filterMap_eq_cons_iff.mp rest
    refine ⟨front ++ silent,a,older',by simp,?_,found,rfl⟩
    rw [List.filterMap_append,List.filterMap_eq_nil_iff.mpr none_,List.append_nil]
  · rintro ⟨newer',a,older',rfl,rfl,found,rfl⟩
    rw [List.filterMap_append,List.filterMap_cons_some found]

theorem undropped_requests (started : Nat) (newer : History F) (id : String) :
    .drop id ∉ requestOps started newer ↔ ∀ e ∈ newer, e.2.blocked id = false := by
  simp only [requestOps,List.mem_filterMap,requestOp_drop,not_exists,not_and,Bool.not_eq_true]

theorem undropped_pending (started : Nat) (newer : History F) (id : String) :
    .drop id ∉ pendingOps started newer ↔ ∀ e ∈ newer, e.2.ends id = false := by
  simp only [pendingOps,List.mem_filterMap,pendingOp_drop,not_exists,not_and,Bool.not_eq_true]

theorem recorded_iff (started : Nat) (history : History F) (id : String) (request : DataRequest F) :
    (PageActivity.after started history).requests.lookup id = some request ↔ Recorded started history id request := by
  rw [requests_after,CappedTable.lookup_after]
  constructor
  · rintro ⟨_,first,again,_,split_,unknown,room,undropped,rfl⟩
    obtain ⟨newer,⟨now,e⟩,older,rfl,rfl,put,rfl⟩ := filterMap_split.mp split_
    obtain ⟨method,url,type,typeLabel,rfl,own,rfl,rfl⟩ := requestOp_put.mp put
    refine ⟨newer,now,method,url,type,typeLabel,older,rfl,own,?_,?_,(undropped_requests ..).mp undropped,?_⟩
    · rw [requests_after]
      exact unknown
    · rw [requests_after]
      exact room
    · exact requests_told ..
  · rintro ⟨newer,now,method,url,type,typeLabel,older,rfl,own,unknown,room,unblocked,rfl⟩
    rw [requests_after] at unknown room
    have put : requestOp started now (.willBeSent id method url type : Event F) = some (.put id _ _) :=
      requestOp_put.mpr ⟨method,url,type,typeLabel,rfl,own,rfl,rfl⟩
    exact ⟨_,_,_,_,filterMap_split.mpr ⟨newer,_,older,rfl,rfl,put,rfl⟩,unknown,room,
      (undropped_requests ..).mpr unblocked,(requests_told ..).symm⟩

theorem waiting_iff (started : Nat) (history : History F) (id : String) (load : PendingLoad) :
    (PageActivity.after started history).pending.lookup id = some load ↔ Waiting started history id load := by
  rw [pending_after,CappedTable.lookup_after]
  constructor
  · rintro ⟨_,first,again,_,split_,unknown,room,undropped,rfl⟩
    obtain ⟨newer,⟨now,e⟩,older,rfl,rfl,put,rfl⟩ := filterMap_split.mp split_
    obtain ⟨method,url,type,rfl,other,rfl,rfl⟩ := pendingOp_put.mp put
    refine ⟨newer,now,method,url,type,older,rfl,other,?_,?_,(undropped_pending ..).mp undropped,?_⟩
    · rw [pending_after]
      exact unknown
    · rw [pending_after]
      exact room
    · exact pending_told ..
  · rintro ⟨newer,now,method,url,type,older,rfl,other,unknown,room,unended,rfl⟩
    rw [pending_after] at unknown room
    have put : pendingOp started now (.willBeSent id method url type : Event F) = some (.put id _ _) :=
      pendingOp_put.mpr ⟨method,url,type,rfl,other,rfl,rfl⟩
    exact ⟨_,_,_,_,filterMap_split.mpr ⟨newer,_,older,rfl,rfl,put,rfl⟩,unknown,room,
      (undropped_pending ..).mpr unended,(pending_told ..).symm⟩

theorem refuses_requests (op : requestOp started now e = some o) (older : History F) :
    CappedTable.refuses maxDataRequests (o :: requestOps started older) = unrecorded started ((now,e) :: older) := by
  cases e with
  | willBeSent id method url type =>
    cases own : dataLabel type with
    | none => simp [requestOp,own] at op
    | some typeLabel =>
      obtain rfl : CappedTable.Op.put .. = o := by simpa [requestOp,own] using op
      simp [CappedTable.refuses,unrecorded,own,requests_after]
  | failed id errorText blockedByUs =>
    cases blockedByUs with
    | true =>
      obtain rfl := Option.some.inj op
      rfl
    | false =>
      obtain rfl := Option.some.inj op
      rfl
  | response | dataReceived | finished =>
    obtain rfl := Option.some.inj op
    rfl
  | lifecycle => simp [requestOp] at op

theorem unrecorded_of_none (none_ : requestOp started now e = none) (older : History F) :
    unrecorded started ((now,e) :: older) = false := by
  cases e with
  | willBeSent id method url type =>
    have other : dataLabel type = none := by simpa [requestOp] using none_
    simp [unrecorded,other]
  | response | dataReceived | finished | failed | lifecycle => rfl

theorem refuses_pending (op : pendingOp started now e = some o) (older : History F) :
    CappedTable.refuses maxPendingLoads (o :: pendingOps started older) = untracked started ((now,e) :: older) := by
  cases e with
  | willBeSent id method url type =>
    by_cases other : dataLabel type = none
    · obtain rfl : CappedTable.Op.put .. = o := by simpa [pendingOp,other] using op
      simp [CappedTable.refuses,untracked,other,pending_after]
    · simp [pendingOp,other] at op
  | finished | failed =>
    obtain rfl := Option.some.inj op
    rfl
  | response | dataReceived | lifecycle => simp [pendingOp] at op

theorem untracked_of_none (none_ : pendingOp started now e = none) (older : History F) :
    untracked started ((now,e) :: older) = false := by
  cases e with
  | willBeSent id method url type =>
    cases own : dataLabel type with
    | none => simp [pendingOp,own] at none_
    | some typeLabel => simp [untracked,own]
  | response | dataReceived | finished | failed | lifecycle => rfl

theorem refused_requests (started : Nat) (history : History F) :
    (PageActivity.after started history).requests.refused = history.tails.countP (unrecorded started) := by
  induction history with
  | nil => rfl
  | cons entry older ih =>
    obtain ⟨now,e⟩ := entry
    rw [PageActivity.after,requests_feed,started_after,List.tails_cons,List.countP_cons,← ih,requests_after]
    cases op : requestOp started now e with
    | none => simp [unrecorded_of_none op]
    | some o => rw [Option.elim,CappedTable.refused_step,refuses_requests op]

theorem refused_pending (started : Nat) (history : History F) :
    (PageActivity.after started history).pending.refused = history.tails.countP (untracked started) := by
  induction history with
  | nil => rfl
  | cons entry older ih =>
    obtain ⟨now,e⟩ := entry
    rw [PageActivity.after,pending_feed,started_after,List.tails_cons,List.countP_cons,← ih,pending_after]
    cases op : pendingOp started now e with
    | none => simp [untracked_of_none op]
    | some o => rw [Option.elim,CappedTable.refused_step,refuses_pending op]

/-- A data request that is not recorded was blocked, or found no room each time it was sent. -/
theorem unrecorded_of_lost (lost : ∀ request, ¬Recorded started history id request)
    (split_ : history = newer ++ (now,.willBeSent id method url type) :: older) (own : (dataLabel type).isSome)
    (unblocked : ∀ e ∈ newer, e.2.blocked id = false) :
    unrecorded started ((now,.willBeSent id method url type) :: older) = true := by
  obtain ⟨typeLabel,own⟩ := Option.isSome_iff_exists.mp own
  have put : requestOp started now (.willBeSent id method url type : Event F) = some (.put id _ _) :=
    requestOp_put.mpr ⟨method,url,type,typeLabel,rfl,own,rfl,rfl⟩
  have unknown : (PageActivity.after started history).requests.lookup id = none :=
    Option.eq_none_iff_forall_not_mem.mpr fun request known => lost request ((recorded_iff ..).mp known)
  subst split_
  rw [requests_after,requestOps,filterMap_split.mpr ⟨newer,_,older,rfl,rfl,put,rfl⟩] at unknown
  rw [← refuses_requests put]
  exact CappedTable.refuses_of_unknown unknown ((undropped_requests ..).mpr unblocked)

theorem untracked_of_lost (lost : ∀ load, ¬Waiting started history id load)
    (split_ : history = newer ++ (now,.willBeSent id method url type) :: older) (other : dataLabel type = none)
    (unended : ∀ e ∈ newer, e.2.ends id = false) :
    untracked started ((now,.willBeSent id method url type) :: older) = true := by
  have put : pendingOp started now (.willBeSent id method url type : Event F) = some (.put id _ _) :=
    pendingOp_put.mpr ⟨method,url,type,rfl,other,rfl,rfl⟩
  have unknown : (PageActivity.after started history).pending.lookup id = none :=
    Option.eq_none_iff_forall_not_mem.mpr fun load known => lost load ((waiting_iff ..).mp known)
  subst split_
  rw [pending_after,pendingOps,filterMap_split.mpr ⟨newer,_,older,rfl,rfl,put,rfl⟩] at unknown
  rw [← refuses_pending put]
  exact CappedTable.refuses_of_unknown unknown ((undropped_pending ..).mpr unended)

def Event.dataId : Event F → Option String
  | .willBeSent id _ _ type => (dataLabel type).map fun _ => id
  | _ => none

theorem putKeys_requests (started : Nat) (history : History F) :
    (requestOps started history).filterMap CappedTable.Op.putKey = history.filterMap fun e => e.2.dataId := by
  rw [requestOps,List.filterMap_filterMap]
  refine List.filterMap_congr fun (now,e) _ => ?_
  cases e with
  | willBeSent id method url type => cases own : dataLabel type <;> simp [requestOp,Event.dataId,own,CappedTable.Op.putKey]
  | failed id errorText blockedByUs => cases blockedByUs <;> rfl
  | response | dataReceived | finished | lifecycle => rfl

theorem unrecorded_of_few (few : (history.filterMap fun e => e.2.dataId).dedup.length ≤ maxDataRequests)
    (later : older <:+ history) : unrecorded started older = false := by
  cases older with
  | nil => rfl
  | cons entry older =>
    obtain ⟨now,e⟩ := entry
    cases op : requestOp started now e with
    | none => exact unrecorded_of_none op older
    | some o =>
      have ops : o :: requestOps started older <:+ requestOps started history := by
        simpa [requestOps,List.filterMap_cons,op] using later.filterMap fun e => requestOp started e.1 e.2
      rw [← refuses_requests op]
      exact CappedTable.refuses_of_roomy (by rwa [putKeys_requests]) ops

theorem set_map_of_find {α β : Type} [DecidableEq α] {list : List α} {name : α} {index : Nat} (nodup : list.Nodup)
    (found : list.findIdx? (· = name) = some index) (f : α → β) (value : β) :
    (list.map f).set index value = list.map fun other => if other = name then value else f other := by
  obtain ⟨bound,same,_⟩ := List.findIdx?_eq_some_iff_getElem.mp found
  have same : list[index] = name := by simpa using same
  refine List.ext_getElem (by simp) fun i _ inside => ?_
  have inside : i < list.length := by simpa using inside
  rw [List.getElem_set,List.getElem_map,List.getElem_map]
  by_cases at_ : index = i
  · subst at_
    simp [same]
  · have other : list[i] ≠ name := fun again =>
      at_ ((List.Nodup.getElem_inj_iff nodup).mp (same.trans again.symm))
    simp [at_,other]

theorem timeline_after (started : Nat) (history : History F) :
    (PageActivity.after started history).timeline = timelineEvents.map fun name =>
      history.findSome? fun e => if e.2.milestone name then some (e.1 - started) else none := by
  induction history with
  | nil => rfl
  | cons entry older ih =>
    obtain ⟨now,e⟩ := entry
    cases e with
    | willBeSent id method url type =>
      have same : ((PageActivity.after started older).willBeSent now id method url type).timeline =
          (PageActivity.after started older).timeline := by
        unfold PageActivity.willBeSent
        split <;> rfl
      rw [PageActivity.after,PageActivity.feed,same,ih]
      rfl
    | response | dataReceived | finished | failed => exact ih
    | lifecycle name =>
      simp only [PageActivity.after,PageActivity.feed,PageActivity.lifecycle]
      split
      · next index found =>
        rw [ih,set_map_of_find (by decide) found,PageActivity.offset,started_after]
        refine List.map_congr_left fun other _ => ?_
        by_cases own : other = name
        · simp [Event.milestone,own]
        · simp [Event.milestone,own,Ne.symm own]
      · next unlisted =>
        rw [ih]
        refine List.map_congr_left fun other listed => ?_
        have ne : name ≠ other := by
          rintro rfl
          simpa using List.findIdx?_eq_none_iff.mp unlisted name listed
        simp [Event.milestone,ne]

/-- All that holds, each once and in the order they began. -/
structure Lists {α : Type} (cap : Nat) (holds : String → α → Prop) (began : α → Nat) (listed : List (String × α)) : Prop where
  unique : (listed.map Prod.fst).Nodup
  few : listed.length ≤ cap
  exact : ∀ id value, (id,value) ∈ listed ↔ holds id value
  ordered : (listed.map fun entry => began entry.2).Pairwise (· ≤ ·)

theorem exists_lists {α : Type} {t : CappedTable String α} {cap : Nat} {holds : String → α → Prop} {values : List α}
    (began : α → Nat) (bounded : t.size ≤ cap) (holds_iff : ∀ id value, t.lookup id = some value ↔ holds id value)
    (order : values.Perm (t.entries.entries.map Sigma.snd)) :
    ∃ listed, Lists cap holds began listed ∧
      listed.map Prod.snd = values.insertionSort (fun a b => began a ≤ began b) := by
  have sorted := (List.perm_insertionSort (fun a b => began a ≤ began b) values).trans order
  obtain ⟨listed,unique,exact_,values_,length⟩ := t.exists_listed sorted
  refine ⟨listed,⟨unique,by omega,fun id value => (exact_ id value).trans (holds_iff id value),?_⟩,values_⟩
  have total : Std.Total fun a b : α => began a ≤ began b := ⟨fun a b => Nat.le_total (began a) (began b)⟩
  have ordered : IsTrans α fun a b => began a ≤ began b := ⟨fun _ _ _ => Nat.le_trans⟩
  have pairwise := List.pairwise_insertionSort (fun a b => began a ≤ began b) values
  rw [← values_,List.pairwise_map] at pairwise
  rw [List.pairwise_map]
  exact pairwise

theorem dataRequests_told (print : Printing F) (started : Nat) (history : History F) (now : Nat)
    (order : values.Perm ((PageActivity.after started history).requests.entries.entries.map Sigma.snd)) :
    ∃ listed, Lists maxDataRequests (Recorded started history) DataRequest.started listed ∧
      (PageActivity.after started history).dataRequestsReport print values now =
        if listed.isEmpty then none
        else some (PageActivity.dataRequestsText print (history.tails.countP (unrecorded started)) (listed.map Prod.snd)
          (now - started)) := by
  have bounded : (PageActivity.after started history).requests.size ≤ maxDataRequests := by
    rw [requests_after]
    exact CappedTable.size_after_le ..
  obtain ⟨listed,lists,sorted⟩ := exists_lists DataRequest.started bounded (recorded_iff started history) order
  refine ⟨listed,lists,?_⟩
  have length := congrArg List.length sorted
  rw [List.length_map,List.length_insertionSort] at length
  have empty : values.isEmpty = listed.isEmpty := by
    rw [Bool.eq_iff_iff,List.isEmpty_iff_length_eq_zero,List.isEmpty_iff_length_eq_zero,length]
  rw [PageActivity.dataRequestsReport,← sorted,empty,refused_requests,PageActivity.offset,started_after]

theorem pendingLoads_told (print : Printing F) (started : Nat) (history : History F) (now : Nat)
    (order : values.Perm ((PageActivity.after started history).pending.entries.entries.map Sigma.snd)) :
    ∃ listed, Lists maxPendingLoads (Waiting started history) PendingLoad.started listed ∧
      (PageActivity.after started history).pendingLoadsReport print values now =
        if listed.isEmpty then none
        else some (PageActivity.pendingLoadsText print (history.tails.countP (untracked started)) (listed.map Prod.snd)
          (now - started)) := by
  have bounded : (PageActivity.after started history).pending.size ≤ maxPendingLoads := by
    rw [pending_after]
    exact CappedTable.size_after_le ..
  obtain ⟨listed,lists,sorted⟩ := exists_lists PendingLoad.started bounded (waiting_iff started history) order
  refine ⟨listed,lists,?_⟩
  have length := congrArg List.length sorted
  rw [List.length_map,List.length_insertionSort] at length
  have empty : values.isEmpty = listed.isEmpty := by
    rw [Bool.eq_iff_iff,List.isEmpty_iff_length_eq_zero,List.isEmpty_iff_length_eq_zero,length]
  rw [PageActivity.pendingLoadsReport,← sorted,empty,refused_pending,PageActivity.offset,started_after]

/-- For every history of a tab's events and every order of the maps: the reports list the
requests and loads that the history tells, each with the latest that it tells of them and in the
order they were sent; one that is missing was dropped since, or found no room, and is then
counted; and up to forty ids find room. -/
theorem activity_told_by_events (print : Printing F) (started : Nat) (history : History F) (now : Nat)
    (requestOrder : requests.Perm ((PageActivity.after started history).requests.entries.entries.map Sigma.snd))
    (loadOrder : loads.Perm ((PageActivity.after started history).pending.entries.entries.map Sigma.snd)) :
    (∃ listed, Lists maxDataRequests (Recorded started history) DataRequest.started listed ∧
      (PageActivity.after started history).dataRequestsReport print requests now =
        if listed.isEmpty then none
        else some (PageActivity.dataRequestsText print (history.tails.countP (unrecorded started)) (listed.map Prod.snd)
          (now - started))) ∧
    (∃ listed, Lists maxPendingLoads (Waiting started history) PendingLoad.started listed ∧
      (PageActivity.after started history).pendingLoadsReport print loads now =
        if listed.isEmpty then none
        else some (PageActivity.pendingLoadsText print (history.tails.countP (untracked started)) (listed.map Prod.snd)
          (now - started))) ∧
    (PageActivity.after started history).timelineReport print = ", ".intercalate (timelineEvents.map fun name =>
      PageActivity.milestone print name
        (history.findSome? fun e => if e.2.milestone name then some (e.1 - started) else none)) ∧
    (∀ newer now id method url type older, history = newer ++ (now,.willBeSent id method url type) :: older →
      ((dataLabel type).isSome → (∀ e ∈ newer, e.2.blocked id = false) →
        (∀ request, ¬Recorded started history id request) →
        unrecorded started ((now,.willBeSent id method url type) :: older) = true) ∧
      (dataLabel type = none → (∀ e ∈ newer, e.2.ends id = false) → (∀ load, ¬Waiting started history id load) →
        untracked started ((now,.willBeSent id method url type) :: older) = true)) ∧
    ((history.filterMap fun e => e.2.dataId).dedup.length ≤ maxDataRequests →
      ∀ older, older <:+ history → unrecorded started older = false) := by
  refine ⟨dataRequests_told print started history now requestOrder,pendingLoads_told print started history now loadOrder,
    ?_,?_,fun few older later => unrecorded_of_few few later⟩
  · rw [PageActivity.timelineReport,timeline_after,List.zipWith_map_right,List.zipWith_self]
  · intro newer now id method url type older split_
    exact ⟨fun own unblocked lost => unrecorded_of_lost lost split_ own unblocked,
      fun other unended lost => untracked_of_lost lost split_ other unended⟩

def plain : Printing Nat := ⟨toString,toString,fun n => n,fun lines => "; ".intercalate lines⟩

def redirected : History Nat :=
  [(14,.dataReceived "1" 1000),(13,.response "1" 200),(12,.lifecycle "load"),
    (10,.willBeSent "3" "GET" "https://shop.test/a.png" (some (.other "Image"))),
    (9,.failed "2" "net::ERR_BLOCKED_BY_CLIENT" true),(8,.willBeSent "2" "GET" "https://ads.test/beacon" (some .fetch)),
    (7,.willBeSent "1" "GET" "https://shop.test/new" (some .xhr)),(5,.willBeSent "1" "GET" "https://shop.test/old" (some .xhr))]

/-- Only the first is reported, under the URL it was redirected to. -/
theorem activity_told_by_events_redirected :
    (PageActivity.after 0 redirected).dataRequestsReport plain
      ((PageActivity.after 0 redirected).requests.entries.entries.map Sigma.snd) 20 =
        some (PageActivity.dataRequestsText plain 0
          [⟨"GET","https://shop.test/new","XHR",5,some 200,some 13,1000,.pending⟩] 20) := by
  obtain ⟨⟨listed,lists,report⟩,_,_,_,few⟩ := activity_told_by_events plain 0 redirected 20 (.refl _) (.refl _)
  have only : listed = [("1",⟨"GET","https://shop.test/new","XHR",5,some 200,some 13,1000,.pending⟩)] := by
    refine List.perm_singleton.mp ((List.perm_ext_iff_of_nodup lists.unique.of_map (List.nodup_singleton _)).mpr ?_)
    rintro ⟨id,request⟩
    rw [lists.exact,← recorded_iff,List.mem_singleton,Prod.mk.injEq]
    by_cases first : id = "1"
    · subst first
      exact ⟨fun known => ⟨rfl,(Option.some.inj known).symm⟩,fun same => congrArg some same.2.symm⟩
    · refine ⟨fun known => ?_,fun same => absurd same.1 first⟩
      have listed_ : id ∈ ["1"] := CappedTable.lookup_isSome.mp (Option.isSome_of_eq_some known)
      exact absurd (List.mem_singleton.mp listed_) first
  have all : redirected.tails.countP (unrecorded 0) = 0 := by
    refine List.countP_eq_zero.mpr fun older later => ?_
    simp [few (by decide) older ((List.mem_tails ..).mp later)]
  rw [report,only,all]
  rfl

end BrowserHive.Worker.Activity
