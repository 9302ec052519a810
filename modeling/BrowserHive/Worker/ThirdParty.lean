import Mathlib.Data.Finset.Card
import BrowserHive.Lib.CounterVec
import BrowserHive.Worker.PageLoad

/-! Which third-party hosts the scraped pages load: the loads of one request, counted when
their outcome is known, and the counters with a cap on their label combinations. -/
namespace BrowserHive.Worker.ThirdParty

open PageLoad (Hosts)

def overflow : String := "other"
def unknownSite : String := "unknown"
def maxPendingLoads : Nat := 4096

@[ext] structure Labels where
  scope : String
  pageSite : String
  host : String
  deriving DecidableEq, Repr

def Labels.pair (l : Labels) : String × String := (l.pageSite,l.host)

structure CappedCounter where
  counter : CounterVec Labels
  admitted : Finset (String × String)
  cap : Nat
  keepSecondOnOverflow : Bool

namespace CappedCounter

def register (cap : Nat) (keepSecondOnOverflow : Bool) : CappedCounter := ⟨∅,∅,cap,keepSecondOnOverflow⟩

def admits (c : CappedCounter) (key : String × String) : Bool :=
  key ∈ c.admitted || c.admitted.card < c.cap

def labels (c : CappedCounter) (l : Labels) : Labels :=
  if c.admits l.pair then l
  else { l with pageSite := overflow, host := if c.keepSecondOnOverflow then l.host else overflow }

/-- Nothing under the lock can panic, so it is never poisoned. -/
def inc (c : CappedCounter) (l : Labels) : CappedCounter :=
  { c with
    counter := c.counter.inc (c.labels l)
    admitted := if c.admits l.pair then insert l.pair c.admitted else c.admitted }

/-- The labels a pair past the cap is folded into. -/
def overflowPair (c : CappedCounter) (host : String) : String × String :=
  (overflow,if c.keepSecondOnOverflow then host else overflow)

def kept (c : CappedCounter) : Finset (String × String) :=
  (c.counter.keys.map Labels.pair).toFinset.filter (fun pair => pair ≠ c.overflowPair pair.2)

variable {c : CappedCounter} {l q : Labels}

structure Invariant (c : CappedCounter) : Prop where
  capped : c.admitted.card ≤ c.cap
  known : ∀ l ∈ c.counter, l.pair ∈ c.admitted ∨ l.pair = c.overflowPair l.host

theorem Invariant.register (cap : Nat) (keepSecondOnOverflow : Bool) :
    Invariant (CappedCounter.register cap keepSecondOnOverflow) := by
  refine ⟨Nat.zero_le _,fun l mem => ?_⟩
  exact absurd mem (AList.notMem_empty l)

/-- A pair is admitted while there is room, and stays admitted. -/
theorem Invariant.inc (valid : Invariant c) (l : Labels) : Invariant (c.inc l) := by
  by_cases admits : c.admits l.pair
  · have labels : c.labels l = l := by rw [CappedCounter.labels,if_pos admits]
    refine ⟨?_,fun q mem => ?_⟩
    · simp only [CappedCounter.inc,if_pos admits]
      rcases (by simpa [CappedCounter.admits] using admits : l.pair ∈ c.admitted ∨ c.admitted.card < c.cap) with old | room
      · rw [Finset.insert_eq_of_mem old]
        exact valid.capped
      · exact Nat.le_trans (Finset.card_insert_le _ _) room
    · simp only [CappedCounter.inc,labels,CounterVec.mem_inc] at mem
      simp only [CappedCounter.inc,if_pos admits,Finset.mem_insert]
      rcases mem with rfl | old
      · exact .inl (.inl rfl)
      · exact (valid.known q old).imp_left .inr
  · refine ⟨by simpa only [CappedCounter.inc,if_neg admits] using valid.capped,fun q mem => ?_⟩
    simp only [CappedCounter.inc,CounterVec.mem_inc,CappedCounter.labels,if_neg admits] at mem
    simp only [CappedCounter.inc,if_neg admits]
    rcases mem with rfl | old
    · right
      simp only [Labels.pair,overflowPair]
      split <;> rfl
    · exact valid.known q old

theorem Invariant.kept_le (valid : Invariant c) : c.kept.card ≤ c.cap := by
  refine Nat.le_trans (Finset.card_le_card fun pair mem => ?_) valid.capped
  obtain ⟨mem,own⟩ := Finset.mem_filter.mp mem
  obtain ⟨l,key,rfl⟩ := List.mem_map.mp (List.mem_toFinset.mp mem)
  exact (valid.known l (AList.mem_keys.mpr key)).resolve_right own

theorem admitted_mono (c : CappedCounter) (l : Labels) : c.admitted ⊆ (c.inc l).admitted := by
  simp only [inc]
  split
  · exact Finset.subset_insert _ _
  · exact Finset.Subset.refl _

def run (c : CappedCounter) (incs : List Labels) : CappedCounter := incs.foldl inc c

theorem run_append (c : CappedCounter) (front back : List Labels) : c.run (front ++ back) = (c.run front).run back :=
  List.foldl_append

theorem run_keep (c : CappedCounter) (incs : List Labels) :
    (c.run incs).cap = c.cap ∧ (c.run incs).keepSecondOnOverflow = c.keepSecondOnOverflow := by
  induction incs generalizing c with
  | nil => exact ⟨rfl,rfl⟩
  | cons l rest ih => exact ih (c.inc l)

theorem Invariant.run (valid : Invariant c) (incs : List Labels) : Invariant (c.run incs) := by
  induction incs generalizing c with
  | nil => exact valid
  | cons l rest ih => exact ih (valid.inc l)

theorem run_total (c : CappedCounter) (incs : List Labels) :
    (c.run incs).counter.total = c.counter.total + incs.length := by
  induction incs generalizing c with
  | nil => rfl
  | cons l rest ih =>
    have later := ih (c.inc l)
    have first : (c.inc l).counter.total = c.counter.total + 1 := CounterVec.total_inc _ _
    rw [run,List.foldl_cons,← run,later,first,List.length_cons]
    omega

theorem run_admitted (c : CappedCounter) (incs : List Labels) : c.admitted ⊆ (c.run incs).admitted := by
  induction incs generalizing c with
  | nil => exact Finset.Subset.refl _
  | cons l rest ih => exact (c.admitted_mono l).trans (ih (c.inc l))

/-- An increment is counted under its own labels where its pair is admitted, or where
those are the labels it would be folded into. -/
theorem labels_eq_iff (c : CappedCounter) (l : Labels) :
    c.labels l = l ↔ c.admits l.pair = true ∨ l.pair = c.overflowPair l.host := by
  by_cases admits : c.admits l.pair = true
  · rw [labels,if_pos admits]
    exact iff_of_true rfl (.inl admits)
  · rw [labels,if_neg admits]
    constructor
    · intro same
      have site := congrArg Labels.pageSite same
      have host := congrArg Labels.host same
      exact .inr (Prod.ext site.symm host.symm)
    · intro either
      have folded := either.resolve_left admits
      have site : l.pageSite = overflow := congrArg Prod.fst folded
      have host : l.host = _ := congrArg Prod.snd folded
      exact Labels.ext rfl site.symm host.symm

/-- What was counted apart once is counted apart from then on. -/
theorem labels_later (c : CappedCounter) (apart : c.labels l = l) (same : q.pair = l.pair) (mid : List Labels) :
    ((c.inc l).run mid).labels q = q := by
  rw [labels_eq_iff] at apart ⊢
  rcases apart with admits | folded
  · left
    have kept : q.pair ∈ ((c.inc l).run mid).admitted := by
      refine run_admitted _ _ ?_
      simp [inc,admits,same]
    simp [CappedCounter.admits,kept]
  · right
    have keep : ((c.inc l).run mid).keepSecondOnOverflow = c.keepSecondOnOverflow := (run_keep (c.inc l) mid).2
    have host : q.host = l.host := congrArg Prod.snd same
    rw [same,folded,overflowPair,overflowPair,keep,host]

/-- The counts of a sequence of increments: none is lost, at most `cap` pairs are counted
apart, and a pair counted apart stays so. -/
structure Conserves (cap : Nat) (keepSecondOnOverflow : Bool) (incs : List Labels) : Prop where
  total : ((register cap keepSecondOnOverflow).run incs).counter.total = incs.length
  capped : ((register cap keepSecondOnOverflow).run incs).kept.card ≤ cap
  stays : ∀ front l mid q back, incs = front ++ l :: (mid ++ q :: back) → q.pair = l.pair →
    ((register cap keepSecondOnOverflow).run front).labels l = l →
    ((register cap keepSecondOnOverflow).run (front ++ l :: mid)).labels q = q

theorem conserves (cap : Nat) (keepSecondOnOverflow : Bool) (incs : List Labels) :
    Conserves cap keepSecondOnOverflow incs := by
  refine ⟨?_,?_,fun front l mid q back _ same apart => ?_⟩
  · rw [run_total]
    simp [register]
  · have bound := ((Invariant.register cap keepSecondOnOverflow).run incs).kept_le
    rwa [(run_keep _ incs).1] at bound
  · rw [run_append]
    exact labels_later _ apart same mid

end CappedCounter

structure PendingLoad where
  host : String
  document : Bool
  deriving DecidableEq

/-- The events of one page session, with the arguments the listener passes on. -/
inductive LoadEvent where
  | willBeSent (requestId url : String) (document : Bool)
  | finished (requestId : String)
  | failed (requestId : String) (blockedByList : Bool)
  deriving DecidableEq

def LoadEvent.requestId : LoadEvent → String
  | .willBeSent id _ _ | .finished id | .failed id _ => id

inductive LoadCounter where
  | requests
  | blocked
  deriving DecidableEq

structure Increment where
  counter : LoadCounter
  labels : Labels
  deriving DecidableEq

structure RequestLoads where
  scope : String
  pageSite : String
  pending : AList (fun _ : String => PendingLoad)

namespace RequestLoads

def countSent (hosts : Hosts) (r : RequestLoads) (load : PendingLoad) : Option Increment :=
  if !load.document && hosts.isCrossSite r.pageSite load.host then some ⟨.requests,⟨r.scope,r.pageSite,load.host⟩⟩
  else none

def willBeSent (hosts : Hosts) (r : RequestLoads) (requestId url : String) (document : Bool) : RequestLoads :=
  match hosts.hostOf url with
  | none => { r with pending := r.pending.erase requestId }
  | some host =>
    if maxPendingLoads ≤ r.pending.entries.length ∧ requestId ∉ r.pending then r
    else { r with pending := r.pending.insert requestId ⟨host,document⟩ }

def step (hosts : Hosts) (r : RequestLoads) : LoadEvent → RequestLoads × Option Increment
  | .willBeSent requestId url document => (r.willBeSent hosts requestId url document,none)
  | .finished requestId =>
    ({ r with pending := r.pending.erase requestId },(r.pending.lookup requestId).bind (r.countSent hosts))
  | .failed requestId blockedByList =>
    ({ r with pending := r.pending.erase requestId },
      (r.pending.lookup requestId).bind fun load =>
        if blockedByList then some ⟨.blocked,⟨r.scope,r.pageSite,load.host⟩⟩ else r.countSent hosts load)

def after (hosts : Hosts) (r : RequestLoads) (events : List LoadEvent) : RequestLoads :=
  events.foldl (fun r e => (r.step hosts e).1) r

def increments (hosts : Hosts) (r : RequestLoads) : List LoadEvent → List (Option Increment)
  | [] => []
  | e :: rest => (r.step hosts e).2 :: increments hosts (r.step hosts e).1 rest

end RequestLoads

/-- The load an end event of `requestId` is about: the latest `will_be_sent` of that id,
where the id has no end event since and the URL has a host. -/
def Pends (hosts : Hosts) (before : List LoadEvent) (requestId : String) (load : PendingLoad) : Prop :=
  ∃ earlier url later, before = earlier ++ .willBeSent requestId url load.document :: later ∧
    (∀ e ∈ later, e.requestId ≠ requestId) ∧ hosts.hostOf url = some load.host

/-- The increments the history before an event calls for. -/
inductive Counts (hosts : Hosts) (scope pageSite : String) (before : List LoadEvent) : LoadEvent → Increment → Prop where
  | blocked (pends : Pends hosts before requestId load) :
      Counts hosts scope pageSite before (.failed requestId true) ⟨.blocked,⟨scope,pageSite,load.host⟩⟩
  | failed (pends : Pends hosts before requestId load) (resource : load.document = false)
      (foreign : hosts.isCrossSite pageSite load.host = true) :
      Counts hosts scope pageSite before (.failed requestId false) ⟨.requests,⟨scope,pageSite,load.host⟩⟩
  | finished (pends : Pends hosts before requestId load) (resource : load.document = false)
      (foreign : hosts.isCrossSite pageSite load.host = true) :
      Counts hosts scope pageSite before (.finished requestId) ⟨.requests,⟨scope,pageSite,load.host⟩⟩

section

variable {hosts : Hosts} {before : List LoadEvent} {e : LoadEvent} {id : String} {load : PendingLoad}

/-- The last event about an id decides what pends under it. -/
theorem pends_concat : Pends hosts (before ++ [e]) id load ↔
    if e.requestId = id then ∃ url, e = .willBeSent id url load.document ∧ hosts.hostOf url = some load.host
    else Pends hosts before id load := by
  constructor
  · rintro ⟨earlier,url,later,whole,silent,host⟩
    rcases later.eq_nil_or_concat' with rfl | ⟨rest,last,rfl⟩
    · obtain ⟨rfl,same⟩ := List.append_inj' whole rfl
      obtain rfl := List.singleton_inj.mp same
      have own : (LoadEvent.willBeSent id url load.document).requestId = id := rfl
      rw [if_pos own]
      exact ⟨url,rfl,host⟩
    · rw [← List.cons_append,← List.append_assoc] at whole
      obtain ⟨rfl,same⟩ := List.append_inj' whole rfl
      obtain rfl := List.singleton_inj.mp same
      rw [if_neg (silent e (by simp))]
      exact ⟨earlier,url,rest,rfl,fun x mem => silent x (List.mem_append_left _ mem),host⟩
  · intro known
    split at known
    · obtain ⟨url,rfl,host⟩ := known
      exact ⟨before,url,[],rfl,by simp,host⟩
    · next other =>
      obtain ⟨earlier,url,later,rfl,silent,host⟩ := known
      refine ⟨earlier,url,later ++ [e],by simp,fun x mem => ?_,host⟩
      rcases List.mem_append.mp mem with old | new
      · exact silent x old
      · exact List.mem_singleton.mp new ▸ other

/-- The map holds what pends, and nothing else. -/
def Remembers (hosts : Hosts) (before : List LoadEvent) (r : RequestLoads) : Prop :=
  ∀ id load, r.pending.lookup id = some load ↔ Pends hosts before id load

variable {r : RequestLoads}

theorem remembers_start (hosts : Hosts) (scope pageSite : String) : Remembers hosts [] ⟨scope,pageSite,∅⟩ := by
  intro id load
  simp [Pends]

theorem remembers_erase (remembers : Remembers hosts before r) (noLoad : ∀ (load : PendingLoad) (url : String),
      e = .willBeSent e.requestId url load.document → hosts.hostOf url ≠ some load.host) :
    Remembers hosts (before ++ [e]) { r with pending := r.pending.erase e.requestId } := by
  intro id load
  rw [pends_concat]
  split
  · next own =>
    subst own
    rw [AList.lookup_erase]
    refine iff_of_false (by simp) ?_
    rintro ⟨url,same,host⟩
    exact noLoad load url same host
  · next other =>
    rw [AList.lookup_erase_ne (Ne.symm other)]
    exact remembers id load

theorem remembers_insert {url host : String} (remembers : Remembers hosts before r) (found : hosts.hostOf url = some host)
    (requestId : String) (document : Bool) :
    Remembers hosts (before ++ [.willBeSent requestId url document])
      { r with pending := r.pending.insert requestId ⟨host,document⟩ } := by
  intro id load
  rw [pends_concat]
  split
  · next own =>
    obtain rfl : requestId = id := own
    rw [AList.lookup_insert]
    constructor
    · intro same
      obtain rfl := Option.some.inj same
      exact ⟨url,rfl,found⟩
    · rintro ⟨_,same,known⟩
      obtain ⟨_,rfl,document⟩ := LoadEvent.willBeSent.inj same
      rw [found] at known
      obtain rfl := Option.some.inj known
      rw [document]
  · next other =>
    have apart : id ≠ requestId := fun same => other same.symm
    rw [AList.lookup_insert_ne apart]
    exact remembers id load

theorem remembers_step (remembers : Remembers hosts before r) (room : r.pending.entries.length < maxPendingLoads)
    (e : LoadEvent) :
    Remembers hosts (before ++ [e]) (r.step hosts e).1 := by
  cases e with
  | willBeSent requestId url document =>
    simp only [RequestLoads.step,RequestLoads.willBeSent]
    cases found : hosts.hostOf url with
    | none =>
      refine remembers_erase (e := .willBeSent requestId url document) remembers fun load other same => ?_
      obtain ⟨_,rfl,_⟩ := LoadEvent.willBeSent.inj same
      simp [found]
    | some host =>
      simp only
      rw [if_neg (by omega)]
      exact remembers_insert remembers found requestId document
  | finished requestId => exact remembers_erase (e := .finished requestId) remembers fun load url same => by cases same
  | failed requestId blocked =>
    exact remembers_erase (e := .failed requestId blocked) remembers fun load url same => by cases same

theorem countSent_iff (hosts : Hosts) (r : RequestLoads) (load : PendingLoad) (inc : Increment) :
    r.countSent hosts load = some inc ↔ load.document = false ∧ hosts.isCrossSite r.pageSite load.host = true ∧
      inc = ⟨.requests,⟨r.scope,r.pageSite,load.host⟩⟩ := by
  rw [RequestLoads.countSent]
  cases load.document <;> cases hosts.isCrossSite r.pageSite load.host <;> simp [eq_comm]

/-- An event increments what the history calls for. -/
theorem step_counts (remembers : Remembers hosts before r) (e : LoadEvent) (inc : Increment) :
    (r.step hosts e).2 = some inc ↔ Counts hosts r.scope r.pageSite before e inc := by
  cases e with
  | willBeSent requestId url document => exact iff_of_false (by simp [RequestLoads.step]) (fun counts => by cases counts)
  | finished requestId =>
    simp only [RequestLoads.step,Option.bind_eq_some_iff,countSent_iff]
    constructor
    · rintro ⟨load,found,resource,foreign,rfl⟩
      exact .finished ((remembers _ _).mp found) resource foreign
    · intro counts
      cases counts with
      | finished pends resource foreign => exact ⟨_,(remembers _ _).mpr pends,resource,foreign,rfl⟩
  | failed requestId blocked =>
    cases blocked with
    | true =>
      simp only [RequestLoads.step,Option.bind_eq_some_iff,if_true]
      constructor
      · rintro ⟨load,found,same⟩
        obtain rfl := Option.some.inj same
        exact .blocked ((remembers _ _).mp found)
      · intro counts
        cases counts with
        | blocked pends => exact ⟨_,(remembers _ _).mpr pends,rfl⟩
    | false =>
      simp only [RequestLoads.step,Option.bind_eq_some_iff,countSent_iff,Bool.false_eq_true,if_false]
      constructor
      · rintro ⟨load,found,resource,foreign,rfl⟩
        exact .failed ((remembers _ _).mp found) resource foreign
      · intro counts
        cases counts with
        | failed pends resource foreign => exact ⟨_,(remembers _ _).mpr pends,resource,foreign,rfl⟩

theorem step_scope (hosts : Hosts) (r : RequestLoads) (e : LoadEvent) :
    (r.step hosts e).1.scope = r.scope ∧ (r.step hosts e).1.pageSite = r.pageSite := by
  cases e with
  | willBeSent requestId url document =>
    simp only [RequestLoads.step,RequestLoads.willBeSent]
    cases hosts.hostOf url with
    | none => exact ⟨rfl,rfl⟩
    | some host =>
      simp only
      split <;> exact ⟨rfl,rfl⟩
  | finished requestId => exact ⟨rfl,rfl⟩
  | failed requestId blocked => exact ⟨rfl,rfl⟩

/-- From a state that remembers `before`, every event increments what the history before it
calls for. -/
theorem increments_counts (remembers : Remembers hosts before r) (events : List LoadEvent)
    (room : ∀ k < events.length, (r.after hosts (events.take k)).pending.entries.length < maxPendingLoads)
    (k : Nat) (at_ : events[k]? = some e) (inc : Increment) :
    (r.increments hosts events)[k]? = some (some inc) ↔
      Counts hosts r.scope r.pageSite (before ++ events.take k) e inc := by
  induction events generalizing r before k with
  | nil => simp at at_
  | cons first rest ih =>
    have now : r.pending.entries.length < maxPendingLoads := room 0 (Nat.zero_lt_succ _)
    cases k with
    | zero =>
      obtain rfl : first = e := Option.some.inj at_
      rw [RequestLoads.increments,List.getElem?_cons_zero,List.take_zero,List.append_nil,Option.some.injEq]
      exact step_counts remembers first inc
    | succ k =>
      have later := ih (remembers_step remembers now first)
        (fun j below => room (j + 1) (Nat.succ_lt_succ below)) k at_
      obtain ⟨scope,site⟩ := step_scope hosts r first
      rw [scope,site,List.append_assoc] at later
      exact later

theorem length_increments (hosts : Hosts) (r : RequestLoads) (events : List LoadEvent) :
    (r.increments hosts events).length = events.length := by
  induction events generalizing r with
  | nil => rfl
  | cons e rest ih =>
    rw [RequestLoads.increments,List.length_cons,List.length_cons,ih]

/-- The increments of one request's loads are those its history calls for, and what a
counter is given it keeps, under at most `cap` pairs. -/
theorem loads_count_history (hosts : Hosts) (scope pageSite : String) (events : List LoadEvent)
    (room : ∀ k < events.length,
      (RequestLoads.after hosts ⟨scope,pageSite,∅⟩ (events.take k)).pending.entries.length < maxPendingLoads) :
    ((RequestLoads.increments hosts ⟨scope,pageSite,∅⟩ events).length = events.length ∧
      ∀ k e, events[k]? = some e → ∀ inc,
        (RequestLoads.increments hosts ⟨scope,pageSite,∅⟩ events)[k]? = some (some inc) ↔
          Counts hosts scope pageSite (events.take k) e inc) ∧
    ∀ cap keepSecondOnOverflow incs, CappedCounter.Conserves cap keepSecondOnOverflow incs :=
  ⟨⟨length_increments hosts _ events,fun k _ at_ inc =>
    increments_counts (remembers_start hosts scope pageSite) events room k at_ inc⟩,CappedCounter.conserves⟩

/-- An event adds at most one load. -/
theorem pending_after (hosts : Hosts) (r : RequestLoads) (events : List LoadEvent) :
    (r.after hosts events).pending.entries.length ≤ r.pending.entries.length + events.length := by
  induction events generalizing r with
  | nil => exact Nat.le_refl _
  | cons e rest ih =>
    have erased : ∀ id : String, (r.pending.erase id).entries.length ≤ r.pending.entries.length :=
      fun id => (List.kerase_sublist id _).length_le
    have first : (r.step hosts e).1.pending.entries.length ≤ r.pending.entries.length + 1 := by
      cases e with
      | willBeSent requestId url document =>
        simp only [RequestLoads.step,RequestLoads.willBeSent]
        cases hosts.hostOf url with
        | none => exact Nat.le_succ_of_le (erased requestId)
        | some host =>
          simp only
          split
          · exact Nat.le_succ _
          · simp only [AList.entries_insert,List.length_cons]
            exact Nat.succ_le_succ (erased requestId)
      | finished requestId => exact Nat.le_succ_of_le (erased requestId)
      | failed requestId blocked => exact Nat.le_succ_of_le (erased requestId)
    have later := ih (r.step hosts e).1
    rw [RequestLoads.after,List.foldl_cons,← RequestLoads.after,List.length_cons]
    omega

def redirected : List LoadEvent :=
  [.willBeSent "1" "https://a.test/x" false,.willBeSent "2" "https://shop.test/y" false,
   .willBeSent "1" "https://b.test/x" false,.finished "2",.failed "1" true,.finished "1"]

def threeHosts : Hosts where
  parse := fun url =>
    if url = "https://a.test/x" then some ("https",some "a.test")
    else if url = "https://b.test/x" then some ("https",some "b.test")
    else if url = "https://shop.test/y" then some ("https",some "shop.test") else none
  isIpAddr := fun _ => false
  domainStr := some

theorem redirected_counts_last :
    (RequestLoads.increments threeHosts ⟨"default","shop.test",∅⟩ redirected)[4]? =
      some (some ⟨.blocked,⟨"default","shop.test","b.test"⟩⟩) := by
  have room : ∀ k < redirected.length,
      (RequestLoads.after threeHosts ⟨"default","shop.test",∅⟩ (redirected.take k)).pending.entries.length <
        maxPendingLoads := by
    intro k below
    have added := pending_after threeHosts ⟨"default","shop.test",∅⟩ (redirected.take k)
    have few : (redirected.take k).length ≤ 6 := Nat.le_trans (List.length_take_le _ _) (Nat.le_of_lt below)
    exact Nat.lt_of_le_of_lt (Nat.le_trans added (Nat.add_le_add_left few 0)) (by decide)
  have host : threeHosts.hostOf "https://b.test/x" = some "b.test" := by
    have lower : "b.test".toLower = "b.test" := by
      have letters : "b.test".toLower.toList = "b.test".toList.map Char.toLower := String.toList_map
      apply String.toList_inj.mp
      rw [letters]
      decide
    rw [Hosts.hostOf,show threeHosts.parse "https://b.test/x" = some ("https",some "b.test") by decide]
    exact congrArg some lower
  have pends : Pends threeHosts (redirected.take 4) "1" ⟨"b.test",false⟩ :=
    ⟨redirected.take 2,"https://b.test/x",[.finished "2"],rfl,by decide,host⟩
  exact ((loads_count_history threeHosts "default" "shop.test" redirected room).1.2 4 (.failed "1" true) rfl _).mpr
    (.blocked pends)

end

end BrowserHive.Worker.ThirdParty
