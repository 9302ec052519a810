import BrowserHive.Worker.Observer

/-! The response to a request whose content was read: what its listener kept, the navigation
and the wait decide it, and the history of the events explains it. -/
namespace BrowserHive.Worker.Observer

open PageLoad (Hosts PageLoadTracker Load openIds currentPage openLoad loadOf Follows Roomy)

structure Ending where
  /-- The text of the error, if there was one. -/
  navigationError : Option String
  wait : WaitResult
  /-- The text of the error, for a wait that failed. -/
  waitError : String
  strategyName : String
  waitSelector : String
  skipSelector : String
  tabUrl : String
  /-- What the page itself tells when it is asked, or 0. -/
  pageStatus : Nat
  deriving DecidableEq, Repr

/-- The fields of `ScrapePageResponse` that are decided here. -/
structure Response where
  success : Bool
  statusCode : Nat
  errorMessage : String
  errorCode : ErrorCode
  responseHeaders : List (String × String)
  deriving DecidableEq, Repr

def hostOf (hosts : Hosts) (url : String) : Option String :=
  (hosts.parse url).bind fun parsed => parsed.2.map String.toLower

/-- The registrable domain of the final URL, when it is another one. -/
def crossSiteRedirectTarget (hosts : Hosts) (requestedUrl finalUrl : String) : Option String := do
  let requestedHost ← hostOf hosts requestedUrl
  let finalHost ← hostOf hosts finalUrl
  let requestedDomain ← hosts.domainStr requestedHost
  let finalDomain ← hosts.domainStr finalHost
  if requestedDomain ≠ finalDomain then some finalDomain else none

def incompleteMessage (selectorMessage : String) (listed : List String) (total : Nat) : String :=
  selectorMessage ++ " — page load incomplete: " ++ "; ".intercalate listed ++
    if listed.length < total then " (+" ++ toString (total - listed.length) ++ " more)" else ""

def pageLoadIncomplete (hosts : Hosts) (tracker : PageLoadTracker) (values : List Load) (now : Nat)
    (selectorMessage : String) : Option String :=
  match PageLoadTracker.verdictAt hosts tracker values now with
  | (listed,total) => if total = 0 then none else some (incompleteMessage selectorMessage listed total)

/-- How a request went, before and after the blame is laid. -/
structure Verdict where
  success : Bool
  message : String
  code : ErrorCode
  deriving DecidableEq, Repr

def Ending.waited (ending : Ending) : Verdict :=
  match ending.wait with
  | .success => ⟨true,"",.none⟩
  | .skipSelectorFound => ⟨false,"Skip selector '" ++ ending.skipSelector ++ "' was found",.skipSelectorFound⟩
  | .waitSelectorNotFound =>
    ⟨false,"Wait selector '" ++ ending.waitSelector ++ "' was not found within timeout",.selectorNotFound⟩
  | .failed => ⟨false,"Wait strategy '" ++ ending.strategyName ++ "' failed: " ++ ending.waitError,.timeoutBrowser⟩

/-- Navigation error before off-domain redirect before wait result. -/
def Ending.verdict (ending : Ending) (requestedUrl finalUrl : String) (redirectTarget : Option String) : Verdict :=
  match ending.navigationError with
  | some text =>
    if isProxyError text then ⟨false,"Proxy/tunnel failure while navigating: " ++ text,.proxyError⟩
    else ⟨false,"Failed to navigate to URL: " ++ text,.networkError⟩
  | none =>
    if redirectTarget.isSome then
      ⟨false,"Redirected to another domain: " ++ finalUrl ++ " (from " ++ requestedUrl ++ ")",.redirectToAnotherDomain⟩
    else ending.waited

def lostMessage (message : String) (count : Nat) (summary : String) : String :=
  message ++ " — " ++ toString count ++ " resource load(s) failed with a proxy/tunnel error: " ++ summary

def blameProxy (failures : ProxyFailures) (verdict : Verdict) : Verdict :=
  if 0 < failures.total ∧ (verdict.code = .selectorNotFound ∨ verdict.code = .timeoutBrowser) then
    { verdict with
      message := lostMessage verdict.message failures.total (ProxyFailures.summary failures)
      code := .proxyError }
  else verdict

def blameLoad (hosts : Hosts) (tracker : PageLoadTracker) (values : List Load) (now : Nat) (verdict : Verdict) : Verdict :=
  if verdict.code = .selectorNotFound then
    match pageLoadIncomplete hosts tracker values now verdict.message with
    | some message => { verdict with message := message, code := .pageLoadIncomplete }
    | none => verdict
  else verdict

def noDocument : MainDocument := ⟨0,[],""⟩

/-- The end of `scrape_page_internal`: the document is taken first, the failures are read
after it, and the tracker last, its loads in some order. -/
def respond (setup : Setup) (ending : Ending) (documents : ObservedDocuments) (failures : ProxyFailures)
    (tracker : PageLoadTracker) (values : List Load) (now : Nat) : Response :=
  let finalDocument := documents.latest.getD noDocument
  let finalUrl := if finalDocument.url = "" then ending.tabUrl else finalDocument.url
  let redirectTarget :=
    if ending.navigationError.isNone then crossSiteRedirectTarget setup.hosts setup.requestedUrl finalUrl else none
  let verdict := ending.verdict setup.requestedUrl finalUrl redirectTarget
  let blamed := blameLoad setup.hosts tracker values now (blameProxy failures verdict)
  { success := blamed.success
    statusCode := if 0 < finalDocument.status then finalDocument.status else ending.pageStatus
    errorMessage := blamed.message
    errorCode := blamed.code
    responseHeaders := finalDocument.headers }

/-! ### The response, from the histories -/

variable (setup : Setup) (ending : Ending)

def documentIn (history : History) : MainDocument := ((latestDocument setup history).map Prod.snd).getD noDocument

def finalUrlIn (history : History) : String :=
  if (documentIn setup history).url = "" then ending.tabUrl else (documentIn setup history).url

def verdictIn (history : History) : Verdict :=
  ending.verdict setup.requestedUrl (finalUrlIn setup ending history)
    (crossSiteRedirectTarget setup.hosts setup.requestedUrl (finalUrlIn setup ending history))

def summaryIn (history : History) : String :=
  ", ".intercalate (((CappedTally.firstKinds maxProxyFailureKinds (failureKinds history)).insertionSort (· ≤ ·)).map fun kind =>
    ProxyFailures.item kind ((failureKinds history).count kind))

def documentMarker (history : PageLoad.History) : Option String :=
  if PageLoad.documentPending history then some "main document still loading"
  else if (PageLoad.latestDocument history).isSome ∧
      (PageLoad.sinceDocument history).all fun entry => entry.2 ≠ .loadEvent then
    some "load event never fired"
  else none

/-- When a load that is a marker was started, and how it is listed. -/
def loadMarker (hosts : Hosts) (pageHost : String) (now : Nat) (load : Load) : Option (Nat × String) :=
  (PageLoadTracker.judge hosts ⟨pageHost,∅,none,none,false⟩ load now).map fun reason =>
    (load.started,load.typeLabel ++ " " ++ reason ++ " " ++ PageLoad.shortUrl load.url)

def loadMarkers (hosts : Hosts) (pageHost : String) (now : Nat) (history : PageLoad.History) : List (Nat × String) :=
  (openIds (currentPage history)).filterMap fun id =>
    (loadOf id (openLoad id (currentPage history))).bind (loadMarker hosts pageHost now)

/-- All markers: that of the document first, those of the loads by their start. -/
def Markers (history : History) (now : Nat) (markers : List String) : Prop :=
  ∃ sorted : List (Nat × String), sorted.Pairwise (fun a b => a.1 ≤ b.1) ∧
    sorted.Perm (loadMarkers setup.hosts ((setup.hosts.hostOf setup.requestedUrl).getD "") now (pageLoads setup history)) ∧
    markers = (documentMarker (pageLoads setup history)).toList ++ sorted.map Prod.snd

def incompleteIn (history : History) (now : Nat) : Bool :=
  (documentMarker (pageLoads setup history)).isSome ||
    !(loadMarkers setup.hosts ((setup.hosts.hostOf setup.requestedUrl).getD "") now (pageLoads setup history)).isEmpty

/-- The page, from the histories of its documents, of the lost loads and of the page loads. -/
def pageSeen (documents failures loading : History) (now : Nat) : Page where
  navigation := match ending.navigationError with
    | none => .loaded
    | some text => if isProxyError text then .proxyFailed else .failed
  redirected := (crossSiteRedirectTarget setup.hosts setup.requestedUrl (finalUrlIn setup ending documents)).isSome
  wait := ending.wait
  proxyFailures := failureKinds failures ≠ []
  incomplete := incompleteIn setup loading now
  statusCode := if 0 < (documentIn setup documents).status then (documentIn setup documents).status else ending.pageStatus

/-- A response tells what the histories tell. -/
structure Tells (documents failures loading : History) (now : Nat) (response : Response) : Prop where
  success : response.success = ((pageSeen setup ending documents failures loading now).reply none).success
  statusCode : response.statusCode = (pageSeen setup ending documents failures loading now).statusCode
  errorCode : response.errorCode = ((pageSeen setup ending documents failures loading now).reply none).errorCode
  headers : response.responseHeaders = (documentIn setup documents).headers
  silent : response.errorMessage = "" ↔ response.success = true
  /-- Lost loads are counted and listed by kind. -/
  lost : response.errorCode ≠ (verdictIn setup ending documents).code → response.errorCode = .proxyError →
    response.errorMessage =
      lostMessage (verdictIn setup ending documents).message (failureKinds failures).length (summaryIn failures)
  /-- Markers are counted, and the first of them listed. -/
  unfinished : response.errorCode = .pageLoadIncomplete → ∃ markers, Markers setup loading now markers ∧
    response.errorMessage =
      incompleteMessage (verdictIn setup ending documents).message (markers.take PageLoad.maxListed) markers.length
  /-- Without blame the message is the one that goes with the code. -/
  plain : response.errorCode = (verdictIn setup ending documents).code →
    response.errorMessage = (verdictIn setup ending documents).message

variable {setup ending} {tracker : PageLoadTracker} {pageHost : String} {told : PageLoad.History} {values : List Load}

/-- The tracked loads are the open ones. -/
theorem loads_perm (follows : Follows tracker pageHost told) : (tracker.loads.entries.map Sigma.snd).Perm
    ((openIds (currentPage told)).filterMap fun id => loadOf id (openLoad id (currentPage told))) := by
  have looked : tracker.loads.entries.map Sigma.snd = tracker.loads.keys.filterMap tracker.loads.lookup := by
    rw [AList.keys,List.keys,List.filterMap_map,← List.filterMap_eq_map]
    refine List.filterMap_congr fun entry member => ?_
    have found := AList.mem_lookup_iff.mpr
      (show (⟨entry.1,entry.2⟩ : Sigma fun _ : String => Load) ∈ tracker.loads.entries from member)
    exact found.symm
  rw [looked,funext follows.loads]
  exact follows.keys.filterMap _

theorem loadMarkers_perm (follows : Follows tracker pageHost told) (hosts : Hosts) (now : Nat)
    (order : values.Perm (tracker.loads.entries.map Sigma.snd)) :
    (values.filterMap (loadMarker hosts pageHost now)).Perm (loadMarkers hosts pageHost now told) := by
  have marked := (order.trans (loads_perm follows)).filterMap (loadMarker hosts pageHost now)
  rw [List.filterMap_filterMap] at marked
  exact marked

theorem documentMarker_eq (follows : Follows tracker pageHost told) :
    (if tracker.mainDocument.isSome then some "main document still loading"
      else if tracker.lastDocument.isSome && !tracker.loadFired then some "load event never fired" else none) =
    documentMarker told := by
  rw [follows.mainDocument,follows.lastDocument,follows.loadFired,documentMarker]
  cases latest : PageLoad.latestDocument told with
  | none => simp [PageLoad.documentPending,latest]
  | some id =>
    cases PageLoad.documentPending told with
    | true => simp [Option.filter]
    | false =>
      generalize (PageLoad.sinceDocument told).all (fun entry => entry.2 ≠ .loadEvent) = quiet
      cases quiet <;> rfl

theorem sortedByStart (marks : List (Nat × String)) :
    (marks.insertionSort fun a b => a.1 ≤ b.1).Pairwise fun a b => a.1 ≤ b.1 := by
  have total : Std.Total fun a b : Nat × String => a.1 ≤ b.1 := ⟨fun a b => Nat.le_total a.1 b.1⟩
  have ordered : IsTrans (Nat × String) fun a b => a.1 ≤ b.1 := ⟨fun _ _ _ => Nat.le_trans⟩
  exact List.pairwise_insertionSort _ marks

/-- What the verdict of the tracker lists. -/
theorem verdictAt_markers (roomy : Roomy (pageLoads setup history)) (now : Nat)
    (order : values.Perm ((Holders.after setup history).pageLoad.loads.entries.map Sigma.snd)) :
    ∃ markers, Markers setup history now markers ∧
      PageLoadTracker.verdictAt setup.hosts (Holders.after setup history).pageLoad values now =
        (markers.take PageLoad.maxListed,markers.length) := by
  rw [after_eq] at order ⊢
  have follows := PageLoad.after_follows setup.hosts setup.requestedUrl roomy
  have marked := loadMarkers_perm follows setup.hosts now order
  have listed := (List.perm_insertionSort (fun a b : Nat × String => a.1 ≤ b.1) _).trans marked
  refine ⟨_,⟨_,sortedByStart _,listed,rfl⟩,?_⟩
  rw [← documentMarker_eq follows,← follows.pageHost]
  rfl

theorem Markers.nil_iff (marked : Markers setup history now markers) :
    markers.length = 0 ↔ incompleteIn setup history now = false := by
  obtain ⟨sorted,_,perm,rfl⟩ := marked
  rw [incompleteIn,List.length_append,List.length_map,perm.length_eq]
  cases documentMarker (pageLoads setup history) <;> simp

/-- The kinds are listed in the order of their names, with their counts in the history. -/
theorem summary_eq (history : History) :
    ProxyFailures.summary (Holders.after setup history).proxyFailures = summaryIn history := by
  rw [after_eq,ProxyFailures.summary,summaryIn]
  have kept := CappedTally.keys_ofKinds maxProxyFailureKinds (failureKinds history)
  have same : (CappedTally.ofKinds maxProxyFailureKinds (failureKinds history)).byKind.keys.insertionSort (· ≤ ·) =
      (CappedTally.firstKinds maxProxyFailureKinds (failureKinds history)).insertionSort (· ≤ ·) := by
    have sorted := (List.perm_insertionSort (· ≤ ·) _).trans (kept.trans (List.perm_insertionSort (· ≤ ·) _).symm)
    exact sorted.eq_of_pairwise' (List.pairwise_insertionSort ..) (List.pairwise_insertionSort ..)
  rw [same]
  congr 1
  refine List.map_congr_left fun kind member => ?_
  have first := (List.perm_insertionSort ..).mem_iff.mp member
  rw [CappedTally.get_ofKinds,if_pos first]

theorem append_ne_empty (front back : String) (some_ : front ≠ "") : front ++ back ≠ "" := by
  intro empty
  have nothing := congrArg String.toList empty
  rw [String.toList_append] at nothing
  exact some_ (String.toList_eq_nil_iff.mp (List.append_eq_nil_iff.mp nothing).1)

theorem lostMessage_ne (said : message ≠ "") (count : Nat) (summary : String) : lostMessage message count summary ≠ "" := by
  simp only [lostMessage,String.append_assoc]
  exact append_ne_empty _ _ said

theorem incompleteMessage_ne (said : message ≠ "") (listed : List String) (total : Nat) :
    incompleteMessage message listed total ≠ "" := by
  simp only [incompleteMessage,String.append_assoc]
  exact append_ne_empty _ _ said

/-- Code, message and success of a verdict agree. -/
structure Verdict.Alike (v : Verdict) : Prop where
  coded : v.success = true ↔ v.code = .none
  silent : v.message = "" ↔ v.success = true

theorem alike_failed {text : String} {c : ErrorCode} (said : text ≠ "") (failed : c ≠ .none) :
    (⟨false,text,c⟩ : Verdict).Alike :=
  ⟨⟨nofun,fun none_ => absurd none_ failed⟩,⟨fun empty => absurd empty said,nofun⟩⟩

theorem Verdict.Alike.fails {v : Verdict} (alike : v.Alike) (failed : v.code ≠ .none) : ¬v.success = true ∧ v.message ≠ "" :=
  ⟨mt alike.coded.mp failed,mt alike.silent.mp (mt alike.coded.mp failed)⟩

theorem verdict_alike (ending : Ending) (requestedUrl finalUrl : String) (redirectTarget : Option String) :
    (ending.verdict requestedUrl finalUrl redirectTarget).Alike := by
  unfold Ending.verdict
  cases ending.navigationError with
  | some text =>
    simp only
    split
    · exact alike_failed (append_ne_empty _ _ (by decide)) nofun
    · exact alike_failed (append_ne_empty _ _ (by decide)) nofun
  | none =>
    simp only
    split
    · simp only [String.append_assoc]
      exact alike_failed (append_ne_empty _ _ (by decide)) nofun
    · unfold Ending.waited
      simp only [String.append_assoc]
      cases ending.wait with
      | success => exact ⟨⟨fun _ => rfl,fun _ => rfl⟩,⟨fun _ => rfl,fun _ => rfl⟩⟩
      | skipSelectorFound | waitSelectorNotFound | failed => exact alike_failed (append_ne_empty _ _ (by decide)) nofun

/-- The three ways the blame can go. -/
inductive Blamed (kinds : List String) (summary : String) (incomplete : Bool) (markers : List String)
    (before : Verdict) : Verdict → Prop where
  | proxy (lost : kinds ≠ []) (explains : before.code = .selectorNotFound ∨ before.code = .timeoutBrowser) :
    Blamed kinds summary incomplete markers before
      { before with message := lostMessage before.message kinds.length summary, code := .proxyError }
  | load (spared : kinds = []) (missing : before.code = .selectorNotFound) (found : incomplete = true) :
    Blamed kinds summary incomplete markers before
      { before with
        message := incompleteMessage before.message (markers.take PageLoad.maxListed) markers.length
        code := .pageLoadIncomplete }
  | none (spared : kinds = [] ∨ before.code ≠ .selectorNotFound ∧ before.code ≠ .timeoutBrowser)
    (complete : before.code = .selectorNotFound → incomplete = false) :
    Blamed kinds summary incomplete markers before before

theorem blamed (setup : Setup) (before : Verdict) (failures loading : History) (markers : List String)
    (marked : Markers setup loading now markers)
    (listed : PageLoadTracker.verdictAt setup.hosts (Holders.after setup loading).pageLoad values now =
      (markers.take PageLoad.maxListed,markers.length)) :
    Blamed (failureKinds failures) (summaryIn failures) (incompleteIn setup loading now) markers before
      (blameLoad setup.hosts (Holders.after setup loading).pageLoad values now
        (blameProxy (Holders.after setup failures).proxyFailures before)) := by
  have total : (Holders.after setup failures).proxyFailures.total = (failureKinds failures).length := by
    rw [after_eq,CappedTally.total_ofKinds]
  have unmarked := marked.nil_iff
  have loads : ∀ spared : failureKinds failures = [] ∨ before.code ≠ .selectorNotFound ∧ before.code ≠ .timeoutBrowser,
      Blamed (failureKinds failures) (summaryIn failures) (incompleteIn setup loading now) markers before
        (blameLoad setup.hosts (Holders.after setup loading).pageLoad values now before) := by
    intro spared
    by_cases missing : before.code = .selectorNotFound
    · rw [blameLoad,if_pos missing,pageLoadIncomplete,listed]
      by_cases none_ : markers.length = 0
      · simp only [if_pos none_]
        exact .none spared fun _ => unmarked.mp none_
      · simp only [if_neg none_]
        refine .load (spared.resolve_right fun other => other.1 missing) missing ?_
        exact Bool.eq_true_of_not_eq_false fun complete => none_ (unmarked.mpr complete)
    · rw [blameLoad,if_neg missing]
      exact .none spared fun found => absurd found missing
  rw [blameProxy,total,summary_eq]
  by_cases explains : before.code = .selectorNotFound ∨ before.code = .timeoutBrowser
  · by_cases lost : failureKinds failures = []
    · rw [if_neg (fun both => absurd (List.length_pos_iff.mp both.1) (not_not.mpr lost))]
      exact loads (.inl lost)
    · rw [if_pos ⟨List.length_pos_iff.mpr lost,explains⟩,blameLoad,if_neg nofun]
      exact .proxy lost explains
  · rw [if_neg (fun both => explains both.2)]
    exact loads (.inr (not_or.mp explains))

theorem outcome_eq (setup : Setup) (ending : Ending) (documents failures loading : History) (now : Nat) :
    (pageSeen setup ending documents failures loading now).outcome = (verdictIn setup ending documents).code := by
  unfold Page.outcome verdictIn Ending.verdict
  simp only [pageSeen]
  cases ending.navigationError with
  | some text =>
    by_cases proxy : isProxyError text = true
    · simp [proxy]
    · simp [proxy]
  | none =>
    simp only
    split
    · next redirected => simp only [redirected,if_true]
    · next stayed =>
      simp only [stayed,Ending.waited]
      cases ending.wait <;> rfl

theorem respond_eq (setup : Setup) (ending : Ending) (documents : History) (failures : ProxyFailures)
    (tracker : PageLoadTracker) (values : List Load) (now : Nat) :
    respond setup ending (Holders.after setup documents).documents failures tracker values now =
      let blamed := blameLoad setup.hosts tracker values now (blameProxy failures (verdictIn setup ending documents))
      { success := blamed.success
        statusCode :=
          if 0 < (documentIn setup documents).status then (documentIn setup documents).status else ending.pageStatus
        errorMessage := blamed.message
        errorCode := blamed.code
        responseHeaders := (documentIn setup documents).headers } := by
  have same (target : Option String) : ending.verdict setup.requestedUrl (finalUrlIn setup ending documents)
      (if ending.navigationError.isNone then target else none) =
        ending.verdict setup.requestedUrl (finalUrlIn setup ending documents) target := by
    unfold Ending.verdict
    cases ending.navigationError <;> rfl
  have verdict := same (crossSiteRedirectTarget setup.hosts setup.requestedUrl (finalUrlIn setup ending documents))
  rw [after_eq]
  simp only [verdictIn,← verdict]
  rfl

section Page

variable {page : Page}

theorem outcome_ne_incomplete (page : Page) : page.outcome ≠ .pageLoadIncomplete := by
  obtain ⟨navigation,redirected,wait,_,_,_⟩ := page
  cases navigation <;> cases redirected <;> cases wait <;> exact ErrorCode.noConfusion

theorem reply_proxy (lost : page.proxyFailures = true)
    (explains : page.outcome = .selectorNotFound ∨ page.outcome = .timeoutBrowser) :
    (page.reply none).errorCode = .proxyError := by
  simp only [Page.reply,Page.blameProxy,if_pos (And.intro lost explains)]
  simp [Page.blameLoad]

theorem reply_load (spared : page.proxyFailures = false) (missing : page.outcome = .selectorNotFound)
    (found : page.incomplete = true) : (page.reply none).errorCode = .pageLoadIncomplete := by
  simp [Page.reply,Page.blameProxy,Page.blameLoad,spared,missing,found]

theorem reply_none
    (spared : page.proxyFailures = false ∨ page.outcome ≠ .selectorNotFound ∧ page.outcome ≠ .timeoutBrowser)
    (complete : page.outcome = .selectorNotFound → page.incomplete = false) :
    (page.reply none).errorCode = page.outcome := by
  have proxy : page.blameProxy page.outcome = page.outcome := by
    rw [Page.blameProxy,if_neg]
    rintro ⟨lost,explains⟩
    rcases spared with none_ | other
    · rw [none_] at lost
      contradiction
    · exact explains.elim other.1 other.2
  rw [Page.reply,proxy,Page.blameLoad,if_neg]
  rintro ⟨found,missing⟩
  rw [complete missing] at found
  contradiction

end Page

/-- However the events come, the response tells the outcome of the page they show: the status
and headers of the latest top-level document, the code that `Page.reply` gives it, and in the
message every lost load and every marker. -/
theorem response_told_by_events (setup : Setup) (ending : Ending) (documents failures loading : History) (now : Nat)
    (roomy : Roomy (pageLoads setup loading)) (values : List Load)
    (order : values.Perm ((Holders.after setup loading).pageLoad.loads.entries.map Sigma.snd)) :
    Tells setup ending documents failures loading now
      (respond setup ending (Holders.after setup documents).documents (Holders.after setup failures).proxyFailures
        (Holders.after setup loading).pageLoad values now) := by
  obtain ⟨markers,marked,listed⟩ := verdictAt_markers roomy now order
  have ways := blamed setup (verdictIn setup ending documents) failures loading markers marked listed
  have alike : (verdictIn setup ending documents).Alike := verdict_alike ..
  have outcome := outcome_eq setup ending documents failures loading now
  have bare := outcome_ne_incomplete (pageSeen setup ending documents failures loading now)
  have succeeded : (verdictIn setup ending documents).success =
      ((pageSeen setup ending documents failures loading now).reply none).success := by
    rw [Page.reply,outcome,Bool.eq_iff_iff,alike.coded,decide_eq_true_iff]
  rw [respond_eq]
  generalize blameLoad setup.hosts (Holders.after setup loading).pageLoad values now
    (blameProxy (Holders.after setup failures).proxyFailures (verdictIn setup ending documents)) = after_ at ways ⊢
  cases ways with
  | proxy lost explains =>
    have other : (verdictIn setup ending documents).code ≠ .none ∧ (verdictIn setup ending documents).code ≠ .proxyError := by
      rcases explains with same | same <;> rw [same] <;> decide
    obtain ⟨failed,said⟩ := alike.fails other.1
    rw [← outcome] at explains
    refine ⟨succeeded,rfl,(reply_proxy (decide_eq_true lost) explains).symm,rfl,?_,fun _ _ => rfl,by rintro ⟨⟩,?_⟩
    · exact ⟨fun empty => (lostMessage_ne said _ _ empty).elim,fun well => absurd well failed⟩
    · exact fun same => absurd same.symm other.2
  | load spared missing found =>
    obtain ⟨failed,said⟩ := alike.fails (by rw [missing]; decide)
    rw [← outcome] at missing
    have none_ : (pageSeen setup ending documents failures loading now).proxyFailures = false := by simp [pageSeen,spared]
    refine ⟨succeeded,rfl,(reply_load none_ missing found).symm,rfl,?_,by rintro _ ⟨⟩,fun _ => ⟨markers,marked,rfl⟩,?_⟩
    · exact ⟨fun empty => (incompleteMessage_ne said _ _ empty).elim,fun well => absurd well failed⟩
    · exact fun same => absurd (outcome.trans same.symm) bare
  | none spared complete =>
    rw [← outcome] at spared complete
    have code : ((pageSeen setup ending documents failures loading now).reply none).errorCode =
        (pageSeen setup ending documents failures loading now).outcome := by
      apply reply_none _ complete
      exact spared.imp_left fun none_ => by simp [pageSeen,none_]
    refine ⟨succeeded,rfl,(code.trans outcome).symm,rfl,alike.silent,fun other => absurd rfl other,?_,fun _ => rfl⟩
    exact fun same => absurd (outcome.trans same) bare

def exampleSetup : Setup := ⟨PageLoad.exampleHosts,"F",[],"https://example.com",⟨"","",∅⟩⟩

def lostScript : History :=
  [(2,.loadingFailed "2" .script "net::ERR_TUNNEL_CONNECTION_FAILED" none none false),
    (1,.requestWillBeSent "2" "https://example.com/app.js" (some .script) (some "F")),
    (0,.responseReceived "1" .document (some "F") 200 "https://example.com/" none)]

def missingApp : Ending := ⟨none,.waitSelectorNotFound,"","network_idle","#app","","https://example.com/",0⟩

/-- The tunnel is blamed, not the site. -/
theorem response_told_by_events_lost :
    let response := respond exampleSetup missingApp (Holders.after exampleSetup lostScript).documents
      (Holders.after exampleSetup lostScript).proxyFailures (Holders.after exampleSetup lostScript).pageLoad
      ((Holders.after exampleSetup lostScript).pageLoad.loads.entries.map Sigma.snd) 3
    response.errorCode = .proxyError ∧ response.statusCode = 200 ∧
      response.errorMessage = "Wait selector '#app' was not found within timeout — 1 resource load(s) failed with a " ++
        "proxy/tunnel error: Script net::ERR_TUNNEL_CONNECTION_FAILED" := by
  have told := response_told_by_events exampleSetup missingApp lostScript lostScript lostScript 3
    (PageLoad.roomy_of_short (by decide)) _ (.refl _)
  have code := told.errorCode.trans (show _ = ErrorCode.proxyError by decide +kernel)
  refine ⟨code,told.statusCode.trans (by decide +kernel),?_⟩
  rw [told.lost (by rw [code]; decide +kernel) code]
  decide +kernel

end BrowserHive.Worker.Observer
