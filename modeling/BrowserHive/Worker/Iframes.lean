import BrowserHive.Worker.ThirdParty

/-! The iframes of the browser, sampled from its target list: a frame is counted when a run
of samples that hold it begins. -/
namespace BrowserHive.Worker.ThirdParty

open PageLoad (Hosts)

structure TargetInfo where
  targetId : String
  targetType : String
  url : String
  browserContextId : Option String
  deriving DecidableEq, Repr

abbrev Sites := AList (fun _ : String => String)

def siteOf (sites : Sites) (target : TargetInfo) : Option String :=
  target.browserContextId.bind fun id => sites.lookup id

abbrev Frames := List (String × String) × Finset (String × String)

def newIframe (hosts : Hosts) (sites : Sites) (seen : Finset (String × String)) (frames : Frames)
    (target : TargetInfo) : Frames :=
  match hosts.hostOf target.url with
  | none => frames
  | some host =>
    let key := (target.targetId,host)
    let site := (siteOf sites target).getD unknownSite
    let found :=
      if key ∉ seen then
        if site = unknownSite ∨ hosts.isCrossSite site host then frames.1 ++ [(site,host)] else frames.1
      else frames.1
    (found,insert key frames.2)

def newIframes (hosts : Hosts) (targets : List TargetInfo) (sites : Sites) (seen : Finset (String × String)) : Frames :=
  (targets.filter (·.targetType = "iframe")).foldl (newIframe hosts sites seen) ([],∅)

structure Sample where
  targets : List TargetInfo
  sites : Sites
  distinct : (targets.map TargetInfo.targetId).Nodup

def sampleAll (hosts : Hosts) (seen : Finset (String × String)) : List Sample → List Frames
  | [] => []
  | s :: rest =>
    let frames := newIframes hosts s.targets s.sites seen
    frames :: sampleAll hosts frames.2 rest

namespace Sample

/-- The sample has an iframe of that target id, at that host. -/
def Shows (hosts : Hosts) (s : Sample) (pair : String × String) : Prop :=
  ∃ t ∈ s.targets, t.targetType = "iframe" ∧ t.targetId = pair.1 ∧ hosts.hostOf t.url = some pair.2

def site (s : Sample) (targetId : String) : Option String :=
  (s.targets.find? (·.targetId = targetId)).bind (siteOf s.sites)

/-- The site is unknown (a page without a host is at `unknownSite`) or another one than the
frame's. -/
def Foreign (hosts : Hosts) (s : Sample) (pair : String × String) : Prop :=
  ∀ site, s.site pair.1 = some site → site = unknownSite ∨ hosts.isCrossSite site pair.2 = true

end Sample

/-- A maximal run of consecutive samples that show a pair. -/
structure MaximalRun (hosts : Hosts) (samples : List Sample) (pair : String × String) (first last : Nat) : Prop where
  ordered : first ≤ last
  shown : ∀ k, first ≤ k → k ≤ last → ∃ s, samples[k]? = some s ∧ s.Shows hosts pair
  starts : ∀ k s, k + 1 = first → samples[k]? = some s → ¬s.Shows hosts pair
  ends : ∀ s, samples[last + 1]? = some s → ¬s.Shows hosts pair

/-- The `k`-th sample reports the foreign pairs whose run begins with it, each once, under the
site of its context, and remembers the pairs it shows. -/
structure ReportsStarts (hosts : Hosts) (samples : List Sample) (k : Nat) (s : Sample) (frames : Frames) : Prop where
  reported : ∃ pairs : List (String × String), pairs.Nodup ∧
    frames.1 = pairs.map (fun pair => ((s.site pair.1).getD unknownSite,pair.2)) ∧
    ∀ pair, pair ∈ pairs ↔ (∃ last, MaximalRun hosts samples pair k last) ∧ s.Foreign hosts pair
  remembered : ∀ pair, pair ∈ frames.2 ↔ s.Shows hosts pair

section

variable {hosts : Hosts} {sites : Sites} {seen : Finset (String × String)} {s : Sample}

def keyed (hosts : Hosts) (targets : List TargetInfo) : List (TargetInfo × String) :=
  (targets.filter (·.targetType = "iframe")).filterMap fun t => (hosts.hostOf t.url).map (t,·)

theorem mem_keyed {targets : List TargetInfo} {t : TargetInfo} {host : String} : (t,host) ∈ keyed hosts targets ↔
    t ∈ targets ∧ t.targetType = "iframe" ∧ hosts.hostOf t.url = some host := by
  simp only [keyed,List.mem_filterMap,List.mem_filter,decide_eq_true_eq,Option.map_eq_some_iff,Prod.mk.injEq]
  constructor
  · rintro ⟨_,⟨mem,iframe⟩,_,at_,rfl,rfl⟩
    exact ⟨mem,iframe,at_⟩
  · rintro ⟨mem,iframe,at_⟩
    exact ⟨t,⟨mem,iframe⟩,host,at_,rfl,rfl⟩

def Fresh (hosts : Hosts) (sites : Sites) (seen : Finset (String × String)) (frame : TargetInfo × String) : Prop :=
  (frame.1.targetId,frame.2) ∉ seen ∧
    ((siteOf sites frame.1).getD unknownSite = unknownSite ∨
      hosts.isCrossSite ((siteOf sites frame.1).getD unknownSite) frame.2 = true)

instance (frame : TargetInfo × String) : Decidable (Fresh hosts sites seen frame) := by
  unfold Fresh
  infer_instance

theorem newIframes_eq (hosts : Hosts) (targets : List TargetInfo) (sites : Sites) (seen : Finset (String × String)) :
    newIframes hosts targets sites seen =
      (((keyed hosts targets).filter (fun frame => Fresh hosts sites seen frame)).map
          (fun frame => ((siteOf sites frame.1).getD unknownSite,frame.2)),
        ((keyed hosts targets).map (fun frame => (frame.1.targetId,frame.2))).toFinset) := by
  have loop : ∀ (list : List TargetInfo) (frames : Frames), list.foldl (newIframe hosts sites seen) frames =
      (frames.1 ++ ((list.filterMap fun t => (hosts.hostOf t.url).map (t,·)).filter
          (fun frame => Fresh hosts sites seen frame)).map
          (fun frame => ((siteOf sites frame.1).getD unknownSite,frame.2)),
        frames.2 ∪ ((list.filterMap fun t => (hosts.hostOf t.url).map (t,·)).map
          (fun frame => (frame.1.targetId,frame.2))).toFinset) := by
    intro list
    induction list with
    | nil => intro frames; simp
    | cons t rest ih =>
      intro frames
      rw [List.foldl_cons,ih,newIframe]
      cases at_ : hosts.hostOf t.url with
      | none => simp [at_]
      | some host =>
        by_cases new : (t.targetId,host) ∈ seen <;>
          by_cases foreign : (siteOf sites t).getD unknownSite = unknownSite ∨
            hosts.isCrossSite ((siteOf sites t).getD unknownSite) host = true <;>
          simp [at_,Fresh,new,foreign]
  rw [newIframes,loop]
  simp [keyed]

theorem Sample.site_of_mem {t : TargetInfo} (mem : t ∈ s.targets) : s.site t.targetId = siteOf s.sites t := by
  cases found : s.targets.find? (·.targetId = t.targetId) with
  | none =>
    have other := List.find?_eq_none.mp found t mem
    simp at other
  | some u =>
    have same : u.targetId = t.targetId := by simpa using List.find?_some found
    obtain rfl := List.inj_on_of_nodup_map s.distinct (List.mem_of_find?_eq_some found) mem same
    rw [Sample.site,found,Option.bind_some]

theorem nodup_keyed (hosts : Hosts) (s : Sample) :
    (keyed hosts s.targets).Pairwise (fun f g => f.1.targetId ≠ g.1.targetId) := by
  have apart : s.targets.Pairwise (fun t u => t.targetId ≠ u.targetId) := List.pairwise_map.mp s.distinct
  rw [keyed,List.pairwise_filterMap]
  refine (apart.filter _).imp fun {t u} differ f first g second => ?_
  obtain ⟨_,_,rfl⟩ := Option.map_eq_some_iff.mp first
  obtain ⟨_,_,rfl⟩ := Option.map_eq_some_iff.mp second
  exact differ

theorem fresh_iff {frame : TargetInfo × String} (mem : frame ∈ keyed hosts s.targets) :
    Fresh hosts s.sites seen frame ↔ (frame.1.targetId,frame.2) ∉ seen ∧ s.Foreign hosts (frame.1.targetId,frame.2) := by
  have site := Sample.site_of_mem (mem_keyed.mp mem).1
  rw [Fresh,Sample.Foreign,site]
  refine and_congr_right fun _ => ?_
  cases siteOf s.sites frame.1 with
  | none => simp
  | some known => simp

theorem newIframes_reports (hosts : Hosts) (s : Sample) (seen : Finset (String × String)) :
    (∃ pairs : List (String × String), pairs.Nodup ∧
      (newIframes hosts s.targets s.sites seen).1 =
        pairs.map (fun pair => ((s.site pair.1).getD unknownSite,pair.2)) ∧
      ∀ pair, pair ∈ pairs ↔ s.Shows hosts pair ∧ pair ∉ seen ∧ s.Foreign hosts pair) ∧
    ∀ pair, pair ∈ (newIframes hosts s.targets s.sites seen).2 ↔ s.Shows hosts pair := by
  rw [newIframes_eq]
  constructor
  · refine ⟨((keyed hosts s.targets).filter fun frame => Fresh hosts s.sites seen frame).map
      fun frame => (frame.1.targetId,frame.2),?_,?_,fun pair => ?_⟩
    · refine List.pairwise_map.mpr (((nodup_keyed hosts s).filter _).imp fun differ same => ?_)
      exact differ (congrArg Prod.fst same)
    · rw [List.map_map]
      refine List.map_congr_left fun frame mem => ?_
      have site := Sample.site_of_mem (mem_keyed.mp (List.mem_filter.mp mem).1).1
      simp [site]
    · simp only [List.mem_map,List.mem_filter,decide_eq_true_eq]
      constructor
      · rintro ⟨⟨t,host⟩,⟨mem,fresh⟩,rfl⟩
        obtain ⟨target,iframe,at_⟩ := mem_keyed.mp mem
        exact ⟨⟨t,target,iframe,rfl,at_⟩,(fresh_iff mem).mp fresh⟩
      · rintro ⟨⟨t,target,iframe,own,at_⟩,fresh⟩
        have mem : (t,pair.2) ∈ keyed hosts s.targets := mem_keyed.mpr ⟨target,iframe,at_⟩
        have same : (t.targetId,pair.2) = pair := by rw [own]
        exact ⟨(t,pair.2),⟨mem,(fresh_iff mem).mpr (by rwa [same])⟩,same⟩
  · intro pair
    simp only [List.mem_toFinset,List.mem_map]
    constructor
    · rintro ⟨⟨t,host⟩,mem,rfl⟩
      obtain ⟨target,iframe,at_⟩ := mem_keyed.mp mem
      exact ⟨t,target,iframe,rfl,at_⟩
    · rintro ⟨t,target,iframe,own,at_⟩
      exact ⟨(t,pair.2),mem_keyed.mpr ⟨target,iframe,at_⟩,by rw [own]⟩

variable {samples : List Sample} {pair : String × String}

/-- What a sample shows belongs to a run that ends at it or later. -/
theorem exists_last (k : Nat) (s : Sample) (at_ : samples[k]? = some s) (shows_ : s.Shows hosts pair) :
    ∃ last, k ≤ last ∧ (∀ j, k ≤ j → j ≤ last → ∃ s, samples[j]? = some s ∧ s.Shows hosts pair) ∧
      ∀ s, samples[last + 1]? = some s → ¬s.Shows hosts pair := by
  by_cases more : ∃ t, samples[k + 1]? = some t ∧ t.Shows hosts pair
  · obtain ⟨t,next,also⟩ := more
    have below : k + 1 < samples.length := (List.getElem?_eq_some_iff.mp next).1
    obtain ⟨last,after,shown,ends⟩ := exists_last (k + 1) t next also
    refine ⟨last,Nat.le_of_succ_le after,fun j lower upper => ?_,ends⟩
    rcases Nat.eq_or_lt_of_le lower with rfl | later
    · exact ⟨s,at_,shows_⟩
    · exact shown j later upper
  · refine ⟨k,Nat.le_refl k,fun j lower upper => ?_,fun t next also => more ⟨t,next,also⟩⟩
    obtain rfl := Nat.le_antisymm lower upper
    exact ⟨s,at_,shows_⟩
termination_by samples.length - k

/-- A run begins with the first sample, or after one that does not show the pair. -/
theorem maximalRun_iff {k : Nat} (at_ : samples[k]? = some s) : (∃ last, MaximalRun hosts samples pair k last) ↔
    s.Shows hosts pair ∧ ∀ j t, j + 1 = k → samples[j]? = some t → ¬t.Shows hosts pair := by
  constructor
  · rintro ⟨last,run⟩
    obtain ⟨t,found,shows_⟩ := run.shown k (Nat.le_refl k) run.ordered
    obtain rfl := Option.some.inj (at_.symm.trans found)
    exact ⟨shows_,run.starts⟩
  · rintro ⟨shows_,starts⟩
    obtain ⟨last,ordered,shown,ends⟩ := exists_last k s at_ shows_
    exact ⟨last,ordered,shown,starts,ends⟩

def Remembered (hosts : Hosts) (front : List Sample) (seen : Finset (String × String)) : Prop :=
  ∀ pair, pair ∈ seen ↔ ∃ s, front.getLast? = some s ∧ s.Shows hosts pair

theorem newIframes_starts {front : List Sample} (remembered : Remembered hosts front seen) (s : Sample) (rest : List Sample) :
    ReportsStarts hosts (front ++ s :: rest) front.length s (newIframes hosts s.targets s.sites seen) := by
  obtain ⟨⟨pairs,nodup,reported,mem⟩,shown⟩ := newIframes_reports hosts s seen
  refine ⟨⟨pairs,nodup,reported,fun pair => ?_⟩,shown⟩
  have at_ : (front ++ s :: rest)[front.length]? = some s := by simp
  rw [mem,maximalRun_iff at_,← and_assoc]
  refine and_congr_left fun _ => and_congr_right fun _ => ?_
  rw [remembered]
  constructor
  · rintro absent j t last found shows_
    rw [List.getElem?_append_left (by omega)] at found
    refine absent ⟨t,?_,shows_⟩
    rw [List.getLast?_eq_getElem?,← last]
    exact found
  · rintro starts ⟨t,last,shows_⟩
    rw [List.getLast?_eq_getElem?] at last
    have below : front.length - 1 < front.length := (List.getElem?_eq_some_iff.mp last).1
    refine starts (front.length - 1) t (by omega) ?_ shows_
    rw [List.getElem?_append_left below]
    exact last

/-- Each sample of `back` reports the runs of the whole sequence that begin with it. -/
theorem sampleAll_starts {front : List Sample} (remembered : Remembered hosts front seen) (back : List Sample) (k : Nat)
    {frames : Frames} (at_ : back[k]? = some s) (out : (sampleAll hosts seen back)[k]? = some frames) :
    ReportsStarts hosts (front ++ back) (front.length + k) s frames := by
  induction back generalizing front seen k with
  | nil => simp at at_
  | cons first rest ih =>
    cases k with
    | zero =>
      obtain rfl : first = s := Option.some.inj at_
      obtain rfl := Option.some.inj out
      exact newIframes_starts remembered first rest
    | succ k =>
      have next : Remembered hosts (front ++ [first]) (newIframes hosts first.targets first.sites seen).2 := by
        intro pair
        rw [(newIframes_reports hosts first seen).2]
        simp
      have later := ih next k at_ out
      rw [List.append_assoc,List.length_append,List.length_singleton,Nat.add_assoc,Nat.add_comm 1] at later
      exact later

theorem length_sampleAll (hosts : Hosts) (seen : Finset (String × String)) (samples : List Sample) :
    (sampleAll hosts seen samples).length = samples.length := by
  induction samples generalizing seen with
  | nil => rfl
  | cons s rest ih =>
    rw [sampleAll,List.length_cons,List.length_cons,ih]

end

structure CountsRuns (hosts : Hosts) (samples : List Sample) (out : List Frames) : Prop where
  length : out.length = samples.length
  each : ∀ k s frames, samples[k]? = some s → out[k]? = some frames → ReportsStarts hosts samples k s frames

theorem iframes_reported_once (hosts : Hosts) (samples : List Sample) :
    CountsRuns hosts samples (sampleAll hosts ∅ samples) := by
  refine ⟨length_sampleAll hosts ∅ samples,fun k s frames at_ out => ?_⟩
  have none_yet : Remembered hosts [] ∅ := by
    intro pair
    simp
  have starts := sampleAll_starts none_yet samples k at_ out
  rwa [List.length_nil,Nat.zero_add,List.nil_append] at starts

end BrowserHive.Worker.ThirdParty
