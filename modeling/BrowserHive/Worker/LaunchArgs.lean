import BrowserHive.Lib.Text

/-! The one `--disable-features` switch Chrome is launched with, merged from the defaults of
the crate, the middlewares' arguments and the pool's own features. -/
namespace BrowserHive.Worker.LaunchArgs

abbrev Text := List Char

/-- An argument of a process; one that is not UTF-8 has no text. -/
inductive OsStr where
  | utf8 (text : Text)
  | raw (bytes : List UInt8)
  deriving DecidableEq

def OsStr.toStr : OsStr → Option Text
  | .utf8 text => some text
  | .raw _ => none

def disableFeatures : Text := "--disable-features=".toList

def disabledFeatures (arg : Text) : Option (List Text) :=
  if disableFeatures.isPrefixOf arg then
    some ((((arg.drop disableFeatures.length).splitOn ',').map Text.trim).filter (· ≠ []))
  else none

structure MergedArgs where
  args : List OsStr
  disableFeatures : Option Text
  ignoredDefaults : List Text
  deriving DecidableEq

def addFeature (features : List Text) (f : Text) : List Text := if f ∈ features then features else features ++ [f]

def mergeArg (state : Nat × List OsStr × List Text) (arg : OsStr) : Nat × List OsStr × List Text :=
  match arg.toStr.bind disabledFeatures with
  | some list => (state.1 + 1,state.2.1,list.foldl addFeature state.2.2)
  | none => (state.1,state.2.1 ++ [arg],state.2.2)

def mergeDisableFeatures (crateDefaults : List Text) (args : List OsStr) (extra : List Text) : MergedArgs :=
  let ignoredDefaults := crateDefaults.filter (fun arg => (disabledFeatures arg).isSome)
  let features := (ignoredDefaults.filterMap disabledFeatures).foldl (fun features list => list.foldl addFeature features) []
  let (ownSources,kept,features) := args.foldl mergeArg (0,[],features)
  let features := extra.foldl addFeature features
  if ownSources = 0 ∧ extra = [] then ⟨kept,none,[]⟩
  else ⟨kept,some (disableFeatures ++ List.intercalate [','] features),ignoredDefaults⟩

/-- The command line the crate starts the browser with: its defaults without the ignored ones,
then the given arguments, the merged switch last of them. -/
def commandLine (crateDefaults : List Text) (merged : MergedArgs) : List OsStr :=
  (crateDefaults.filter (· ∉ merged.ignoredDefaults)).map .utf8 ++
    (merged.args ++ (merged.disableFeatures.map OsStr.utf8).toList)

/-- The features `BrowserPool::new` disables besides. -/
def extraDisabled (disableBackForwardCache : Bool) : List Text :=
  if disableBackForwardCache then ["BackForwardCache".toList] else []

/-- A middleware changes the arguments so far, knowing whether the browser is headless. -/
def BrowserPool.newArgs (crateDefaults : List Text) (middlewares : List (Bool → List OsStr → List OsStr))
    (headless disableBackForwardCache : Bool) : List OsStr :=
  let chromeArgs := middlewares.foldl (fun args apply => apply headless args) []
  commandLine crateDefaults (mergeDisableFeatures crateDefaults chromeArgs (extraDisabled disableBackForwardCache))

def OsStr.features (arg : OsStr) : Option (List Text) := arg.toStr.bind disabledFeatures

/-- The browser honours the last switch alone. -/
def disabledBy (line : List OsStr) : List Text := ((line.filterMap OsStr.features).getLast?).getD []

/-- A source names a feature in one of its switches. -/
def Names (args : List Text) (f : Text) : Prop := ∃ arg ∈ args, ∃ list, disabledFeatures arg = some list ∧ f ∈ list

/-- The command line disables what any source names, and passes every other argument on. -/
structure MergesAll (crateDefaults args extra : List Text) (line : List OsStr) : Prop where
  disables : ∀ f, f ∈ disabledBy line ↔ f ≠ [] ∧ (Names crateDefaults f ∨ Names args f ∨ f ∈ extra)
  keeps : line.filter (fun arg => arg.features.isNone) =
    ((crateDefaults ++ args).filter (fun arg => (disabledFeatures arg).isNone)).map .utf8

section

variable {crateDefaults args extra : List Text} {f : Text} {features list : List Text}

def Plain (f : Text) : Prop := ',' ∉ f ∧ Text.trim f = f

theorem disabledFeatures_plain (found : disabledFeatures arg = some list) (mem : f ∈ list) : Plain f ∧ f ≠ [] := by
  rw [disabledFeatures] at found
  split at found
  · obtain rfl := Option.some.inj found
    obtain ⟨trimmed,nonempty⟩ := List.mem_filter.mp mem
    obtain ⟨part,own,rfl⟩ := List.mem_map.mp trimmed
    have comma : ',' ∉ part := Text.splitOn_parts own
    exact ⟨⟨fun inside => comma (Text.mem_of_mem_trim inside),Text.trim_trim part⟩,by simpa using nonempty⟩
  · contradiction

/-- A merged switch is read back as its non-empty features. -/
theorem disabledFeatures_merged (plain : ∀ f ∈ features, Plain f) :
    disabledFeatures (disableFeatures ++ List.intercalate [','] features) = some (features.filter (· ≠ [])) := by
  have isSwitch : disableFeatures.isPrefixOf (disableFeatures ++ List.intercalate [','] features) = true :=
    List.isPrefixOf_iff_prefix.mpr (List.prefix_append _ _)
  have trimmed : features.map Text.trim = features :=
    (List.map_congr_left fun f mem => (plain f mem).2).trans (List.map_id features)
  rw [disabledFeatures,if_pos isSwitch,List.drop_left]
  cases features with
  | nil => rfl
  | cons f rest =>
    rw [List.splitOn_intercalate ',' (fun g mem => (plain g mem).1) (List.cons_ne_nil f rest),trimmed]

theorem mem_addFeature (features : List Text) (f g : Text) : g ∈ addFeature features f ↔ g ∈ features ∨ g = f := by
  rw [addFeature]
  split
  · next known =>
    constructor
    · exact .inl
    · rintro (old | rfl)
      · exact old
      · exact known
  · simp

theorem mem_foldl_addFeature (list features : List Text) (g : Text) :
    g ∈ list.foldl addFeature features ↔ g ∈ features ∨ g ∈ list := by
  induction list generalizing features with
  | nil => simp
  | cons f rest ih => rw [List.foldl_cons,ih,mem_addFeature,List.mem_cons,or_assoc]

theorem mem_foldl_lists (lists : List (List Text)) (features : List Text) (g : Text) :
    g ∈ lists.foldl (fun features list => list.foldl addFeature features) features ↔
      g ∈ features ∨ ∃ list ∈ lists, g ∈ list := by
  induction lists generalizing features with
  | nil => simp
  | cons list rest ih =>
    rw [List.foldl_cons,ih,mem_foldl_addFeature,or_assoc]
    simp

/-- The loop over the arguments takes their switches out. -/
theorem foldl_mergeArg (args : List OsStr) (own : Nat) (kept : List OsStr) (features : List Text) :
    args.foldl mergeArg (own,kept,features) =
      (own + (args.filterMap OsStr.features).length,kept ++ args.filter (fun arg => arg.features.isNone),
        (args.filterMap OsStr.features).foldl (fun features list => list.foldl addFeature features) features) := by
  induction args generalizing own kept features with
  | nil => simp
  | cons arg rest ih =>
    rw [List.foldl_cons,mergeArg,← OsStr.features]
    cases found : arg.features with
    | some list =>
      simp only [ih,List.filterMap_cons,List.filter_cons,found,List.length_cons,List.foldl_cons,Option.isNone_some]
      simp only [Bool.false_eq_true,if_false,Prod.mk.injEq,and_true]
      omega
    | none => simp [ih,found]

theorem names_iff (args : List Text) (f : Text) : Names args f ↔ ∃ list ∈ args.filterMap disabledFeatures, f ∈ list := by
  simp only [Names,List.mem_filterMap]
  constructor
  · rintro ⟨arg,mem,list,found,named⟩
    exact ⟨list,⟨arg,mem,found⟩,named⟩
  · rintro ⟨list,⟨arg,mem,found⟩,named⟩
    exact ⟨arg,mem,list,found,named⟩

theorem names_plain (named : Names args f) : Plain f ∧ f ≠ [] := by
  obtain ⟨_,_,_,found,mem⟩ := named
  exact disabledFeatures_plain found mem

@[simp] theorem features_utf8 (args : List Text) :
    (args.map OsStr.utf8).filterMap OsStr.features = args.filterMap disabledFeatures := by
  rw [List.filterMap_map]
  rfl

@[simp] theorem filter_utf8 (args : List Text) : (args.map OsStr.utf8).filter (fun arg => arg.features.isNone) =
    (args.filter (fun arg => (disabledFeatures arg).isNone)).map .utf8 := by
  rw [List.filter_map]
  rfl

def allFeatures (crateDefaults args extra : List Text) : List Text :=
  extra.foldl addFeature ((args.filterMap disabledFeatures).foldl (fun features list => list.foldl addFeature features)
    (((crateDefaults.filter (fun arg => (disabledFeatures arg).isSome)).filterMap disabledFeatures).foldl
      (fun features list => list.foldl addFeature features) []))

theorem mem_allFeatures (crateDefaults args extra : List Text) (f : Text) :
    f ∈ allFeatures crateDefaults args extra ↔ Names crateDefaults f ∨ Names args f ∨ f ∈ extra := by
  have defaults : (crateDefaults.filter (fun arg => (disabledFeatures arg).isSome)).filterMap disabledFeatures =
      crateDefaults.filterMap disabledFeatures := by
    rw [List.filterMap_filter]
    refine List.filterMap_congr fun arg _ => ?_
    cases disabledFeatures arg <;> rfl
  rw [allFeatures,mem_foldl_addFeature,mem_foldl_lists,mem_foldl_lists,defaults,names_iff,names_iff,or_assoc,or_assoc]
  simp only [List.not_mem_nil,false_or]

/-- What the merge makes of texts. -/
theorem mergeDisableFeatures_eq (crateDefaults args extra : List Text) :
    mergeDisableFeatures crateDefaults (args.map .utf8) extra =
      if args.filterMap disabledFeatures = [] ∧ extra = [] then
        ⟨(args.filter (fun arg => (disabledFeatures arg).isNone)).map .utf8,none,[]⟩
      else
        ⟨(args.filter (fun arg => (disabledFeatures arg).isNone)).map .utf8,
          some (disableFeatures ++ List.intercalate [','] (allFeatures crateDefaults args extra)),
          crateDefaults.filter (fun arg => (disabledFeatures arg).isSome)⟩ := by
  rw [mergeDisableFeatures,foldl_mergeArg,features_utf8,filter_utf8]
  simp only [Nat.zero_add,List.nil_append,List.length_eq_zero_iff]
  rfl

/-- Where at most one switch stands, the last one is all of them. -/
theorem mem_getLast {lists : List (List Text)} (short : lists.length ≤ 1) :
    f ∈ lists.getLast?.getD [] ↔ ∃ list ∈ lists, f ∈ list := by
  match lists with
  | [] => simp
  | [list] => simp
  | _ :: _ :: _ => simp at short

theorem mergesAll_unasked (none_ : args.filterMap disabledFeatures = [])
    (single : (crateDefaults.filter (fun arg => (disabledFeatures arg).isSome)).length ≤ 1) :
    MergesAll crateDefaults args [] ((crateDefaults ++ args).map .utf8) := by
  refine ⟨fun f => ?_,filter_utf8 _⟩
  have short : (crateDefaults.filterMap disabledFeatures).length ≤ 1 := by
    rwa [List.length_filterMap_eq_countP,List.countP_eq_length_filter]
  have unnamed : ¬Names args f := by
    rw [names_iff,none_]
    simp
  rw [disabledBy,features_utf8,List.filterMap_append,none_,List.append_nil,mem_getLast short,← names_iff]
  constructor
  · exact fun named => ⟨(names_plain named).2,.inl named⟩
  · rintro ⟨_,named | named | named⟩
    · exact named
    · exact absurd named unnamed
    · exact absurd named List.not_mem_nil

theorem mergesAll_merged (plain : ∀ f ∈ extra, Plain f) :
    MergesAll crateDefaults args extra
      ((crateDefaults.filter (fun arg => (disabledFeatures arg).isNone)).map .utf8 ++
        ((args.filter (fun arg => (disabledFeatures arg).isNone)).map .utf8 ++
          [.utf8 (disableFeatures ++ List.intercalate [','] (allFeatures crateDefaults args extra))])) := by
  have all : ∀ f ∈ allFeatures crateDefaults args extra, Plain f := by
    intro f mem
    rcases (mem_allFeatures _ _ _ _).mp mem with named | named | own
    · exact (names_plain named).1
    · exact (names_plain named).1
    · exact plain f own
  have last : OsStr.features (.utf8 (disableFeatures ++ List.intercalate [','] (allFeatures crateDefaults args extra))) =
      some ((allFeatures crateDefaults args extra).filter (· ≠ [])) := disabledFeatures_merged all
  constructor
  · intro f
    rw [disabledBy,List.filterMap_append,List.filterMap_append,List.filterMap_cons,last,← List.append_assoc]
    simp only [List.filterMap_nil,List.getLast?_concat,Option.getD_some,List.mem_filter,decide_eq_true_eq]
    rw [mem_allFeatures,and_comm]
  · rw [List.filter_append,List.filter_append,filter_utf8,filter_utf8,List.filter_filter,List.filter_filter,
      List.filter_cons,last]
    simp

theorem mergesAll_commandLine (crateDefaults args extra : List Text)
    (single : (crateDefaults.filter (fun arg => (disabledFeatures arg).isSome)).length ≤ 1)
    (plain : ∀ f ∈ extra, Plain f) :
    MergesAll crateDefaults args extra
      (commandLine crateDefaults (mergeDisableFeatures crateDefaults (args.map .utf8) extra)) := by
  rw [mergeDisableFeatures_eq]
  split
  · next unasked =>
    obtain ⟨none_,rfl⟩ := unasked
    have kept : args.filter (fun arg => (disabledFeatures arg).isNone) = args := by
      refine List.filter_eq_self.mpr fun arg own => ?_
      exact Option.isNone_iff_eq_none.mpr (List.filterMap_eq_nil_iff.mp none_ arg own)
    have line : commandLine crateDefaults ⟨args.map .utf8,none,[]⟩ = (crateDefaults ++ args).map .utf8 := by
      simp [commandLine]
    rw [kept,line]
    exact mergesAll_unasked none_ single
  · have dropped : crateDefaults.filter (· ∉ crateDefaults.filter (fun arg => (disabledFeatures arg).isSome)) =
        crateDefaults.filter (fun arg => (disabledFeatures arg).isNone) := by
      refine List.filter_congr fun arg mem => ?_
      cases found : disabledFeatures arg <;> simp [found,mem]
    rw [commandLine,dropped]
    exact mergesAll_merged plain

end

theorem extraDisabled_plain (disableBackForwardCache : Bool) : ∀ f ∈ extraDisabled disableBackForwardCache, Plain f := by
  have name : Plain "BackForwardCache".toList := ⟨by decide,by decide⟩
  intro f mem
  cases disableBackForwardCache with
  | false => exact absurd mem List.not_mem_nil
  | true => exact List.mem_singleton.mp mem ▸ name

/-- The merged command line disables what all sources name together, and changes nothing
else; so does the one of the pool. -/
theorem merged_disables_union (crateDefaults args extra : List Text)
    (single : (crateDefaults.filter (fun arg => (disabledFeatures arg).isSome)).length ≤ 1)
    (plain : ∀ f ∈ extra, Plain f) :
    MergesAll crateDefaults args extra
      (commandLine crateDefaults (mergeDisableFeatures crateDefaults (args.map .utf8) extra)) ∧
    ∀ (middlewares : List (Bool → List OsStr → List OsStr)) (headless disableBackForwardCache : Bool),
      middlewares.foldl (fun args apply => apply headless args) [] = args.map .utf8 →
      MergesAll crateDefaults args (extraDisabled disableBackForwardCache)
        (BrowserPool.newArgs crateDefaults middlewares headless disableBackForwardCache) := by
  refine ⟨mergesAll_commandLine crateDefaults args extra single plain,fun middlewares headless cache texts => ?_⟩
  rw [BrowserPool.newArgs,texts]
  exact mergesAll_commandLine crateDefaults args _ single (extraDisabled_plain cache)

theorem merged_two_switches :
    MergesAll ["--disable-sync".toList,"--disable-features=TranslateUI".toList]
      ["--mute-audio".toList,"--disable-features=TranslateUI, ,site-per-process".toList] ["BackForwardCache".toList]
      (commandLine ["--disable-sync".toList,"--disable-features=TranslateUI".toList]
        (mergeDisableFeatures ["--disable-sync".toList,"--disable-features=TranslateUI".toList]
          (["--mute-audio".toList,"--disable-features=TranslateUI, ,site-per-process".toList].map .utf8)
          ["BackForwardCache".toList])) :=
  (merged_disables_union _ _ _ (by decide) (extraDisabled_plain true)).1

end BrowserHive.Worker.LaunchArgs
