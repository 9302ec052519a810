import BrowserHive.Worker.PageLoad

/-! Which requests diagnostics are captured for: a list of domains against the host of the
requested URL. -/
namespace BrowserHive.DomainFilter

open Worker.PageLoad (Hosts)

abbrev Text := List Char

def toAsciiLowercase (text : Text) : Text := text.map Char.toLower

def trimStartDots (text : Text) : Text := text.dropWhile (· = '.')

def trimEndDots (text : Text) : Text := text.rdropWhile (· = '.')

inductive DiagnosticsMode where
  | off
  | onError
  | always
  deriving DecidableEq, Repr

structure DiagnosticsConfig where
  enabled : Bool
  mode : DiagnosticsMode
  domains : List Text
  deriving DecidableEq, Repr

def parseDomainList (raw : Text) : List Text :=
  ((raw.splitOn ',').map fun d => toAsciiLowercase (trimStartDots (Text.trim d))).filter (· ≠ [])

def hostMatches (host domain : Text) : Bool :=
  host = domain ||
    (domain.length < host.length && domain.isSuffixOf host && host[host.length - domain.length - 1]? = some '.')

def DiagnosticsConfig.isActiveFor (hosts : Hosts) (c : DiagnosticsConfig) (url : String) : Bool :=
  if !c.enabled || c.mode = .off then false
  else if c.domains.isEmpty then true
  else
    match (hosts.parse url).bind Prod.snd with
    | some host => c.domains.any fun d => hostMatches (toAsciiLowercase (trimEndDots host.toList)) d
    | none => false

def bare (name : Text) : Text := trimStartDots (trimEndDots name)

def labels (name : Text) : List Text := (toAsciiLowercase (bare name)).splitOn '.'

def entries (raw : Text) : List Text := ((raw.splitOn ',').map Text.trim).filter (bare · ≠ [])

def Covers (entry host : Text) : Prop := labels entry <:+ labels host

/-- The filter as it is meant. -/
def Selected (raw host : Text) : Prop := entries raw = [] ∨ ∃ entry ∈ entries raw, Covers entry host

def Qualified (entry : Text) : Prop := entry.getLast? = some '.'

section

variable {text host entry domain : Text}

theorem toLower_eq_dot (c : Char) : c.toLower = '.' ↔ c = '.' := by
  have dot : ('.' : Char).val.toNat = 46 := rfl
  by_cases upper : c.val ≥ 'A'.val ∧ c.val ≤ 'Z'.val
  · have lower : 65 ≤ c.val.toNat := UInt32.le_iff_toNat_le.mp upper.1
    have above : c.val.toNat ≤ 90 := UInt32.le_iff_toNat_le.mp upper.2
    have value : c.toLower.val = c.val + ('a'.val - 'A'.val) := congrArg Char.val (dif_pos upper)
    constructor
    · intro same
      have sum := congrArg UInt32.toNat value
      rw [same,UInt32.toNat_add] at sum
      have shift : ('a'.val - 'A'.val).toNat = 32 := rfl
      omega
    · rintro rfl
      omega
  · have same : c.toLower = c := dif_neg upper
    rw [same]

theorem trimStartDots_lowercase (text : Text) :
    trimStartDots (toAsciiLowercase text) = toAsciiLowercase (trimStartDots text) := by
  rw [trimStartDots,toAsciiLowercase,List.dropWhile_map]
  simp [Function.comp_def,toLower_eq_dot,trimStartDots,toAsciiLowercase]

/-- A match ends the host, after a dot or as all of it. -/
theorem hostMatches_iff (host domain : Text) :
    hostMatches host domain = true ↔ host = domain ∨ ∃ front, host = front ++ '.' :: domain := by
  simp only [hostMatches,Bool.or_eq_true,Bool.and_eq_true,decide_eq_true_eq,List.isSuffixOf_iff_suffix]
  refine or_congr_right ⟨?_,?_⟩
  · rintro ⟨⟨longer,front,rfl⟩,dot⟩
    have length : (front ++ domain).length - domain.length - 1 = front.length - 1 := by
      rw [List.length_append]
      omega
    rw [length] at dot
    rcases front.eq_nil_or_concat' with rfl | ⟨before,last,rfl⟩
    · simp at longer
    · have own : last = '.' := by simpa using dot
      exact ⟨before,by simp [own]⟩
  · rintro ⟨front,rfl⟩
    refine ⟨⟨by simp; omega,⟨front ++ ['.'],by simp⟩⟩,?_⟩
    have length : (front ++ '.' :: domain).length - domain.length - 1 = front.length := by
      simp only [List.length_append,List.length_cons]
      omega
    rw [length]
    simp

theorem trimStartDots_eq_nil (text : Text) : trimStartDots text = [] ↔ ∀ c ∈ text, c = '.' := by
  simp [trimStartDots]

theorem bare_eq_nil (text : Text) : bare text = [] ↔ trimStartDots text = [] := by
  rw [bare,trimStartDots_eq_nil,trimStartDots_eq_nil]
  constructor
  · intro dots c mem
    rw [← List.rdropWhile_append_rtakeWhile (p := (· = '.')) (l := text)] at mem
    rcases List.mem_append.mp mem with front | back
    · exact dots c front
    · simpa using List.mem_rtakeWhile_imp back
  · intro dots c mem
    exact dots c ((List.rdropWhile_prefix _ _).subset mem)

theorem trimEndDots_of_not_qualified (unqualified : ¬Qualified entry) : trimEndDots entry = entry := by
  refine List.rdropWhile_eq_self_iff.mpr fun some_ dot => unqualified ?_
  rw [Qualified,List.getLast?_eq_getLast_of_ne_nil some_]
  exact congrArg some (of_decide_eq_true dot)

theorem not_qualified_trimEndDots (text : Text) : ¬Qualified (toAsciiLowercase (trimEndDots text)) := by
  intro dot
  rw [Qualified,toAsciiLowercase,List.getLast?_map,Option.map_eq_some_iff] at dot
  obtain ⟨c,last,lower⟩ := dot
  have some_ : trimEndDots text ≠ [] := by
    intro empty
    simp [empty] at last
  have own : (trimEndDots text).getLast some_ = c :=
    Option.some.inj ((List.getLast?_eq_getLast_of_ne_nil some_).symm.trans last)
  have kept := List.rdropWhile_last_not (· = '.') text some_
  exact kept (decide_eq_true (own.trans ((toLower_eq_dot c).mp lower)))

/-- Dots before the host do not matter to a domain that starts with none. -/
theorem ends_trimStartDots (plain : domain.head? ≠ some '.') (some_ : domain ≠ []) :
    (host = domain ∨ ∃ front, host = front ++ '.' :: domain) ↔
      trimStartDots host = domain ∨ ∃ front, trimStartDots host = front ++ '.' :: domain := by
  have kept : trimStartDots domain = domain := by
    cases domain with
    | nil => exact absurd rfl some_
    | cons c rest =>
      have letter : c ≠ '.' := fun same => plain (by simp [same])
      simp [trimStartDots,letter]
  constructor
  · rintro (rfl | ⟨front,rfl⟩)
    · exact .inl kept
    · rw [trimStartDots,List.dropWhile_append]
      split
      · left
        exact kept
      · exact .inr ⟨_,rfl⟩
  · have whole : host.takeWhile (· = '.') ++ trimStartDots host = host := List.takeWhile_append_dropWhile
    rintro (same | ⟨front,same⟩)
    · rcases (host.takeWhile (· = '.')).eq_nil_or_concat' with none_ | ⟨front,last,dots⟩
      · left
        rw [← whole,none_,same]
        rfl
      · right
        have dot : last = '.' := by
          have mem : last ∈ host.takeWhile (· = '.') := by simp [dots]
          simpa using List.mem_takeWhile_imp mem
        refine ⟨front,?_⟩
        rw [← whole,dots,same,dot]
        simp
    · right
      refine ⟨host.takeWhile (· = '.') ++ front,?_⟩
      rw [List.append_assoc,← same,whole]

theorem head_lowercase (text : Text) : (toAsciiLowercase (trimStartDots text)).head? ≠ some '.' := by
  intro dot
  rw [toAsciiLowercase,List.head?_map,Option.map_eq_some_iff] at dot
  obtain ⟨c,first,lower⟩ := dot
  have kept := List.head?_dropWhile_not (· = '.') text
  rw [trimStartDots] at first
  rw [first] at kept
  simp [(toLower_eq_dot c).mp lower] at kept

/-- An entry is matched against a host as it is meant when it is not fully qualified; else
it never matches. -/
theorem hostMatches_entry (host : Text) (named : bare entry ≠ []) :
    hostMatches (toAsciiLowercase (trimEndDots host)) (toAsciiLowercase (trimStartDots entry)) = true ↔
      ¬Qualified entry ∧ Covers entry host := by
  have some_ : trimStartDots entry ≠ [] := mt (bare_eq_nil entry).mpr named
  have lowered : toAsciiLowercase (trimStartDots entry) ≠ [] := by simpa [toAsciiLowercase] using some_
  by_cases qualified : Qualified entry
  · refine iff_of_false (fun matches_ => ?_) (fun both => both.1 qualified)
    have dot : Qualified (toAsciiLowercase (trimStartDots entry)) := by
      have last : (trimStartDots entry).getLast? = some '.' := by
        obtain ⟨front,whole⟩ : trimStartDots entry <:+ entry := List.dropWhile_suffix _
        rw [Qualified,← whole,List.getLast?_append,List.getLast?_eq_getLast_of_ne_nil some_] at qualified
        rw [List.getLast?_eq_getLast_of_ne_nil some_]
        exact qualified
      rw [Qualified,toAsciiLowercase,List.getLast?_map,last]
      rfl
    have hostDot : Qualified (toAsciiLowercase (trimEndDots host)) := by
      rcases (hostMatches_iff _ _).mp matches_ with same | ⟨front,same⟩
      · rw [same]
        exact dot
      · rw [same,Qualified,List.getLast?_append,List.getLast?_cons,dot]
        rfl
    exact not_qualified_trimEndDots host hostDot
  · have own : labels entry = (toAsciiLowercase (trimStartDots entry)).splitOn '.' := by
      rw [labels,bare,trimEndDots_of_not_qualified qualified]
    have its : labels host = (trimStartDots (toAsciiLowercase (trimEndDots host))).splitOn '.' := by
      rw [labels,bare,trimStartDots_lowercase]
    rw [and_iff_right qualified,Covers,own,its,Text.splitOn_suffix_iff,hostMatches_iff]
    exact ends_trimStartDots (head_lowercase entry) lowered

/-- The list holds what is left of the entries that name something. -/
theorem parseDomainList_eq (raw : Text) :
    parseDomainList raw = (entries raw).map fun entry => toAsciiLowercase (trimStartDots entry) := by
  rw [parseDomainList,entries]
  induction raw.splitOn ',' with
  | nil => rfl
  | cons d rest ih =>
    have same : toAsciiLowercase (trimStartDots (Text.trim d)) = [] ↔ bare (Text.trim d) = [] := by
      rw [bare_eq_nil,toAsciiLowercase,List.map_eq_nil_iff]
    by_cases named : bare (Text.trim d) = []
    · simpa [named,same.mpr named] using ih
    · simpa [named,mt same.mp named] using ih

end

/-- A fully qualified entry that covers the host is made up for by another entry. -/
def Spared (raw host : Text) : Prop :=
  (∃ entry ∈ entries raw, ¬Qualified entry ∧ Covers entry host) ∨
    ∀ entry ∈ entries raw, Qualified entry → ¬Covers entry host

theorem isActiveFor_eq (hosts : Hosts) (mode : DiagnosticsMode) (raw : Text) (url host : String)
    (on : mode ≠ .off) (parsed : (hosts.parse url).bind Prod.snd = some host) :
    DiagnosticsConfig.isActiveFor hosts ⟨true,mode,parseDomainList raw⟩ url = true ↔
      entries raw = [] ∨ ∃ entry ∈ entries raw, ¬Qualified entry ∧ Covers entry host.toList := by
  have named : ∀ entry ∈ entries raw, bare entry ≠ [] := fun entry mem => by
    simpa using (List.mem_filter.mp mem).2
  simp only [DiagnosticsConfig.isActiveFor,Bool.not_true,Bool.false_or,decide_eq_true_eq,if_neg on,
    parseDomainList_eq,List.isEmpty_iff,List.map_eq_nil_iff,parsed]
  by_cases none_ : entries raw = []
  · simp [none_]
  · rw [if_neg none_,List.any_map,List.any_eq_true,or_iff_right none_]
    refine exists_congr fun entry => and_congr_right fun mem => ?_
    exact hostMatches_entry host.toList (named entry mem)

/-- The filter does what is meant exactly when no fully qualified entry covers the host, or
another entry does as well. -/
theorem isActiveFor_iff (hosts : Hosts) (mode : DiagnosticsMode) (raw : Text) (url host : String)
    (on : mode ≠ .off) (parsed : (hosts.parse url).bind Prod.snd = some host) :
    (DiagnosticsConfig.isActiveFor hosts ⟨true,mode,parseDomainList raw⟩ url = true ↔ Selected raw host.toList) ↔
      Spared raw host.toList := by
  rw [isActiveFor_eq hosts mode raw url host on parsed,Selected,Spared]
  constructor
  · intro meant
    by_cases other : ∃ entry ∈ entries raw, ¬Qualified entry ∧ Covers entry host.toList
    · exact .inl other
    · refine .inr fun entry mem _ covers => ?_
      rcases meant.mpr (.inr ⟨entry,mem,covers⟩) with none_ | found
      · rw [none_] at mem
        exact List.not_mem_nil mem
      · exact other found
  · intro spared
    refine or_congr_right ⟨fun ⟨entry,mem,_,covers⟩ => ⟨entry,mem,covers⟩,fun ⟨entry,mem,covers⟩ => ?_⟩
    rcases spared with found | apart
    · exact found
    · exact ⟨entry,mem,fun qualified => apart entry mem qualified covers,covers⟩

def oneHost : Hosts where
  parse := fun url => if url = "https://Shop.example.com./a" then some ("https",some "shop.example.com.") else
    if url = "https://example.com/" then some ("https",some "example.com") else none
  isIpAddr := fun _ => false
  domainStr := some

theorem isActiveFor_qualified_host :
    (DiagnosticsConfig.isActiveFor oneHost ⟨true,.onError,parseDomainList " .Example.com ,".toList⟩
      "https://Shop.example.com./a" = true ↔ Selected " .Example.com ,".toList "shop.example.com.".toList) ↔
      Spared " .Example.com ,".toList "shop.example.com.".toList :=
  isActiveFor_iff oneHost .onError _ "https://Shop.example.com./a" "shop.example.com." (by decide) (by decide)

/-- A fully qualified entry does not match the very host it names. -/
theorem qualified_entry_never_matches :
    DiagnosticsConfig.isActiveFor oneHost ⟨true,.onError,parseDomainList "example.com.".toList⟩ "https://example.com/" =
      false ∧ Selected "example.com.".toList "example.com".toList := by
  refine ⟨by decide,.inr ⟨"example.com.".toList,by decide,?_⟩⟩
  exact List.suffix_refl _

end BrowserHive.DomainFilter
