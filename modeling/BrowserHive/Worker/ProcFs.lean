import BrowserHive.Lib.Fields
import BrowserHive.Lib.Keyed
import BrowserHive.Worker.ProcessTree

/-! What the browser is made of, read from `/proc`: which processes are below the worker, of
which Chromium type each is, and what they hold of the memory. -/
namespace BrowserHive.Worker.ProcFs

open Text ProcessTree

abbrev Bytes := List UInt8

/-- What the reads of one walk of `/proc` find. A file that cannot be read, or is not UTF-8
where text is read, is `none`. -/
structure Proc where
  /-- The names of the entries. -/
  names : List (List Char)
  stat : UInt32 → Option (List Char)
  cmdline : UInt32 → Option Bytes
  smapsRollup : UInt32 → Option (List Char)

def u64Size : Nat := 2^64

def parseU32 (text : List Char) : Option UInt32 := (parseUnsigned (2^32) text).map UInt32.ofNat

def parseStateAndPpid (stat : List Char) : Option (Char × UInt32) := do
  let paren ← rfind [')'] stat
  match fields isWhiteSpace (stat.drop (paren + 1)) with
  | state :: ppid :: _ => do
    let state ← state.head?
    let ppid ← parseU32 ppid
    some (state,ppid)
  | _ => none

def parsePpid (stat : List Char) : Option UInt32 := (parseStateAndPpid stat).map Prod.snd

def processParents (proc : Proc) : Parents :=
  proc.names.filterMap fun name => do
    let pid ← parseU32 name
    let stat ← proc.stat pid
    let ppid ← parsePpid stat
    some (pid,ppid)

inductive ProcessType where
  | browser
  | renderer
  | extension
  | gpu
  | zygote
  | network
  | storage
  | utility
  | other
  deriving DecidableEq, Repr

def ascii (text : String) : Bytes := text.toList.map fun c => UInt8.ofNat c.toNat

/-- NUL and ASCII white space. -/
def separates (byte : UInt8) : Bool := byte = 0 || byte ∈ [32,9,10,12,13]

/-- `from_utf8` succeeds. -/
def isUtf8 (bytes : Bytes) : Bool := (ByteArray.mk bytes.toArray).validateUTF8

def valueOf (args : List Bytes) (flag : String) : Option Bytes := args.findSome? (stripPrefix (ascii flag))

def classifyArgs (args : List Bytes) : ProcessType :=
  match valueOf args "--type=" with
  | none => .browser
  | some type =>
    if type = ascii "renderer" then if ascii "--extension-process" ∈ args then .extension else .renderer
    else if type = ascii "gpu-process" then .gpu
    else if type = ascii "zygote" then .zygote
    else if type = ascii "utility" then
      match valueOf args "--utility-sub-type=" with
      | some sub =>
        if (ascii "network.").isPrefixOf sub then .network
        else if (ascii "storage.").isPrefixOf sub then .storage
        else .utility
      | none => .utility
    else .other

def classifyProcess (cmdline : Bytes) : ProcessType := classifyArgs ((fields separates cmdline).filter isUtf8)

def parseStatusNumber (text field : List Char) : Option Nat := do
  let value ← (lines text).findSome? (stripPrefix field)
  let word ← (fields isWhiteSpace value).head?
  parseUnsigned u64Size word

/-- Sums of bytes wrap. -/
structure ProcessGroup where
  count : Nat
  pssBytes : Nat
  maxPssBytes : Nat
  deriving DecidableEq, Repr

def ProcessGroup.default : ProcessGroup := ⟨0,0,0⟩

def ProcessGroup.add (group : ProcessGroup) (pssBytes : Nat) : ProcessGroup :=
  ⟨group.count + 1,(group.pssBytes + pssBytes) % u64Size,max group.maxPssBytes pssBytes⟩

abbrev Groups := AList (fun _ : ProcessType => ProcessGroup)

def pssBytes (rollup : Option (List Char)) : Nat :=
  ((rollup.bind (parseStatusNumber · "Pss:".toList)).map fun kib => kib * 1024 % u64Size).getD 0

def countProcess (proc : Proc) (groups : Groups) (pid : UInt32) : Groups :=
  match proc.cmdline pid with
  | none | some [] => groups
  | some cmdline =>
    let type := classifyProcess cmdline
    groups.insert type (((groups.lookup type).getD .default).add (pssBytes (proc.smapsRollup pid)))

/-- `None` where there is no `/proc`. -/
def collectBrowserProcesses (me : UInt32) (proc : Option Proc) : Option Groups :=
  proc.map fun proc => (descendants me (processParents proc)).foldl (countProcess proc) ∅

/-- A process as the kernel knows it. `rest` are the further fields of its `stat` file,
`before` and `after` the other lines of its `smaps_rollup`. -/
structure Process where
  pid : UInt32
  ppid : UInt32
  comm : List Char
  state : Char
  rest : List Char
  args : List Bytes
  /-- The process has written its title over its arguments. -/
  rewritten : Bool
  /-- It exits after its `stat` was read. -/
  gone : Bool
  before : List (List Char)
  padding : Nat
  pssKib : Nat
  after : List (List Char)

namespace Process

/-- `comm` can hold any text, parentheses and spaces included. -/
def statFile (p : Process) : List Char :=
  (Nat.toDigits 10 p.pid.toNat ++ [' ','('] ++ p.comm) ++
    ')' :: (' ' :: ([p.state] ++ ' ' :: (Nat.toDigits 10 p.ppid.toNat ++ p.rest)))

def cmdlineFile (p : Process) : Bytes :=
  if p.rewritten then [32].intercalate p.args ++ [0] else p.args.flatMap (· ++ [0])

def pssLine (p : Process) : List Char :=
  "Pss:".toList ++ (List.replicate p.padding ' ' ++ (Nat.toDigits 10 p.pssKib ++ ' ' :: ['k','B']))

def smapsRollupFile (p : Process) : List Char := (p.before ++ p.pssLine :: p.after).flatMap (· ++ ['\n'])

/-- A zombie has no arguments. -/
def counted (p : Process) : Bool := !p.gone && (p.rewritten || !p.args.isEmpty)

/-- By the words of its arguments, however its title shows them. -/
def type (p : Process) : ProcessType := classifyArgs ((p.args.flatMap (fields separates)).filter isUtf8)

structure WellFormed (p : Process) : Prop where
  state : isWhiteSpace p.state = false ∧ p.state ≠ ')'
  rest : ')' ∉ p.rest ∧ ∀ c ∈ p.rest.head?, isWhiteSpace c = true
  before : ∀ line ∈ p.before, '\n' ∉ line ∧ ¬"Pss:".toList <+: line
  after : ∀ line ∈ p.after, '\n' ∉ line
  pss : p.pssKib * 1024 < u64Size

end Process

/-- `/proc` with these processes in it, and entries of other names. -/
def mount (others : List (List Char)) (table : List Process) : Proc where
  names := others ++ table.map fun p => Nat.toDigits 10 p.pid.toNat
  stat pid := (table.find? fun p => p.pid = pid).map Process.statFile
  cmdline pid := (table.find? fun p => p.pid = pid).bind fun p => if p.gone then none else some p.cmdlineFile
  smapsRollup pid := (table.find? fun p => p.pid = pid).map Process.smapsRollupFile

section Files

theorem not_white_of_isDigit {c : Char} (digit : c.isDigit = true) : isWhiteSpace c = false := by
  obtain ⟨low,high⟩ := Char.isDigit_iff_toNat.mp digit
  have zero : '0'.toNat = 48 := rfl
  have nine : '9'.toNat = 57 := rfl
  simp [isWhiteSpace]
  omega

theorem parseU32_toDigits (pid : UInt32) : parseU32 (Nat.toDigits 10 pid.toNat) = some pid := by
  rw [parseU32,parseUnsigned_toDigits pid.toNat_lt,Option.map_some,UInt32.ofNat_toNat]

/-- Digits, up to the next white space. -/
theorem fields_toDigits (n : Nat) {rest : List Char} (ends : ∀ c ∈ rest.head?, isWhiteSpace c = true) :
    (fields isWhiteSpace (Nat.toDigits 10 n ++ rest)).head? = some (Nat.toDigits 10 n) := by
  have plain : ∀ c ∈ Nat.toDigits 10 n, isWhiteSpace c = false := fun c member =>
    not_white_of_isDigit (isDigit_of_toDigits member)
  cases rest with
  | nil => rw [List.append_nil,fields_word Nat.toDigits_ne_nil plain,List.head?_cons]
  | cons c rest => rw [fields_word_cons Nat.toDigits_ne_nil plain rest (ends c (by simp)),List.head?_cons]

/-- Whatever the name of its program, a process's `stat` file is read as it was written. -/
theorem parseStateAndPpid_statFile {p : Process} (wellFormed : p.WellFormed) :
    parseStateAndPpid p.statFile = some (p.state,p.ppid) := by
  obtain ⟨⟨black,other⟩,⟨unclosed,ends⟩,_⟩ := wellFormed
  have blank : isWhiteSpace ' ' = true := rfl
  have absent : ')' ∉ ' ' :: ([p.state] ++ ' ' :: (Nat.toDigits 10 p.ppid.toNat ++ p.rest)) := by
    have digits : ')' ∉ Nat.toDigits 10 p.ppid.toNat := fun member =>
      absurd (isDigit_of_toDigits member) (by decide)
    simp [unclosed,digits,other.symm]
  have paren := rfind_append (Nat.toDigits 10 p.pid.toNat ++ [' ','('] ++ p.comm) (by simp : ')' ∉ []) absent
  rw [List.nil_append] at paren
  have state : fields isWhiteSpace (' ' :: ([p.state] ++ ' ' :: (Nat.toDigits 10 p.ppid.toNat ++ p.rest))) =
      [p.state] :: fields isWhiteSpace (Nat.toDigits 10 p.ppid.toNat ++ p.rest) := by
    rw [fields_cons_sep _ blank]
    exact fields_word_cons (List.cons_ne_nil _ _) (by simpa using black) _ blank
  obtain ⟨later,ppid⟩ := List.head?_eq_some_iff.mp (fields_toDigits p.ppid.toNat ends)
  have past (front back : List Char) : (front ++ ')' :: back).drop (front.length + 1) = back := by
    rw [List.drop_length_add_append,List.drop_one,List.tail_cons]
  simp only [parseStateAndPpid,Process.statFile,paren,Option.bind_eq_bind,Option.bind_some,past,state,ppid,
    List.head?_cons,parseU32_toDigits]

/-- The figure of the `Pss:` line, wherever in the file it stands. -/
theorem pssBytes_smapsRollupFile {p : Process} (wellFormed : p.WellFormed) :
    pssBytes (some p.smapsRollupFile) = p.pssKib * 1024 := by
  obtain ⟨_,_,before,after,fits⟩ := wellFormed
  have blank : isWhiteSpace ' ' = true := rfl
  have digits : '\n' ∉ Nat.toDigits 10 p.pssKib := fun member => absurd (isDigit_of_toDigits member) (by decide)
  have listed : lines p.smapsRollupFile = (p.before ++ p.pssLine :: p.after).map stripReturn := by
    refine lines_terminated _ fun line member => ?_
    rcases List.mem_append.mp member with first | here
    · exact (before line first).1
    · rcases List.mem_cons.mp here with rfl | later
      · simp [Process.pssLine,digits]
      · exact after line later
  have own : stripReturn p.pssLine = p.pssLine := by
    have last : p.pssLine.getLast? = some 'B' := by
      rw [Process.pssLine,← List.append_assoc,← List.append_assoc,List.getLast?_append]
      rfl
    rw [stripReturn,if_neg (by simp [last])]
  have others : (p.before.map stripReturn).findSome? (stripPrefix "Pss:".toList) = none := by
    refine List.findSome?_eq_none_iff.mpr fun line member => stripPrefix_none fun start => ?_
    obtain ⟨whole,first,rfl⟩ := List.mem_map.mp member
    exact (before whole first).2 (start.trans (stripReturn_starts whole))
  have value : (lines p.smapsRollupFile).findSome? (stripPrefix "Pss:".toList) =
      some (List.replicate p.padding ' ' ++ (Nat.toDigits 10 p.pssKib ++ ' ' :: ['k','B'])) := by
    rw [listed,List.map_append,List.findSome?_append,others,List.map_cons,own,List.findSome?_cons]
    simp only [Process.pssLine,stripPrefix_append,Option.none_or]
  have number : parseStatusNumber p.smapsRollupFile "Pss:".toList = some p.pssKib := by
    have small : p.pssKib < u64Size := by omega
    simp only [parseStatusNumber,value,Option.bind_eq_bind,Option.bind_some,fields_replicate _ _ blank]
    rw [fields_toDigits _ (by simp [blank]),Option.bind_some,parseUnsigned_toDigits small]
  rw [pssBytes,Option.bind_some,number,Option.map_some,Option.getD_some,Nat.mod_eq_of_lt fits]

/-- A title that was written over shows the words of the arguments all the same. -/
theorem classifyProcess_cmdlineFile (p : Process) : classifyProcess p.cmdlineFile = p.type := by
  have words : fields separates p.cmdlineFile = p.args.flatMap (fields separates) := by
    unfold Process.cmdlineFile
    split
    · rw [fields_append_cons _ _ (by decide),fields_nil,List.append_nil,fields_intercalate _ (by decide)]
    · exact fields_terminated _ (by decide)
  rw [classifyProcess,words,Process.type]

theorem cmdlineFile_eq_nil (p : Process) : p.cmdlineFile = [] ↔ p.rewritten = false ∧ p.args = [] := by
  cases rewritten : p.rewritten with
  | true => simp [Process.cmdlineFile,rewritten]
  | false => cases args : p.args <;> simp [Process.cmdlineFile,rewritten,args]

end Files

section Census

variable {others : List (List Char)} {table : List Process}

theorem found_iff (unique : (table.map Process.pid).Nodup) (pid : UInt32) (p : Process) :
    table.find? (fun p => p.pid = pid) = some p ↔ p ∈ table ∧ p.pid = pid :=
  Keyed.find_eq_some_iff unique pid

/-- Every process is listed under its parent. -/
theorem processParents_mount (named : ∀ name ∈ others, parseU32 name = none)
    (wellFormed : ∀ p ∈ table, p.WellFormed) (unique : (table.map Process.pid).Nodup) :
    processParents (mount others table) = table.map fun p => (p.pid,p.ppid) := by
  have none_ : others.filterMap (fun name => do
      let pid ← parseU32 name
      let stat ← (mount others table).stat pid
      let ppid ← parsePpid stat
      some (pid,ppid)) = [] :=
    List.filterMap_eq_nil_iff.mpr fun name member => by simp [named name member]
  rw [processParents,show (mount others table).names = others ++ _ from rfl,List.filterMap_append,none_,List.nil_append,
    List.filterMap_map,← List.filterMap_eq_map]
  refine List.filterMap_congr fun p member => ?_
  have stat : (mount others table).stat p.pid = some p.statFile := by
    simp [mount,(found_iff unique p.pid p).mpr ⟨member,rfl⟩]
  simp [parseU32_toDigits,stat,parsePpid,parseStateAndPpid_statFile (wellFormed p member)]

def Process.adds (p : Process) (group : ProcessGroup) : ProcessGroup := group.add (p.pssKib * 1024)

/-- A process is counted under its type, unless it is gone or a zombie. -/
theorem countProcess_mount (wellFormed : ∀ p ∈ table, p.WellFormed) (unique : (table.map Process.pid).Nodup)
    (groups : Groups) {p : Process} (member : p ∈ table) :
    countProcess (mount others table) groups p.pid =
      if p.counted then groups.insert p.type (p.adds ((groups.lookup p.type).getD .default)) else groups := by
  have here := (found_iff unique p.pid p).mpr ⟨member,rfl⟩
  have rollup : (mount others table).smapsRollup p.pid = some p.smapsRollupFile := by simp [mount,here]
  have cmdline : (mount others table).cmdline p.pid = if p.gone then none else some p.cmdlineFile := by simp [mount,here]
  have type := classifyProcess_cmdlineFile p
  have empty := cmdlineFile_eq_nil p
  unfold countProcess
  rw [cmdline]
  cases gone : p.gone with
  | true => simp [Process.counted,gone]
  | false =>
    cases file : p.cmdlineFile with
    | nil =>
      obtain ⟨rewritten,args⟩ := empty.mp file
      simp [Process.counted,rewritten,args]
    | cons byte rest =>
      have counted : p.counted = true := by
        cases rewritten : p.rewritten <;> simp_all [Process.counted]
      rw [file] at type
      simp only [Bool.false_eq_true,if_false,rollup,pssBytes_smapsRollupFile (wellFormed p member),counted,if_true]
      rw [type]
      rfl

/-- The processes below the worker, in the order they are walked. -/
theorem tree_of_descendants (wellFormed : ∀ p ∈ table, p.WellFormed) (named : ∀ name ∈ others, parseU32 name = none)
    (unique : (table.map Process.pid).Nodup) (me : UInt32) :
    ∃ tree : List Process, tree.map Process.pid = descendants me (processParents (mount others table)) ∧ tree.Nodup ∧
      ∀ p, p ∈ tree ↔ p ∈ table ∧ p.pid ≠ me ∧ Below (table.map fun p => (p.pid,p.ppid)) me p.pid := by
  rw [processParents_mount named wellFormed unique]
  obtain ⟨distinct,exact_⟩ := descendants_exact me (table.map fun p => (p.pid,p.ppid))
  have listed (pid : UInt32) (member : pid ∈ descendants me (table.map fun p => (p.pid,p.ppid))) :
      ∃ p ∈ table, p.pid = pid := by
    obtain ⟨other,below⟩ := (exact_ pid).mp member
    cases below with
    | refl => exact absurd rfl other
    | tail _ entry =>
      obtain ⟨p,there,same⟩ := List.mem_map.mp entry
      exact ⟨p,there,(Prod.mk.inj same).1⟩
  obtain ⟨tree,pids,members⟩ := Keyed.exists_entries _ listed
  refine ⟨tree,pids,List.Nodup.of_map _ (pids ▸ distinct),fun p => ⟨fun member => ?_,fun below => ?_⟩⟩
  · have walked : p.pid ∈ descendants me (table.map fun p => (p.pid,p.ppid)) := pids ▸ List.mem_map_of_mem member
    exact ⟨members p member,(exact_ p.pid).mp walked⟩
  · have walked := (exact_ p.pid).mpr below.2
    rw [← pids] at walked
    obtain ⟨q,member,same⟩ := List.mem_map.mp walked
    rwa [List.inj_on_of_nodup_map unique (members q member) below.1 same] at member

/-- What some processes make: how many they are, what they hold together, and the most one holds. -/
def summary (processes : List Process) : ProcessGroup :=
  ⟨processes.length,(processes.map fun p => p.pssKib * 1024).sum % u64Size,
    (processes.map fun p => p.pssKib * 1024).foldl max 0⟩

theorem foldl_adds (processes : List Process) (group : ProcessGroup) (small : group.pssBytes < u64Size) :
    processes.foldl (fun group p => p.adds group) group =
      ⟨group.count + processes.length,(group.pssBytes + (processes.map fun p => p.pssKib * 1024).sum) % u64Size,
        (processes.map fun p => p.pssKib * 1024).foldl max group.maxPssBytes⟩ := by
  induction processes generalizing group with
  | nil => simp [Nat.mod_eq_of_lt small]
  | cons p rest ih =>
    rw [List.foldl_cons,ih (p.adds group) (Nat.mod_lt _ (by decide))]
    simp only [Process.adds,ProcessGroup.add,List.length_cons,List.map_cons,List.sum_cons,List.foldl_cons,
      Nat.mod_add_mod,Nat.add_assoc,Nat.add_comm 1]

theorem foldl_adds_default (processes : List Process) :
    processes.foldl (fun group p => p.adds group) .default = summary processes := by
  rw [foldl_adds processes .default (by decide)]
  simp [summary,ProcessGroup.default]

/-- The loop gathers the counted processes by their types. -/
theorem foldl_countProcess (wellFormed : ∀ p ∈ table, p.WellFormed) (unique : (table.map Process.pid).Nodup)
    (tree : List Process) (listed : ∀ p ∈ tree, p ∈ table) (groups : Groups) :
    (tree.map Process.pid).foldl (countProcess (mount others table)) groups =
      (tree.filter Process.counted).foldl
        (fun groups p => groups.insert p.type (p.adds ((groups.lookup p.type).getD .default))) groups := by
  induction tree generalizing groups with
  | nil => rfl
  | cons p rest ih =>
    have later := ih fun q member => listed q (List.mem_cons_of_mem _ member)
    rw [List.map_cons,List.foldl_cons,countProcess_mount wellFormed unique groups (listed p List.mem_cons_self),later]
    split
    · next counted => rw [List.filter_cons_of_pos counted,List.foldl_cons]
    · next counted => rw [List.filter_cons_of_neg counted]

end Census

/-- Read back from `/proc` as the kernel shows it, with names and files in UTF-8, whatever the processes
are called and however they show their arguments: of each type there are the processes below the
worker that are no zombies and were still there, counted once, with all they hold, modulo the width
of the sum, and the most that one holds. -/
theorem census_exact (others : List (List Char)) (table : List Process) (me : UInt32)
    (named : ∀ name ∈ others, parseU32 name = none) (wellFormed : ∀ p ∈ table, p.WellFormed)
    (unique : (table.map Process.pid).Nodup) :
    ∃ (tree : List Process) (groups : Groups), tree.Nodup ∧
      (∀ p, p ∈ tree ↔ p ∈ table ∧ p.pid ≠ me ∧ Below (table.map fun p => (p.pid,p.ppid)) me p.pid) ∧
      collectBrowserProcesses me (some (mount others table)) = some groups ∧
      ∀ type, groups.lookup type =
        if ((tree.filter Process.counted).filter (·.type = type)).isEmpty then none
        else some (summary ((tree.filter Process.counted).filter (·.type = type))) := by
  obtain ⟨tree,pids,distinct,members⟩ := tree_of_descendants wellFormed named unique me
  refine ⟨tree,_,distinct,members,rfl,fun type => ?_⟩
  simp only [← pids]
  rw [foldl_countProcess wellFormed unique tree fun p member => ((members p).mp member).1]
  have gathered : (Keyed.gather Process.type (fun group p => Process.adds p group) .default
      (tree.filter Process.counted)).lookup type = _ := Keyed.lookup_gather ..
  rwa [foldl_adds_default] at gathered

def plainProcess (pid ppid : UInt32) (comm : String) (state : Char) (args : List String) (rewritten : Bool) (pssKib : Nat) :
    Process :=
  ⟨pid,ppid,comm.toList,state,[],args.map ascii,rewritten,false,[],12,pssKib,[]⟩

theorem plainProcess_wellFormed (black : isWhiteSpace state = false ∧ state ≠ ')') (fits : pssKib * 1024 < u64Size) :
    (plainProcess pid ppid name state args rewritten pssKib).WellFormed :=
  ⟨black,by simp [plainProcess],by simp [plainProcess],by simp [plainProcess],fits⟩

def browserTree : List Process :=
  [plainProcess 10 1 "brave (x)" 'S' ["/opt/brave","--headless"] false 300,
    plainProcess 12 10 "brave" 'S' ["brave","--type=renderer"] true 200,plainProcess 13 10 "brave" 'Z' [] false 0,
    plainProcess 20 0 "sh" 'S' ["sh"] false 1]

theorem census_exact_browser_tree : ∃ (tree : List Process) (groups : Groups), tree.Nodup ∧
    collectBrowserProcesses 1 (some (mount ["self".toList] browserTree)) = some groups ∧
    groups.lookup .renderer = some ⟨1,200 * 1024,200 * 1024⟩ ∧ groups.lookup .other = none ∧
    (∀ p, p ∈ tree ↔ p ∈ browserTree ∧ p.pid ≠ 1 ∧ Below (browserTree.map fun p => (p.pid,p.ppid)) 1 p.pid) := by
  have wellFormed : ∀ p ∈ browserTree, p.WellFormed := by
    simp only [browserTree,List.forall_mem_cons]
    exact ⟨plainProcess_wellFormed (by decide) (by decide),plainProcess_wellFormed (by decide) (by decide),
      plainProcess_wellFormed (by decide) (by decide),plainProcess_wellFormed (by decide) (by decide),by simp⟩
  obtain ⟨tree,groups,distinct,members,collected,_⟩ :=
    census_exact ["self".toList] browserTree 1 (by decide +kernel) wellFormed (by decide)
  have renderer : ((collectBrowserProcesses 1 (some (mount ["self".toList] browserTree))).bind (AList.lookup .renderer)) =
      some ⟨1,200 * 1024,200 * 1024⟩ := by decide +kernel
  have other : ((collectBrowserProcesses 1 (some (mount ["self".toList] browserTree))).bind (AList.lookup .other)) =
      none := by decide +kernel
  rw [collected] at renderer other
  exact ⟨tree,groups,distinct,collected,renderer,other,members⟩

end BrowserHive.Worker.ProcFs
