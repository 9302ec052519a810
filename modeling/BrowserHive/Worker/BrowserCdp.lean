import Mathlib.Data.List.Nodup
import Mathlib.Data.List.Pairwise
import Mathlib.Data.List.Perm.Basic
import BrowserHive.Lib.Transition
import BrowserHive.Lib.Tasks

/-! `BrowserCdpClient`: calls of `create_browser_context` that share one socket, and the
browser at the other end. A command that was sent may be executed at any later time or
never, whatever became of the connection it came over; an answer goes to that connection. -/
namespace BrowserHive.BrowserCdp

open Transition Tasks

def maxFramesPerCall : Nat := 512

abbrev ContextId := Nat

/-- Why `call_once` gave up. -/
inductive Failure where
  | connect
  | send
  | timedOut
  | read
  | parse
  | rejected
  | frames
  deriving DecidableEq, Repr

inductive CallError where
  | failedAfterReconnect (why : Failure)
  | noBrowserContextId
  deriving DecidableEq, Repr

/-- Where a call is. From `connecting` to `reading` it holds the socket mutex. -/
inductive Pc where
  | idle
  | locking (id : Nat)
  | connecting (id : Nat)
  | sending (id conn : Nat)
  | reading (id conn frames : Nat)
  | dropping
  | returned (result : Except CallError ContextId)
  deriving DecidableEq

structure Call where
  pc : Pc
  /-- `call_once` runs for the second time, after the reconnect. -/
  reconnected : Bool
  deriving DecidableEq

/-- `Target.createBrowserContext` on the wire; `call` is whose it is. -/
structure Command where
  conn : Nat
  id : Nat
  call : Nat
  deriving DecidableEq, Repr

inductive Outcome where
  | created (context : ContextId)
  | rejected
  | unnamed
  deriving DecidableEq, Repr

structure Answer where
  command : Command
  outcome : Outcome
  deriving DecidableEq, Repr

structure State where
  nextId : Nat
  socket : Option Nat
  nextConn : Nat
  calls : List Call
  sent : List Command
  answers : List Answer
  nextContext : ContextId
  deriving DecidableEq

inductive Choice where
  | begin
  | lock
  | connect
  | send
  /-- A frame that is not the answer to this call. -/
  | skip
  | read (k : Nat)
  | fail (why : Failure)
  | drop
  deriving DecidableEq

/-- What the browser does with a command; `answers` is a reply without an id. -/
inductive Execution where
  | creates
  | rejects
  | answers
  deriving DecidableEq

inductive Action where
  | arrive
  | call (i : Nat) (choice : Choice)
  | execute (k : Nat) (how : Execution)
  deriving DecidableEq

def Pc.holds : Pc → Bool
  | .connecting _ | .sending _ _ | .reading _ _ _ => true
  | _ => false

def Pc.id : Pc → Option Nat
  | .locking id | .connecting id | .sending id _ | .reading id _ _ => some id
  | _ => none

def Call.goto (c : Call) (pc : Pc) : Call := { c with pc := pc }

/-- `call`: the first failure drops the socket and tries again, the second is returned. -/
def Call.failed (c : Call) (why : Failure) : Call :=
  if c.reconnected then c.goto (.returned (.error (.failedAfterReconnect why))) else c.goto .dropping

namespace State

def locked (s : State) : Bool := s.calls.any (fun c => c.pc.holds)

def setCall (s : State) (i : Nat) (c : Call) : State := { s with calls := s.calls.set i c }

def outcome (s : State) : Execution → Outcome
  | .creates => .created s.nextContext
  | .rejects => .rejected
  | .answers => .unnamed

end State

def Call.answered (c : Call) : Outcome → Call
  | .created context => c.goto (.returned (.ok context))
  | .rejected => c.failed .rejected
  | .unnamed => c.goto (.returned (.error .noBrowserContextId))

def callStep (s : State) (i : Nat) (c : Call) : Choice → Option State
  | .begin =>
    match c.pc with
    | .idle => some { s.setCall i (c.goto (.locking s.nextId)) with nextId := s.nextId + 1 }
    | _ => none
  | .lock =>
    match c.pc,s.locked,s.socket with
    | .locking id,false,some conn => some (s.setCall i (c.goto (.sending id conn)))
    | .locking id,false,none => some (s.setCall i (c.goto (.connecting id)))
    | _,_,_ => none
  | .connect =>
    match c.pc with
    | .connecting id =>
      some { s.setCall i (c.goto (.sending id s.nextConn)) with socket := some s.nextConn, nextConn := s.nextConn + 1 }
    | _ => none
  | .send =>
    match c.pc with
    | .sending id conn => some { s.setCall i (c.goto (.reading id conn 0)) with sent := s.sent ++ [⟨conn,id,i⟩] }
    | _ => none
  | .skip =>
    match c.pc with
    | .reading id conn frames =>
      if frames < maxFramesPerCall then some (s.setCall i (c.goto (.reading id conn (frames + 1)))) else none
    | _ => none
  | .read k =>
    match c.pc,s.answers[k]? with
    | .reading id conn frames,some answer =>
      if frames < maxFramesPerCall ∧ answer.command.conn = conn ∧ answer.command.id = id then
        some (s.setCall i (c.answered answer.outcome))
      else none
    | _,_ => none
  | .fail why =>
    match c.pc,why with
    | .connecting _,.connect => some (s.setCall i (c.failed why))
    -- the socket reported an error, but the command may have reached the browser
    | .sending id conn,.send => some { s.setCall i (c.failed why) with sent := s.sent ++ [⟨conn,id,i⟩] }
    | .reading _ _ frames,.timedOut | .reading _ _ frames,.read | .reading _ _ frames,.parse =>
      if frames < maxFramesPerCall then some (s.setCall i (c.failed why)) else none
    | .reading _ _ frames,.frames => if frames < maxFramesPerCall then none else some (s.setCall i (c.failed why))
    | _,_ => none
  | .drop =>
    match c.pc,s.locked with
    | .dropping,false => some { s.setCall i ⟨.idle,true⟩ with socket := none }
    | _,_ => none

def step (s : State) : Action → Option State
  | .arrive => some { s with calls := s.calls ++ [⟨.idle,false⟩] }
  | .call i choice => s.calls[i]?.bind fun c => callStep s i c choice
  | .execute k how =>
    s.sent[k]?.map fun command => { s with
      sent := s.sent.eraseIdx k
      answers := s.answers ++ [⟨command,s.outcome how⟩]
      nextContext := s.nextContext + 1 }

def machine : Machine State Action := ⟨⟨1,some 0,1,[],[],[],0⟩,step⟩

def Pc.awaiting : Pc → Option Nat
  | .reading id _ _ => some id
  | _ => none

def Answer.context (a : Answer) : Option ContextId :=
  match a.outcome with
  | .created context => some context
  | _ => none

namespace State

def commands (s : State) : List Command := s.sent ++ s.answers.map Answer.command

def madeFor (s : State) (i : Nat) : List ContextId :=
  (s.answers.filter (fun a => a.command.call = i)).filterMap Answer.context

def contexts (s : State) : List ContextId := s.answers.filterMap Answer.context

end State

def Ended (s : State) (i : Nat) : Prop := ∃ c, s.calls[i]? = some c ∧ ∃ result, c.pc = .returned result

/-- One call makes at most one context, returns no other, and leaves none behind. -/
structure CreatedOnce (s : State) (i : Nat) : Prop where
  once : (s.madeFor i).length ≤ 1
  own : ∀ c context, s.calls[i]? = some c → c.pc = .returned (.ok context) →
    context ∈ s.madeFor i ∧ ∀ j, context ∈ s.madeFor j → j = i
  left : ∀ context ∈ s.madeFor i, ∃ c, s.calls[i]? = some c ∧ c.pc = .returned (.ok context)

/-- No attempt is given up once the browser has made a context for it, and the browser makes
none for an attempt that was given up. -/
def Answered (i : Nat) (s : State) : Action → Prop
  | .call j (.fail _) => j = i → ∀ c, s.calls[i]? = some c → ∀ a ∈ s.answers, a.command.call = i →
      a.context.isSome → c.pc.id ≠ some a.command.id
  | .execute k .creates => ∀ command, s.sent[k]? = some command → command.call = i →
      ∃ c, s.calls[i]? = some c ∧ c.pc.awaiting = some command.id
  | _ => True

/-- Every context made for a call is returned by it, or its answer is still awaited. -/
def Kept (i : Nat) (s : State) : Prop :=
  ∀ a ∈ s.answers, ∀ context, a.context = some context → a.command.call = i →
    ∃ c, s.calls[i]? = some c ∧ (c.pc = .returned (.ok context) ∨ c.pc.awaiting = some a.command.id)

inductive CallMove (s : State) (i : Nat) (c : Call) : Choice → State → Prop where
  | begin (at_ : c.pc = .idle) :
      CallMove s i c .begin { s.setCall i (c.goto (.locking s.nextId)) with nextId := s.nextId + 1 }
  | hold (id : Nat) {pc : Pc} (before : c.pc.id = some id) (after : pc.id = some id) (same : pc.awaiting = c.pc.awaiting)
      (socket : Option Nat) (nextConn : Nat) (other : ∀ why, choice ≠ .fail why) :
      CallMove s i c choice { s.setCall i (c.goto pc) with socket := socket, nextConn := nextConn }
  | send {id : Nat} (at_ : c.pc = .sending id conn) :
      CallMove s i c .send { s.setCall i (c.goto (.reading id conn 0)) with sent := s.sent ++ [⟨conn,id,i⟩] }
  | read (answer : Answer) (at_ : c.pc = .reading answer.command.id conn frames) (mem : answer ∈ s.answers) :
      CallMove s i c (.read k) (s.setCall i (c.answered answer.outcome))
  | fail (id : Nat) (at_ : c.pc.id = some id) :
      CallMove s i c (.fail why) (s.setCall i (c.failed why))
  | failSend {id : Nat} (at_ : c.pc = .sending id conn) :
      CallMove s i c (.fail why) { s.setCall i (c.failed why) with sent := s.sent ++ [⟨conn,id,i⟩] }
  | drop (at_ : c.pc = .dropping) : CallMove s i c .drop { s.setCall i ⟨.idle,true⟩ with socket := none }

theorem call_move (taken : callStep s i c choice = some t) : CallMove s i c choice t := by
  cases choice with
  | begin =>
    simp only [callStep] at taken
    split at taken
    · next idle => exact Option.some.inj taken ▸ .begin idle
    · contradiction
  | lock =>
    simp only [callStep] at taken
    split at taken
    · next id conn at_ _ _ =>
      exact Option.some.inj taken ▸ .hold id (by rw [at_]; rfl) rfl (by rw [at_]; rfl) s.socket s.nextConn (by simp)
    · next id at_ _ _ =>
      exact Option.some.inj taken ▸ .hold id (by rw [at_]; rfl) rfl (by rw [at_]; rfl) s.socket s.nextConn (by simp)
    · contradiction
  | connect =>
    simp only [callStep] at taken
    split at taken
    · next id at_ => exact Option.some.inj taken ▸ .hold id (by rw [at_]; rfl) rfl (by rw [at_]; rfl) _ _ (by simp)
    · contradiction
  | send =>
    simp only [callStep] at taken
    split at taken
    · next id conn at_ => exact Option.some.inj taken ▸ .send at_
    · contradiction
  | skip =>
    simp only [callStep] at taken
    split at taken
    · next id conn frames at_ =>
      split at taken
      · exact Option.some.inj taken ▸ .hold id (by rw [at_]; rfl) rfl (by rw [at_]; rfl) s.socket s.nextConn (by simp)
      · contradiction
    · contradiction
  | read k =>
    simp only [callStep] at taken
    split at taken
    · next id conn frames answer at_ found =>
      split at taken
      · next own =>
        obtain ⟨_,_,rfl⟩ := own
        exact Option.some.inj taken ▸ .read answer at_ (List.mem_of_getElem? found)
      · contradiction
    · contradiction
  | fail why =>
    simp only [callStep] at taken
    split at taken
    · next id at_ => exact Option.some.inj taken ▸ .fail id (by rw [at_]; rfl)
    · next id conn at_ => exact Option.some.inj taken ▸ .failSend at_
    · next id conn frames at_ =>
      split at taken
      · exact Option.some.inj taken ▸ .fail id (by rw [at_]; rfl)
      · contradiction
    · next id conn frames at_ =>
      split at taken
      · exact Option.some.inj taken ▸ .fail id (by rw [at_]; rfl)
      · contradiction
    · next id conn frames at_ =>
      split at taken
      · exact Option.some.inj taken ▸ .fail id (by rw [at_]; rfl)
      · contradiction
    · next id conn frames at_ =>
      split at taken
      · contradiction
      · exact Option.some.inj taken ▸ .fail id (by rw [at_]; rfl)
    · contradiction
  | drop =>
    simp only [callStep] at taken
    split at taken
    · next dropping _ => exact Option.some.inj taken ▸ .drop dropping
    · contradiction

/-- The id is the attempt's of call `i`: the call is in it, or its command went out. -/
def Bears (s : State) (id i : Nat) : Prop :=
  (∃ c, s.calls[i]? = some c ∧ c.pc.id = some id) ∨ ∃ command ∈ s.commands, command.id = id ∧ command.call = i

structure Invariant (s : State) : Prop where
  owner : ∀ id i j, Bears s id i → Bears s id j → i = j
  fresh : ∀ id i, Bears s id i → id < s.nextId
  unsent : ∀ (i : Nat) (c : Call) (id : Nat), s.calls[i]? = some c → c.pc.id = some id → c.pc.awaiting = none →
    ∀ command ∈ s.commands, command.id ≠ id
  once : (s.commands.map Command.id).Nodup
  minted : s.contexts.Nodup
  bounded : ∀ context ∈ s.contexts, context < s.nextContext
  returned : ∀ (i : Nat) (c : Call) (context : ContextId), s.calls[i]? = some c → c.pc = .returned (.ok context) →
    ∃ a ∈ s.answers, a.context = some context ∧ a.command.call = i

theorem Invariant.initial : Invariant machine.initial := by
  constructor <;> simp [machine,Bears,State.commands,State.contexts]

variable {s t : State} {c c' : Call} {i j k : Nat}

theorem Pc.id_of_awaiting {pc : Pc} {id : Nat} (awaits : pc.awaiting = some id) : pc.id = some id := by
  cases pc <;> simp_all [Pc.awaiting,Pc.id]

theorem mem_commands {a : Answer} (mem : a ∈ s.answers) : a.command ∈ s.commands :=
  List.mem_append_right _ (List.mem_map_of_mem mem)

theorem mem_contexts {a : Answer} (mem : a ∈ s.answers) (made : a.context = some context) : context ∈ s.contexts :=
  List.mem_filterMap.mpr ⟨a,mem,made⟩

/-- Two answers to commands with one id are the same answer. -/
theorem Invariant.answer_of_id {a b : Answer} (valid : Invariant s) (ha : a ∈ s.answers) (hb : b ∈ s.answers)
    (same : a.command.id = b.command.id) : a = b := by
  have once := valid.once
  rw [State.commands,List.map_append,List.map_map] at once
  exact List.inj_on_of_nodup_map (List.Nodup.of_append_right once) ha hb same

/-- Two answers about one context are the same answer. -/
theorem Invariant.answer_of_context {a b : Answer} (valid : Invariant s) (ha : a ∈ s.answers) (hb : b ∈ s.answers)
    (made : a.context = some context) (same : b.context = some context) : a = b := by
  have minted := valid.minted
  rw [State.contexts,List.Nodup,List.pairwise_filterMap] at minted
  by_contra apart
  have symmetric : Std.Symm (fun x y : Answer => ∀ m, x.context = some m → ∀ n, y.context = some n → m ≠ n) :=
    ⟨fun x y differ m hm n hn equal => differ n hn m hm equal.symm⟩
  exact minted.forall ha hb apart context made context same rfl

theorem Invariant.setCall (valid : Invariant s) (here : s.calls[i]? = some c) (socket : Option Nat) (nextConn : Nat)
    (ids : ∀ id, c'.pc.id = some id → c.pc.id = some id ∧ c'.pc.awaiting = c.pc.awaiting)
    (returned : ∀ context, c'.pc = .returned (.ok context) → ∃ a ∈ s.answers, a.context = some context ∧ a.command.call = i) :
    Invariant { s.setCall i c' with socket := socket, nextConn := nextConn } := by
  have bears : ∀ id j, Bears { s.setCall i c' with socket := socket, nextConn := nextConn } id j → Bears s id j := by
    rintro id j (⟨d,at_,own⟩ | sent)
    · rcases getElem?_set_cases here at_ with ⟨rfl,rfl⟩ | ⟨_,old⟩
      · exact .inl ⟨c,here,(ids id own).1⟩
      · exact .inl ⟨d,old,own⟩
    · exact .inr sent
  refine ⟨fun id i j hi hj => valid.owner id i j (bears id i hi) (bears id j hj),
    fun id i hi => valid.fresh id i (bears id i hi),?_,valid.once,valid.minted,valid.bounded,?_⟩
  · intro j d id at_ own unsent
    rcases getElem?_set_cases here at_ with ⟨rfl,rfl⟩ | ⟨_,old⟩
    · obtain ⟨own,same⟩ := ids id own
      exact valid.unsent j c id here own (same ▸ unsent)
    · exact valid.unsent j d id old own unsent
  · intro j d context at_ done
    rcases getElem?_set_cases here at_ with ⟨rfl,rfl⟩ | ⟨_,old⟩
    · exact returned context done
    · exact valid.returned j d context old done

theorem Invariant.begin (valid : Invariant s) (here : s.calls[i]? = some c) :
    Invariant { s.setCall i (c.goto (.locking s.nextId)) with nextId := s.nextId + 1 } := by
  have bears : ∀ id j, Bears { s.setCall i (c.goto (.locking s.nextId)) with nextId := s.nextId + 1 } id j →
      Bears s id j ∨ (id = s.nextId ∧ j = i) := by
    rintro id j (⟨d,at_,own⟩ | sent)
    · rcases getElem?_set_cases here at_ with ⟨rfl,rfl⟩ | ⟨_,old⟩
      · exact .inr ⟨(Option.some.inj own).symm,rfl⟩
      · exact .inl (.inl ⟨d,old,own⟩)
    · exact .inl (.inr sent)
  refine ⟨?_,?_,?_,valid.once,valid.minted,valid.bounded,?_⟩
  · intro id a b ha hb
    rcases bears id a ha with oldA | ⟨newA,ownA⟩ <;> rcases bears id b hb with oldB | ⟨newB,ownB⟩
    · exact valid.owner id a b oldA oldB
    · have := valid.fresh id a oldA
      omega
    · have := valid.fresh id b oldB
      omega
    · exact ownA.trans ownB.symm
  · intro id a ha
    rcases bears id a ha with old | ⟨rfl,_⟩
    · exact Nat.lt_succ_of_lt (valid.fresh id a old)
    · exact Nat.lt_succ_self _
  · intro j d id at_ own unsent command mem same
    rcases getElem?_set_cases here at_ with ⟨rfl,rfl⟩ | ⟨_,old⟩
    · obtain rfl : s.nextId = id := Option.some.inj own
      have := valid.fresh s.nextId command.call (.inr ⟨command,mem,same,rfl⟩)
      omega
    · exact valid.unsent j d id old own unsent command mem same
  · intro j d context at_ done
    rcases getElem?_set_cases here at_ with ⟨rfl,rfl⟩ | ⟨_,old⟩
    · cases done
    · exact valid.returned j d context old done

theorem Invariant.sends {id conn : Nat} (valid : Invariant s) (here : s.calls[i]? = some c) (at_ : c.pc = .sending id conn)
    (ids : ∀ other, c'.pc.id = some other → other = id ∧ c'.pc.awaiting = some id)
    (open_ : ∀ context, c'.pc ≠ .returned (.ok context)) :
    Invariant { s.setCall i c' with sent := s.sent ++ [⟨conn,id,i⟩] } := by
  have bearer : Bears s id i := .inl ⟨c,here,by rw [at_]; rfl⟩
  have commands : ∀ command, command ∈ ({ s.setCall i c' with sent := s.sent ++ [⟨conn,id,i⟩] } : State).commands ↔
      command ∈ s.commands ∨ command = ⟨conn,id,i⟩ := by
    intro command
    simp only [State.commands,State.setCall,List.mem_append,List.mem_singleton]
    tauto
  have bears : ∀ other j, Bears { s.setCall i c' with sent := s.sent ++ [⟨conn,id,i⟩] } other j → Bears s other j := by
    rintro other j (⟨d,now,own⟩ | ⟨command,mem,own,whose⟩)
    · rcases getElem?_set_cases here now with ⟨rfl,rfl⟩ | ⟨_,old⟩
      · exact (ids other own).1 ▸ bearer
      · exact .inl ⟨d,old,own⟩
    · rcases (commands command).mp mem with old | rfl
      · exact .inr ⟨command,old,own,whose⟩
      · exact own ▸ whose ▸ bearer
  have unsent := valid.unsent i c id here (by rw [at_]; rfl) (by rw [at_]; rfl)
  refine ⟨fun other a b ha hb => valid.owner other a b (bears other a ha) (bears other b hb),
    fun other a ha => valid.fresh other a (bears other a ha),?_,?_,valid.minted,valid.bounded,?_⟩
  · intro j d other now own waits command mem same
    rcases getElem?_set_cases here now with ⟨rfl,rfl⟩ | ⟨apart,old⟩
    · rw [(ids other own).2] at waits
      contradiction
    · rcases (commands command).mp mem with before | rfl
      · exact valid.unsent j d other old own waits command before same
      · exact apart (valid.owner other j i (.inl ⟨d,old,own⟩) (same ▸ bearer))
  · have moved : (({ s.setCall i c' with sent := s.sent ++ [⟨conn,id,i⟩] } : State).commands.map Command.id).Perm
        (id :: s.commands.map Command.id) := by
      simp only [State.commands,State.setCall,List.append_assoc,List.singleton_append]
      exact List.perm_middle.map Command.id
    rw [moved.nodup_iff,List.nodup_cons]
    refine ⟨?_,valid.once⟩
    rintro mem
    obtain ⟨command,old,same⟩ := List.mem_map.mp mem
    exact unsent command old same
  · intro j d context now done
    rcases getElem?_set_cases here now with ⟨rfl,rfl⟩ | ⟨_,old⟩
    · exact absurd done (open_ context)
    · exact valid.returned j d context old done

theorem Invariant.arrive (valid : Invariant s) : Invariant { s with calls := s.calls ++ [⟨.idle,false⟩] } := by
  have bears : ∀ id j, Bears { s with calls := s.calls ++ [⟨.idle,false⟩] } id j → Bears s id j := by
    rintro id j (⟨d,now,own⟩ | sent)
    · rcases getElem?_append_cases now with old | ⟨_,rfl⟩
      · exact .inl ⟨d,old,own⟩
      · cases own
    · exact .inr sent
  refine ⟨fun id a b ha hb => valid.owner id a b (bears id a ha) (bears id b hb),
    fun id a ha => valid.fresh id a (bears id a ha),?_,valid.once,valid.minted,valid.bounded,?_⟩
  · intro j d id now own waits
    rcases getElem?_append_cases now with old | ⟨_,rfl⟩
    · exact valid.unsent j d id old own waits
    · cases own
  · intro j d context now done
    rcases getElem?_append_cases now with old | ⟨_,rfl⟩
    · exact valid.returned j d context old done
    · cases done

def executed (s : State) (k : Nat) (command : Command) (how : Execution) : State :=
  { s with
    sent := s.sent.eraseIdx k
    answers := s.answers ++ [⟨command,s.outcome how⟩]
    nextContext := s.nextContext + 1 }

theorem executed_commands {command : Command} (here : s.sent[k]? = some command) (how : Execution) :
    (executed s k command how).commands.Perm s.commands := by
  obtain ⟨inside,rfl⟩ := List.getElem?_eq_some_iff.mp here
  have first : (s.sent.eraseIdx k ++ s.answers.map Answer.command ++ [s.sent[k]]).Perm
      (s.sent[k] :: (s.sent.eraseIdx k ++ s.answers.map Answer.command)) := List.perm_append_singleton _ _
  simp only [State.commands,executed,List.map_append,List.map_cons,List.map_nil,← List.append_assoc]
  refine first.trans ?_
  rw [← List.cons_append]
  exact (List.getElem_cons_eraseIdx_perm inside).append_right _

theorem executed_contexts (s : State) (k : Nat) (command : Command) (how : Execution) :
    (executed s k command how).contexts = s.contexts ++ if how = .creates then [s.nextContext] else [] := by
  cases how <;> simp [State.contexts,executed,State.outcome,Answer.context]

theorem Invariant.executed {command : Command} (valid : Invariant s) (here : s.sent[k]? = some command) (how : Execution) :
    Invariant (executed s k command how) := by
  have same := executed_commands here how
  have bears : ∀ id j, Bears (BrowserCdp.executed s k command how) id j → Bears s id j := by
    rintro id j (calls | ⟨other,mem,own⟩)
    · exact .inl calls
    · exact .inr ⟨other,same.mem_iff.mp mem,own⟩
  refine ⟨fun id a b ha hb => valid.owner id a b (bears id a ha) (bears id b hb),
    fun id a ha => valid.fresh id a (bears id a ha),?_,(same.map Command.id).nodup_iff.mpr valid.once,?_,?_,?_⟩
  · intro j d id now own waits other mem
    exact valid.unsent j d id now own waits other (same.mem_iff.mp mem)
  · rw [executed_contexts]
    split
    · refine List.nodup_append.mpr ⟨valid.minted,List.nodup_singleton _,fun context old new fresh equal => ?_⟩
      obtain rfl := List.mem_singleton.mp fresh
      exact Nat.lt_irrefl _ (equal ▸ valid.bounded context old)
    · simpa using valid.minted
  · intro context mem
    rw [executed_contexts] at mem
    rcases List.mem_append.mp mem with old | new
    · exact Nat.lt_succ_of_lt (valid.bounded context old)
    · split at new
      · exact List.mem_singleton.mp new ▸ Nat.lt_succ_self _
      · simp at new
  · intro j d context now done
    obtain ⟨a,mem,own⟩ := valid.returned j d context now done
    exact ⟨a,List.mem_append_left _ mem,own⟩

theorem call_invariant (valid : Invariant s) (here : s.calls[i]? = some c) (move : CallMove s i c choice t) :
    Invariant t := by
  have failed : ∀ why id, (c.failed why).pc.id ≠ some id := by
    intro why id
    cases again : c.reconnected <;> simp [Call.failed,again,Call.goto,Pc.id]
  have unreturned : ∀ why context, (c.failed why).pc ≠ .returned (.ok context) := by
    intro why context
    cases again : c.reconnected <;> simp [Call.failed,again,Call.goto]
  cases move with
  | begin at_ => exact valid.begin here
  | hold id before after same socket nextConn other =>
    refine valid.setCall here socket nextConn (fun id own => ?_) (fun context done => ?_)
    · exact ⟨before.trans (after.symm.trans own),same⟩
    · simp only [Call.goto] at done
      rw [done] at after
      cases after
  | send at_ =>
    refine valid.sends here at_ (fun other own => ?_) (by simp [Call.goto])
    exact ⟨(Option.some.inj own).symm,rfl⟩
  | read answer at_ mem =>
    have bearer : Bears s answer.command.id i := .inl ⟨c,here,by rw [at_]; rfl⟩
    have whose := valid.owner _ _ _ (.inr ⟨answer.command,mem_commands mem,rfl,rfl⟩) bearer
    refine valid.setCall here s.socket s.nextConn (fun id own => ?_) (fun context done => ?_)
    · cases outcome : answer.outcome with
      | created context => simp [outcome,Call.answered,Call.goto,Pc.id] at own
      | rejected => exact absurd own (by simpa [outcome,Call.answered] using failed _ id)
      | unnamed => simp [outcome,Call.answered,Call.goto,Pc.id] at own
    · cases outcome : answer.outcome with
      | created made =>
        obtain rfl : made = context := by simpa [outcome,Call.answered,Call.goto] using done
        exact ⟨answer,mem,by rw [Answer.context,outcome],whose⟩
      | rejected => exact absurd done (by simpa [outcome,Call.answered] using unreturned _ context)
      | unnamed => simp [outcome,Call.answered,Call.goto] at done
  | fail id at_ =>
    exact valid.setCall here s.socket s.nextConn (fun id own => absurd own (failed _ id))
      (fun context done => absurd done (unreturned _ context))
  | failSend at_ =>
    exact valid.sends here at_ (fun other own => absurd own (failed _ other)) (unreturned _)
  | drop at_ =>
    exact valid.setCall here none s.nextConn (fun id own => by cases own) (fun context done => by cases done)

theorem step_cases (taken : step s a = some t) :
    (a = .arrive ∧ t = { s with calls := s.calls ++ [⟨.idle,false⟩] }) ∨
    (∃ i choice c, a = .call i choice ∧ s.calls[i]? = some c ∧ CallMove s i c choice t) ∨
    ∃ k how command, a = .execute k how ∧ s.sent[k]? = some command ∧ t = executed s k command how := by
  cases a with
  | arrive => exact .inl ⟨rfl,(Option.some.inj taken).symm⟩
  | call i choice =>
    obtain ⟨c,here,moved⟩ := Option.bind_eq_some_iff.mp taken
    exact .inr (.inl ⟨i,choice,c,rfl,here,call_move moved⟩)
  | execute k how =>
    obtain ⟨command,here,rfl⟩ := Option.map_eq_some_iff.mp taken
    exact .inr (.inr ⟨k,how,command,rfl,here,rfl⟩)

theorem Invariant.step (valid : Invariant s) (taken : step s a = some t) : Invariant t := by
  rcases step_cases taken with ⟨rfl,rfl⟩ | ⟨i,choice,c,rfl,here,move⟩ | ⟨k,how,command,rfl,here,rfl⟩
  · exact valid.arrive
  · exact call_invariant valid here move
  · exact valid.executed here how

/-- The contexts made for a call are what its state says of them. -/
theorem kept_iff (here : s.calls[i]? = some c) : Kept i s ↔
    ∀ a ∈ s.answers, ∀ context, a.context = some context → a.command.call = i →
      c.pc = .returned (.ok context) ∨ c.pc.awaiting = some a.command.id := by
  constructor
  · intro kept a mem context made own
    obtain ⟨d,now,known⟩ := kept a mem context made own
    obtain rfl := Option.some.inj (here.symm.trans now)
    exact known
  · exact fun known a mem context made own => ⟨c,here,known a mem context made own⟩

def Unmade (i : Nat) (s : State) : Prop := ∀ a ∈ s.answers, a.context.isSome → a.command.call ≠ i

theorem kept_unmade (here : s.calls[i]? = some c) (waits : c.pc.awaiting = none)
    (open_ : ∀ context, c.pc ≠ .returned (.ok context)) : Kept i s ↔ Unmade i s := by
  rw [kept_iff here]
  constructor
  · intro kept a mem made own
    obtain ⟨context,made⟩ := Option.isSome_iff_exists.mp made
    rcases kept a mem context made own with done | awaits
    · exact open_ context done
    · rw [waits] at awaits
      contradiction
  · intro none_ a mem context made own
    exact absurd own (none_ a mem (by rw [made]; rfl))

theorem kept_awaiting {id : Nat} (here : s.calls[i]? = some c) (waits : c.pc.awaiting = some id) :
    Kept i s ↔ ∀ a ∈ s.answers, a.context.isSome → a.command.call = i → a.command.id = id := by
  rw [kept_iff here]
  constructor
  · intro kept a mem made own
    obtain ⟨context,made⟩ := Option.isSome_iff_exists.mp made
    rcases kept a mem context made own with done | awaits
    · rw [done] at waits
      cases waits
    · exact Option.some.inj (awaits.symm.trans waits)
  · intro own a mem context made call
    exact .inr (by rw [waits,own a mem (by rw [made]; rfl) call])

theorem kept_returned (here : s.calls[i]? = some c) (done : c.pc = .returned (.ok context)) :
    Kept i s ↔ ∀ a ∈ s.answers, ∀ made, a.context = some made → a.command.call = i → made = context := by
  rw [kept_iff here]
  constructor
  · intro kept a mem made is own
    rcases kept a mem made is own with same | awaits
    · simpa using same.symm.trans done
    · rw [done] at awaits
      cases awaits
  · intro same a mem made is own
    exact .inl (by rw [done,same a mem made is own])

theorem kept_other (apart : j ≠ i) (move : CallMove s j c choice t) :
    Kept i t ↔ Kept i s := by
  have calls : t.calls[i]? = s.calls[i]? := by
    cases move <;> exact List.getElem?_set_ne apart
  have answers : t.answers = s.answers := by
    cases move <;> rfl
  simp only [Kept,calls,answers]

theorem setCall_here (here : s.calls[i]? = some c) (c' : Call) : (s.setCall i c').calls[i]? = some c' :=
  List.getElem?_set_self (List.getElem?_eq_some_iff.mp here).1

/-- Giving up an attempt keeps the account only where no context was made for it. -/
theorem kept_failed {id : Nat} (here : s.calls[i]? = some c) (at_ : c.pc.id = some id) (now : t.calls[i]? = some (c.failed why))
    (same : t.answers = s.answers) :
    Kept i t ↔ Kept i s ∧ Answered i s (.call i (.fail why)) := by
  have given : Kept i t ↔ Unmade i t := by
    apply kept_unmade now
    · cases again : c.reconnected <;> simp [Call.failed,again,Call.goto,Pc.awaiting]
    · intro context
      cases again : c.reconnected <;> simp [Call.failed,again,Call.goto]
  rw [given,Unmade,same]
  constructor
  · intro none_
    refine ⟨(kept_iff here).mpr fun a mem context made own => ?_,fun _ d found a mem own made => ?_⟩
    · exact absurd own (none_ a mem (by rw [made]; rfl))
    · exact absurd own (none_ a mem made)
  · rintro ⟨kept,answered⟩ a mem made own
    have other := answered rfl c here a mem own made
    obtain ⟨context,made⟩ := Option.isSome_iff_exists.mp made
    rcases (kept_iff here).mp kept a mem context made own with done | awaits
    · rw [done] at at_
      cases at_
    · exact other (Pc.id_of_awaiting awaits)

/-- Reading the answer keeps the account: what was made for the attempt is what is returned. -/
theorem kept_read {answer : Answer} (valid : Invariant s) (here : s.calls[i]? = some c)
    (at_ : c.pc = .reading answer.command.id conn frames) (mem : answer ∈ s.answers) :
    Kept i (s.setCall i (c.answered answer.outcome)) ↔ Kept i s := by
  have now := setCall_here here (c.answered answer.outcome)
  have waits : c.pc.awaiting = some answer.command.id := by rw [at_]; rfl
  have awaits := kept_awaiting here waits
  cases context : answer.context with
  | none =>
    have empty : Kept i s ↔ Unmade i s := by
      rw [awaits]
      constructor
      · intro own a found made call
        obtain rfl := valid.answer_of_id found mem (own a found made call)
        simp [context] at made
      · exact fun none_ a found made call => absurd call (none_ a found made)
    rw [empty]
    have unreturned : (c.answered answer.outcome).pc.awaiting = none ∧
        ∀ context, (c.answered answer.outcome).pc ≠ .returned (.ok context) := by
      cases outcome : answer.outcome with
      | created made => simp [Answer.context,outcome] at context
      | unnamed => simp [Call.answered,Call.goto,Pc.awaiting]
      | rejected =>
        cases again : c.reconnected <;> simp [Call.answered,Call.failed,again,Call.goto,Pc.awaiting]
    exact kept_unmade now unreturned.1 unreturned.2
  | some made =>
    have done : (c.answered answer.outcome).pc = .returned (.ok made) := by
      cases outcome : answer.outcome with
      | created other =>
        obtain rfl : other = made := by simpa [Answer.context,outcome] using context
        rfl
      | unnamed => simp [Answer.context,outcome] at context
      | rejected => simp [Answer.context,outcome] at context
    rw [kept_returned now done,awaits]
    constructor
    · intro same a found isSome own
      obtain ⟨other,is⟩ := Option.isSome_iff_exists.mp isSome
      obtain rfl := same a found other is own
      exact congrArg (fun a => a.command.id) (valid.answer_of_context found mem is context)
    · intro own a found other is call
      obtain rfl := valid.answer_of_id found mem (own a found (by rw [is]; rfl) call)
      exact Option.some.inj (is.symm.trans context)

/-- What a step of the call itself does to its account. -/
theorem kept_own (valid : Invariant s) (here : s.calls[i]? = some c) (move : CallMove s i c choice t) :
    Kept i t ↔ Kept i s ∧ Answered i s (.call i choice) := by
  cases move with
  | begin at_ =>
    have before := kept_unmade (i := i) here (by rw [at_]; rfl) (by simp [at_])
    have after := kept_unmade (i := i) (setCall_here here (c.goto (.locking s.nextId))) rfl (by simp [Call.goto])
    exact (after.trans before.symm).trans (and_iff_left trivial).symm
  | hold id before after same socket nextConn other =>
    rename_i pc
    have answered : Answered i s (.call i choice) := by
      cases choice with
      | fail why => exact absurd rfl (other why)
      | _ => trivial
    have open_ : ∀ (pc : Pc) context, pc.id = some id → pc ≠ .returned (.ok context) := by
      intro pc context own done
      rw [done] at own
      cases own
    have now := setCall_here here (c.goto pc)
    rw [and_iff_left answered]
    cases waits : c.pc.awaiting with
    | none =>
      exact (kept_unmade now (same.trans waits) (fun context => open_ pc context after)).trans
        (kept_unmade here waits (fun context => open_ c.pc context before)).symm
    | some attempt => exact (kept_awaiting now (same.trans waits)).trans (kept_awaiting here waits).symm
  | send at_ =>
    rename_i conn id
    have unsent := valid.unsent i c id here (by rw [at_]; rfl) (by rw [at_]; rfl)
    have before := kept_unmade (i := i) here (by rw [at_]; rfl) (by simp [at_])
    have waits : (c.goto (.reading id conn 0)).pc.awaiting = some id := rfl
    have after := kept_awaiting (i := i) (setCall_here here (c.goto (.reading id conn 0))) waits
    refine Iff.trans ?_ (and_iff_left trivial).symm
    refine after.trans (Iff.trans ?_ before.symm)
    constructor
    · exact fun own a mem made call => unsent a.command (mem_commands mem) (own a mem made call)
    · exact fun none_ a mem made call => absurd call (none_ a mem made)
  | read answer at_ mem => exact (kept_read valid here at_ mem).trans (and_iff_left trivial).symm
  | fail id at_ => exact kept_failed here at_ (setCall_here here _) rfl
  | failSend at_ => exact kept_failed here (by rw [at_]; rfl) (setCall_here here _) rfl
  | drop at_ =>
    have before := kept_unmade (i := i) here (by rw [at_]; rfl) (by simp [at_])
    have after := kept_unmade (i := i) (setCall_here here ⟨.idle,true⟩) rfl (by simp)
    exact (after.trans before.symm).trans (and_iff_left trivial).symm

/-- A context made for the call is accounted for exactly when the call awaits its answer. -/
theorem kept_executed {command : Command} (valid : Invariant s) (here : s.sent[k]? = some command) (how : Execution) :
    Kept i (executed s k command how) ↔ Kept i s ∧ Answered i s (.execute k how) := by
  have split : Kept i (executed s k command how) ↔ Kept i s ∧ ∀ context,
      (⟨command,s.outcome how⟩ : Answer).context = some context → command.call = i →
      ∃ c, s.calls[i]? = some c ∧ (c.pc = .returned (.ok context) ∨ c.pc.awaiting = some command.id) := by
    simp only [Kept,executed,List.mem_append,List.mem_singleton,or_imp,forall_and,forall_eq]
  rw [split]
  refine and_congr_right fun _ => ?_
  cases how with
  | rejects | answers => simp [Answer.context,State.outcome,Answered]
  | creates =>
    simp only [Answer.context,State.outcome,Option.some.injEq,forall_eq',Answered,here]
    constructor
    · intro known own
      obtain ⟨c,at_,done | awaits⟩ := known own
      · obtain ⟨a,mem,old,_⟩ := valid.returned i c s.nextContext at_ done
        exact absurd (valid.bounded _ (mem_contexts mem old)) (Nat.lt_irrefl _)
      · exact ⟨c,at_,awaits⟩
    · intro answered own
      obtain ⟨c,at_,awaits⟩ := answered own
      exact ⟨c,at_,.inr awaits⟩

theorem kept_arrive (i : Nat) (s : State) : Kept i { s with calls := s.calls ++ [⟨.idle,false⟩] } ↔ Kept i s := by
  constructor
  · intro kept a mem context made own
    obtain ⟨c,at_,known⟩ := kept a mem context made own
    rcases getElem?_append_cases at_ with old | ⟨_,rfl⟩
    · exact ⟨c,old,known⟩
    · rcases known with done | awaits
      · cases done
      · cases awaits
  · intro kept a mem context made own
    obtain ⟨c,at_,known⟩ := kept a mem context made own
    exact ⟨c,List.getElem?_append_left (List.getElem?_eq_some_iff.mp at_).1 ▸ at_,known⟩

theorem kept_step (valid : Invariant s) (taken : step s a = some t) : Kept i t ↔ Kept i s ∧ Answered i s a := by
  rcases step_cases taken with ⟨rfl,rfl⟩ | ⟨j,choice,c,rfl,here,move⟩ | ⟨k,how,command,rfl,here,rfl⟩
  · rw [kept_arrive]
    exact (and_iff_left trivial).symm
  · by_cases same : j = i
    · subst same
      exact kept_own valid here move
    · have answered : Answered i s (.call j choice) := by
        cases choice with
        | fail why => exact fun own => absurd own same
        | _ => trivial
      rw [kept_other same move,and_iff_left answered]
  · exact kept_executed valid here how

/-- Of a call that has ended, the account says that it made and returned the same context. -/
theorem createdOnce_iff_kept (valid : Invariant s) (ended : Ended s i) : CreatedOnce s i ↔ Kept i s := by
  obtain ⟨c,here,result,done⟩ := ended
  have made : ∀ context, context ∈ s.madeFor i ↔ ∃ a ∈ s.answers, a.context = some context ∧ a.command.call = i := by
    intro context
    simp only [State.madeFor,List.mem_filterMap,List.mem_filter,decide_eq_true_eq]
    tauto
  constructor
  · intro created a mem context is own
    obtain ⟨d,at_,returned⟩ := created.left context ((made context).mpr ⟨a,mem,is,own⟩)
    exact ⟨d,at_,.inl returned⟩
  · intro kept
    have returned : ∀ context ∈ s.madeFor i, c.pc = .returned (.ok context) := by
      intro context mem
      obtain ⟨a,found,is,own⟩ := (made context).mp mem
      rcases (kept_iff here).mp kept a found context is own with same | awaits
      · exact same
      · rw [done] at awaits
        cases awaits
    refine ⟨?_,?_,fun context mem => ⟨c,here,returned context mem⟩⟩
    · have nodup : (s.madeFor i).Nodup :=
        ((List.filter_sublist).filterMap Answer.context).nodup valid.minted
      match list : s.madeFor i with
      | [] => exact Nat.zero_le _
      | [_] => exact Nat.le_refl _
      | x :: y :: rest =>
        have hx := returned x (by simp [list])
        have hy := returned y (by simp [list])
        obtain rfl : x = y := by simpa [hx] using hy
        simp [list] at nodup
    · intro d context at_ same
      obtain ⟨a,found,is,own⟩ := valid.returned i d context at_ same
      refine ⟨(made context).mpr ⟨a,found,is,own⟩,fun j mem => ?_⟩
      obtain ⟨b,other,also,whose⟩ : ∃ b ∈ s.answers, b.context = some context ∧ b.command.call = j := by
        simpa [State.madeFor,and_assoc,and_comm,and_left_comm] using mem
      obtain rfl := valid.answer_of_context found other is also
      exact whose.symm.trans own

/-- When a call has ended, it made at most one context, returned no other and left none
behind, exactly when no attempt of its was given up over a context and none was made for
an attempt that had been given up. -/
theorem created_once_iff (actions : List Action) (s : State) (i : Nat)
    (ran : machine.exec actions machine.initial = some s) (ended : Ended s i) :
    CreatedOnce s i ↔ machine.Meets (Answered i) actions machine.initial := by
  have valid : Invariant s := (Machine.reachable_of_exec ran).invariant Invariant.initial
    (fun s a t _ valid taken => valid.step taken)
  have initial : Kept i machine.initial := by simp [Kept,machine]
  have account := Machine.last_iff_meets (m := machine) (fun s a t (valid : Invariant s) taken => valid.step taken)
    (fun s a t valid taken => kept_step (i := i) valid taken) actions machine.initial Invariant.initial ran
  exact (createdOnce_iff_kept valid ended).trans (account.trans (and_iff_right initial))

def answered : List Action :=
  [.arrive,.call 0 .begin,.call 0 .lock,.call 0 .send,.execute 0 .creates,.call 0 (.read 0)]

theorem created_once_answered : ∃ s, machine.exec answered machine.initial = some s ∧
    (CreatedOnce s 0 ↔ machine.Meets (Answered 0) answered machine.initial) :=
  ⟨_,rfl,created_once_iff answered _ 0 rfl ⟨_,rfl,_,rfl⟩⟩

def lateAnswer : List Action :=
  [.arrive,.call 0 .begin,.call 0 .lock,.call 0 .send,.execute 0 .creates,.call 0 (.fail .timedOut),.call 0 .drop,
   .call 0 .begin,.call 0 .lock,.call 0 .connect,.call 0 .send,.execute 0 .creates,.call 0 (.read 1)]

/-- The retry makes a second context; the id of the first is returned to nobody. -/
theorem retry_makes_second_context : ∃ s, machine.exec lateAnswer machine.initial = some s ∧
    s.madeFor 0 = [0,1] ∧ s.calls[0]?.map Call.pc = some (.returned (.ok 1)) ∧ ¬CreatedOnce s 0 := by
  refine ⟨_,rfl,rfl,rfl,fun created => ?_⟩
  exact absurd created.once (by decide)

end BrowserHive.BrowserCdp
