import Mathlib.Data.List.Sort
import BrowserHive.Config

/-! A browser context's bookkeeping and the pure decisions made from it: which contexts
may serve a request, in which order, and which are due for recycling. A context is named
by its id; the uuid of the source is a number here, and ids are never issued twice. -/
namespace BrowserHive

abbrev ContextId := Nat

structure BrowserContext where
  createdAt : Nat
  lastUsedAt : Nat
  totalRequests : Nat
  cacheSizeMb : Nat
  isBusy : Bool
  /-- Origins that refused this context, each with the end of its quarantine. -/
  blockedOrigins : List (String × Nat)
  tab : Option Nat
  cdpContextId : Option Nat
  deriving DecidableEq, Repr

def BrowserContext.new (now : Nat) (tab cdpContextId : Option Nat) : BrowserContext :=
  { createdAt := now, lastUsedAt := now, totalRequests := 0, cacheSizeMb := 0, isBusy := false,
    blockedOrigins := [], tab := tab, cdpContextId := cdpContextId }

def maxBlockedOrigins : Nat := 32

/-- The entry whose quarantine ends first. -/
def earliestBlock (blocked : List (String × Nat)) : Option (String × Nat) :=
  blocked.foldl (fun best entry =>
    match best with
    | none => some entry
    | some other => if entry.2 < other.2 then some entry else some other) none

/-- Keep `origin` away from this context until `now + cooldown`. -/
def BrowserContext.quarantineOrigin (context : BrowserContext) (now : Nat) (origin : String)
    (cooldown : Nat) : BrowserContext :=
  let blocked := context.blockedOrigins
  let known := blocked.any (fun entry => entry.1 == origin)
  let room :=
    if !known && blocked.length ≥ maxBlockedOrigins then
      let live := blocked.filter (fun entry => entry.2 > now)
      if live.length ≥ maxBlockedOrigins then
        match earliestBlock live with
        | some earliest => live.filter (fun entry => entry.1 != earliest.1)
        | none => live
      else live
    else blocked
  { context with
    blockedOrigins := room.filter (fun entry => entry.1 != origin) ++ [(origin,now + cooldown)] }

/-- When the quarantine for `origin` ends, or `none` when the context may serve it now. The
source also drops an expired entry it meets; no later answer depends on that. -/
def BrowserContext.quarantinedUntil (context : BrowserContext) (now : Nat) (origin : String) :
    Option Nat :=
  match context.blockedOrigins.find? (fun entry => entry.1 == origin) with
  | some (_,deadline) => if deadline > now then some deadline else none
  | none => none

def BrowserContext.isUsedUp (context : BrowserContext) (lifecycle : ContextLifecycleConfig)
    (now : Nat) : Bool :=
  lifecycle.isUsedUp (now - context.createdAt) context.totalRequests

def shouldRecycleContext (context : BrowserContext) (config : ContextLifecycleConfig) (now : Nat) :
    Bool :=
  context.isUsedUp config now ||
  match config.rotationStrategy with
  | .timeBasedOnly | .requestBasedOnly => false
  | .hybrid =>
    decide (now - context.lastUsedAt > config.maxIdleTime) ||
    decide (context.cacheSizeMb > config.maxCacheSizeMb)

inductive Selection where
  | leastUsed (origin : Option String)
  | usedUp
  | soonestUnquarantined (origin : String)
  deriving DecidableEq, Repr

def Selection.admits (selection : Selection) (lifecycle : ContextLifecycleConfig) (now : Nat)
    (context : BrowserContext) : Bool :=
  !context.isBusy &&
  match selection with
  | .leastUsed none => !context.isUsedUp lifecycle now
  | .leastUsed (some origin) =>
    !context.isUsedUp lifecycle now && (context.quarantinedUntil now origin).isNone
  | .usedUp => context.isUsedUp lifecycle now
  | .soonestUnquarantined origin =>
    !context.isUsedUp lifecycle now && (context.quarantinedUntil now origin).isSome

def Selection.key (selection : Selection) (now : Nat) (context : BrowserContext) : Nat :=
  match selection with
  | .leastUsed _ => context.totalRequests
  | .usedUp => context.createdAt
  | .soonestUnquarantined origin => (context.quarantinedUntil now origin).getD 0

def Selection.sort (selection : Selection) (now : Nat) (ctx : ContextId → BrowserContext)
    (candidates : List ContextId) : List ContextId :=
  candidates.insertionSort (fun a b => selection.key now (ctx a) ≤ selection.key now (ctx b))

theorem Selection.mem_sort {selection : Selection} {candidates : List ContextId} :
    c ∈ selection.sort now ctx candidates ↔ c ∈ candidates := List.mem_insertionSort _

end BrowserHive
