/-! Scope configuration: session modes, context isolation, the lifecycle thresholds and
the startup validation. A `ValidScope` is a scope that passed `validate`, so a pool is
only ever built from an accepted configuration. Durations are counts of one clock unit. -/
namespace BrowserHive

inductive SessionMode where
  | alwaysNew
  | reusable
  | dedicated
  deriving DecidableEq, Repr

def SessionMode.returnsSessionId : SessionMode → Bool
  | .dedicated => true
  | _ => false

inductive ContextIsolation where
  | shared
  | isolated
  deriving DecidableEq, Repr

inductive RotationStrategy where
  | timeBasedOnly
  | requestBasedOnly
  | hybrid
  deriving DecidableEq, Repr

structure ContextLifecycleConfig where
  maxLifetime : Nat
  maxRequests : Nat
  maxCacheSizeMb : Nat
  maxIdleTime : Nat
  rotationStrategy : RotationStrategy
  deriving DecidableEq, Repr

/-- Whether a context of this age and request count must not be handed another request. -/
def ContextLifecycleConfig.isUsedUp (config : ContextLifecycleConfig) (age requests : Nat) : Bool :=
  let tooOld := decide (age > config.maxLifetime)
  let tooMany := decide (requests ≥ config.maxRequests)
  match config.rotationStrategy with
  | .timeBasedOnly => tooOld
  | .requestBasedOnly => tooMany
  | .hybrid => tooOld || tooMany

/-- The request parameters that pick the proxy's exit. -/
structure ProxyParams where
  countryCode : Option String
  deriving DecidableEq, Repr

/-- Routing overrides cannot be applied to an existing context. -/
def ProxyParams.requiresDedicatedContext (params : ProxyParams) : Bool := params.countryCode.isSome

structure ScopeConfig where
  minContexts : Nat
  maxContexts : Nat
  sessionMode : SessionMode
  contextIsolation : ContextIsolation
  lifecycle : ContextLifecycleConfig
  destroySessionOnBlock : Bool
  blockQuarantine : Nat
  closeTabAfterRequest : Bool
  assignsProxyHostPerContext : Bool
  deriving DecidableEq, Repr

/-- Combinations that silently do the wrong thing; the worker refuses to start. -/
inductive ConfigError where
  | maxContextsZero
  | minExceedsMax (min max : Nat)
  | dedicatedNeedsIsolated
  | dedicatedNeedsHybrid (strategy : RotationStrategy)
  | lifetimeBelowIdle (maxLifetime maxIdleTime : Nat)
  deriving DecidableEq, Repr

inductive ConfigWarning where
  | minContextsUnused (min : Nat)
  | lifecycleUnused
  | strategyIgnoresThresholds (strategy : RotationStrategy)
  | quarantineUnused
  | closeTabUnused
  | singleExit (min max : Nat)
  | destroyOnBlockUnused
  deriving DecidableEq, Repr

def ScopeConfig.warnings (scope : ScopeConfig) : List ConfigWarning :=
  (if scope.minContexts > 0 ∧ scope.sessionMode ≠ .reusable
    then [.minContextsUnused scope.minContexts] else []) ++
  (if scope.sessionMode = .alwaysNew then [.lifecycleUnused] else []) ++
  (if scope.sessionMode = .reusable ∧ scope.lifecycle.rotationStrategy ≠ .hybrid
    then [.strategyIgnoresThresholds scope.lifecycle.rotationStrategy] else []) ++
  (if scope.blockQuarantine ≠ 0 ∧ scope.sessionMode ≠ .reusable then [.quarantineUnused] else []) ++
  (if scope.closeTabAfterRequest ∧ scope.sessionMode ≠ .reusable then [.closeTabUnused] else []) ++
  (if scope.sessionMode = .reusable ∧ scope.minContexts < scope.maxContexts ∧
      scope.assignsProxyHostPerContext
    then [.singleExit scope.minContexts scope.maxContexts] else []) ++
  (if scope.destroySessionOnBlock ∧ scope.sessionMode ≠ .dedicated
    then [.destroyOnBlockUnused] else [])

def ScopeConfig.validate (scope : ScopeConfig) : Except ConfigError (List ConfigWarning) :=
  if scope.maxContexts = 0 then .error .maxContextsZero
  else if scope.minContexts > scope.maxContexts then
    .error (.minExceedsMax scope.minContexts scope.maxContexts)
  else if scope.sessionMode = .dedicated ∧ scope.contextIsolation = .shared then
    .error .dedicatedNeedsIsolated
  else if scope.sessionMode = .dedicated ∧ scope.lifecycle.rotationStrategy ≠ .hybrid then
    .error (.dedicatedNeedsHybrid scope.lifecycle.rotationStrategy)
  else if scope.sessionMode ≠ .alwaysNew ∧ scope.lifecycle.maxLifetime < scope.lifecycle.maxIdleTime then
    .error (.lifetimeBelowIdle scope.lifecycle.maxLifetime scope.lifecycle.maxIdleTime)
  else .ok scope.warnings

structure ValidScope extends ScopeConfig where
  warned : List ConfigWarning
  accepted : toScopeConfig.validate = .ok warned

theorem validate_accepts {scope : ScopeConfig} (accepted : scope.validate = .ok warned) :
    warned = scope.warnings ∧ 0 < scope.maxContexts ∧ scope.minContexts ≤ scope.maxContexts ∧
    (scope.sessionMode = .dedicated →
      scope.contextIsolation = .isolated ∧ scope.lifecycle.rotationStrategy = .hybrid) ∧
    (scope.sessionMode ≠ .alwaysNew → scope.lifecycle.maxIdleTime ≤ scope.lifecycle.maxLifetime) := by
  unfold ScopeConfig.validate at accepted
  split at accepted
  · contradiction
  · split at accepted
    · contradiction
    · split at accepted
      · contradiction
      · next shared =>
        split at accepted
        · contradiction
        · next rotation =>
          split at accepted
          · contradiction
          · next lifetime =>
            refine ⟨by simpa using accepted.symm,by omega,by omega,?_,?_⟩
            · intro dedicated
              refine ⟨?_,by simpa [dedicated] using rotation⟩
              cases isolation : scope.contextIsolation with
              | shared => exact absurd ⟨dedicated,isolation⟩ shared
              | isolated => rfl
            · exact fun keeps => Nat.le_of_not_lt fun below => lifetime ⟨keeps,below⟩

theorem ValidScope.min_le_max (scope : ValidScope) : scope.minContexts ≤ scope.maxContexts :=
  (validate_accepts scope.accepted).2.2.1

def ValidScope.small (mode : SessionMode) : ValidScope where
  minContexts := 0
  maxContexts := 1
  sessionMode := mode
  contextIsolation := .isolated
  lifecycle :=
    { maxLifetime := 100, maxRequests := 10, maxCacheSizeMb := 500, maxIdleTime := 60,
      rotationStrategy := .hybrid }
  destroySessionOnBlock := false
  blockQuarantine := 0
  closeTabAfterRequest := false
  assignsProxyHostPerContext := false
  warned := match mode with
    | .alwaysNew => [.lifecycleUnused]
    | _ => []
  accepted := by cases mode <;> rfl

end BrowserHive
