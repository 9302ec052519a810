import BrowserHive.Lib.Fields
import BrowserHive.Lib.Outcome
import BrowserHive.Pool.Proxying

/-! The start of a worker from its environment: the proxy provider, the configuration, its
validation, and the guards in front of the browser's launch. Durations are seconds. -/
namespace BrowserHive.Worker.Startup

open Text (parseUnsigned)

inductive VarError where
  | notPresent
  | notUnicode
  deriving DecidableEq, Repr

abbrev Env := String → Except VarError String

/-- Of the lowercase of a character only what is ASCII matters to a comparison with an ASCII
word: but for A to Z, the Kelvin sign alone has one. -/
def lowerChar (c : Char) : Char := if c = Char.ofNat 0x212A then 'k' else c.toLower

/-- `to_lowercase`, for the comparison with ASCII words. -/
def toLowercase (text : List Char) : String := String.ofList (text.map lowerChar)

def parseU16 (text : List Char) : Option Nat := parseUnsigned (2^16) text

def parseU64 (text : List Char) : Option Nat := parseUnsigned (2^64) text

def parseBool (text : List Char) : Option Bool :=
  if text = "true".toList then some true else if text = "false".toList then some false else none

def parseSessionMode (text : List Char) : Option SessionMode :=
  match toLowercase text with
  | "always_new" => some .alwaysNew
  | "reusable" => some .reusable
  | "dedicated" => some .dedicated
  | _ => none

def parseContextIsolation (text : List Char) : Option ContextIsolation :=
  match toLowercase text with
  | "shared" => some .shared
  | "isolated" => some .isolated
  | _ => none

def parseProxyScheme (text : List Char) : Option ProxyScheme :=
  match toLowercase text with
  | "http" => some .http
  | "https" => some .https
  | "socks5" => some .socks5
  | _ => none

inductive StartError where
  | emptyProxyType
  | unknownProxyType (raw : String)
  | proxyPort (raw : String)
  | invalid (key raw : String)
  | notUnicode (key : String)
  | config (e : ConfigError)
  | refused (e : LaunchRefused)
  deriving DecidableEq, Repr

section Providers

variable (env : Env)

/-- A blank value is as none. -/
def envNonEmpty (key : String) : Option String :=
  ((env key).toOption.map fun value => String.ofList (Text.trim value.toList)).filter (· ≠ "")

def noProxyProvider : ProxyProvider := ⟨.ok ⟨none,.http,none,none,none,none⟩,false,false,true⟩

/-- The fields are those of its configuration. -/
def genericProxyProvider (config : ProxyConfig) : ProxyProvider := ⟨.ok config,false,false,false⟩

def proxyPort : Except StartError (Option UInt16) :=
  match envNonEmpty env "PROXY_PORT" with
  | some raw =>
    match parseU16 raw.toList with
    | some port => .ok (some (UInt16.ofNat port))
    | none => .error (.proxyPort raw)
  | none => .ok none

def proxyScheme : ProxyScheme := ((env "PROXY_SCHEME").toOption.bind fun raw => parseProxyScheme raw.toList).getD .http

def genericFromEnv : Except StartError ProxyConfig :=
  match envNonEmpty env "PROXY_URL" with
  | some url => .ok ⟨some url,.http,none,none,none,none⟩
  | none => do
    let address := envNonEmpty env "PROXY_ADDRESS"
    let port ← proxyPort env
    return ⟨none,proxyScheme env,address,port,(env "PROXY_USERNAME").toOption,(env "PROXY_PASSWORD").toOption⟩

/-- An unreadable type is as none. -/
def createFromEnv : Except StartError ProxyProvider :=
  let proxyType := (env "PROXY_TYPE").toOption.getD "none"
  match toLowercase proxyType.toList with
  | "none" | "no_proxy" => .ok noProxyProvider
  | "generic" | "default" => genericProxyProvider <$> genericFromEnv env
  | "" => .error .emptyProxyType
  | _ => .error (.unknownProxyType proxyType)

end Providers

section Settings

variable (env : Env)

/-- `env_parsed`, and `env_enum` but for the text of its error. -/
def envParsed {α : Type} (key : String) (parse : List Char → Option α) (default : α) : Except StartError α :=
  match env key with
  | .ok raw =>
    match parse (Text.trim raw.toList) with
    | some value => .ok value
    | none => .error (.invalid key raw)
  | .error .notPresent => .ok default
  | .error .notUnicode => .error (.notUnicode key)

structure WorkerConfig where
  name : String
  scope : ScopeConfig
  headless : Bool
  disableBackForwardCache : Bool
  grpcPort : Nat
  podName : String
  podIp : String
  browserPath : Option String
  deriving DecidableEq, Repr

def defaultMaxIdleTimeSecs (mode : SessionMode) : Nat := if mode = .dedicated then 60 else 5 * 60

def defaultBlockQuarantineSecs (mode : SessionMode) : Nat := if mode = .reusable then 5 * 60 else 0

def loadConfigFromEnv (provider : ProxyProvider) : Except StartError WorkerConfig := do
  let grpcPort ← envParsed env "WORKER_GRPC_PORT" parseU16 50052
  let maxContexts ← envParsed env "WORKER_MAX_CONTEXTS" parseU16 3
  let sessionMode ← envParsed env "WORKER_SESSION_MODE" parseSessionMode .reusable
  let minContexts ← envParsed env "WORKER_MIN_CONTEXTS" parseU16 0
  let headless ← envParsed env "WORKER_HEADLESS" parseBool true
  let contextIsolation ← envParsed env "WORKER_CONTEXT_ISOLATION" parseContextIsolation .isolated
  let maxIdleTimeSecs ← envParsed env "WORKER_MAX_IDLE_TIME_SECS" parseU64 (defaultMaxIdleTimeSecs sessionMode)
  let destroySessionOnBlock ← envParsed env "WORKER_DESTROY_SESSION_ON_BLOCK" parseBool (sessionMode = .dedicated)
  let blockQuarantine ← envParsed env "WORKER_BLOCK_QUARANTINE_SECS" parseU64 (defaultBlockQuarantineSecs sessionMode)
  let disableBackForwardCache ← envParsed env "WORKER_DISABLE_BACK_FORWARD_CACHE" parseBool false
  let closeTabAfterRequest ← envParsed env "WORKER_CLOSE_TAB_AFTER_REQUEST" parseBool false
  return {
    name := (env "WORKER_SCOPE_NAME").toOption.getD "local_dev"
    scope := {
      minContexts, maxContexts, sessionMode, contextIsolation
      lifecycle := ⟨6 * 3600,10000,500,maxIdleTimeSecs,.hybrid⟩
      destroySessionOnBlock, blockQuarantine, closeTabAfterRequest
      assignsProxyHostPerContext := provider.assignsProxyHostPerContext }
    headless, disableBackForwardCache, grpcPort
    podName := (env "POD_NAME").toOption.getD "worker-local"
    podIp := (env "POD_IP").toOption.getD "0.0.0.0"
    browserPath := (env "WORKER_BROWSER_PATH").toOption }

structure Started where
  provider : ProxyProvider
  config : WorkerConfig
  warnings : List ConfigWarning
  launch : Launch
  accepted : config.scope.validate = .ok warnings

def start : Except StartError Started := do
  let provider ← createFromEnv env
  let config ← loadConfigFromEnv env provider
  match accepted : config.scope.validate with
  | .error e => .error (.config e)
  | .ok warnings =>
    let launch ← (BrowserPool.new provider config.scope.contextIsolation).mapError .refused
    return ⟨provider,config,warnings,launch,accepted⟩

def Started.pool (started : Started) (disposer : Bool) : Pool.Config :=
  ⟨{ started.config.scope with warned := started.warnings, accepted := started.accepted },disposer⟩

end Settings

def IsSet (env : Env) (key : String) : Prop := env key ≠ .error .notPresent

def blames : StartError → List String
  | .emptyProxyType | .unknownProxyType _ => ["PROXY_TYPE"]
  | .proxyPort _ => ["PROXY_TYPE","PROXY_PORT"]
  | .invalid key _ | .notUnicode key => [key]
  | .config .maxContextsZero => ["WORKER_MAX_CONTEXTS"]
  | .config (.minExceedsMax ..) => ["WORKER_MIN_CONTEXTS"]
  | .config .dedicatedNeedsIsolated => ["WORKER_SESSION_MODE","WORKER_CONTEXT_ISOLATION"]
  | .config (.lifetimeBelowIdle ..) => ["WORKER_MAX_IDLE_TIME_SECS"]
  | .refused .noProxyServer => ["PROXY_TYPE"]
  | .config (.dedicatedNeedsHybrid _) | .refused .sharedIsolation | .refused .noPerContextProxy | .refused .noConfig => []

/-- There are such variables, and all are set. -/
def Blamed (env : Env) (e : StartError) : Prop := blames e ≠ [] ∧ ∀ key ∈ blames e, IsSet env key

/-- The variable that a warning is about; one warning is about the mode alone. -/
def warns : ConfigWarning → Option String
  | .minContextsUnused _ => some "WORKER_MIN_CONTEXTS"
  | .quarantineUnused => some "WORKER_BLOCK_QUARANTINE_SECS"
  | .closeTabUnused => some "WORKER_CLOSE_TAB_AFTER_REQUEST"
  | .destroyOnBlockUnused => some "WORKER_DESTROY_SESSION_ON_BLOCK"
  | .lifecycleUnused | .strategyIgnoresThresholds _ | .singleExit .. => none

/-- The variables ask for no proxy, or do not say. -/
def DirectAllowed (env : Env) : Prop :=
  toLowercase ((env "PROXY_TYPE").toOption.getD "none").toList ∈ ["none","no_proxy"]

/-- What a variable gives a proxy: its text without the blanks around it, or nothing where it has none. -/
def Given (env : Env) (key : String) : Option String → Prop
  | some value => value ≠ "" ∧ ∃ raw, env key = .ok raw ∧ value = String.ofList (Text.trim raw.toList)
  | none => ∀ raw, env key = .ok raw → Text.trim raw.toList = []

def PortGiven (env : Env) : Option UInt16 → Prop
  | some port => ∃ raw, Given env "PROXY_PORT" (some raw) ∧ parseU16 raw.toList = some port.toNat
  | none => Given env "PROXY_PORT" none

/-- The scheme that a variable names; `http` where it names none. -/
def SchemeGiven (env : Env) (scheme : ProxyScheme) : Prop :=
  (∃ raw, env "PROXY_SCHEME" = .ok raw ∧ parseProxyScheme raw.toList = some scheme) ∨
    (∀ raw, env "PROXY_SCHEME" = .ok raw → parseProxyScheme raw.toList = none) ∧ scheme = .http

/-- The proxy that the variables describe: one URL, or the parts of one. -/
inductive Configured (env : Env) : ProxyConfig → Prop where
  | url (given : Given env "PROXY_URL" (some url)) : Configured env ⟨some url,.http,none,none,none,none⟩
  | parts (none_ : Given env "PROXY_URL" none) (address : Given env "PROXY_ADDRESS" host) (port : PortGiven env n)
    (scheme : SchemeGiven env s) :
    Configured env ⟨none,s,host,n,(env "PROXY_USERNAME").toOption,(env "PROXY_PASSWORD").toOption⟩

/-- The server that a URL names: up to its first `://` and from its first `@` on, if it has both. -/
inductive ServerOf (url : List Char) : List Char → Prop where
  | whole (plain : ¬['@'] <:+: url ∨ ¬[':','/','/'] <:+: url) : ServerOf url url
  | cut (scheme : Text.CutAt [':','/','/'] front rest url) (at_ : Text.CutAt ['@'] credentials host url) :
    ServerOf url (front ++ [':','/','/'] ++ host)

/-- The exit that the variables name, but for blanks around it. -/
inductive NamesProxy (env : Env) : String → Prop where
  | url (given : Given env "PROXY_URL" (some url)) (server : ServerOf url.toList text) :
    NamesProxy env (String.ofList (Text.trim text))
  | parts (none_ : Given env "PROXY_URL" none) (address : Given env "PROXY_ADDRESS" (some host))
    (port : PortGiven env (some n)) (scheme : SchemeGiven env s) :
    NamesProxy env (String.ofList (Text.trim (s.asStr ++ "://" ++ host ++ ":" ++ toString n.toNat).toList))

section Reading

open Outcome (Ends)

variable {env : Env} {provider : ProxyProvider} {config : WorkerConfig} {key : String}

/-- What a setting is: the default, or what its variable says. -/
def Reads {α : Type} (env : Env) (key : String) (parse : List Char → Option α) (default value : α) : Prop :=
  (env key = .error .notPresent ∧ value = default) ∨ ∃ raw, env key = .ok raw ∧ parse (Text.trim raw.toList) = some value

theorem Reads.set {α : Type} {parse : List Char → Option α} {default value : α} (reads : Reads env key parse default value)
    (other : value ≠ default) : IsSet env key := by
  rcases reads with ⟨_,same⟩ | ⟨raw,set,_⟩
  · exact absurd same other
  · simp [IsSet,set]

theorem envParsed_ends {α : Type} (env : Env) (key : String) (parse : List Char → Option α) (default : α) :
    Ends (envParsed env key parse default) (Reads env key parse default) (Blamed env) := by
  unfold envParsed
  split
  · next raw set =>
    split
    · next value parsed => exact .inr ⟨raw,set,parsed⟩
    · exact ⟨List.cons_ne_nil _ _,by simp [blames,IsSet,set]⟩
  · next unset => exact .inl ⟨unset,rfl⟩
  · next bad => exact ⟨List.cons_ne_nil _ _,by simp [blames,IsSet,bad]⟩

structure Loaded (env : Env) (provider : ProxyProvider) (config : WorkerConfig) : Prop where
  grpcPort : Reads env "WORKER_GRPC_PORT" parseU16 50052 config.grpcPort
  maxContexts : Reads env "WORKER_MAX_CONTEXTS" parseU16 3 config.scope.maxContexts
  sessionMode : Reads env "WORKER_SESSION_MODE" parseSessionMode .reusable config.scope.sessionMode
  minContexts : Reads env "WORKER_MIN_CONTEXTS" parseU16 0 config.scope.minContexts
  headless : Reads env "WORKER_HEADLESS" parseBool true config.headless
  contextIsolation : Reads env "WORKER_CONTEXT_ISOLATION" parseContextIsolation .isolated config.scope.contextIsolation
  maxIdleTime : Reads env "WORKER_MAX_IDLE_TIME_SECS" parseU64 (defaultMaxIdleTimeSecs config.scope.sessionMode)
    config.scope.lifecycle.maxIdleTime
  destroySessionOnBlock : Reads env "WORKER_DESTROY_SESSION_ON_BLOCK" parseBool (config.scope.sessionMode = .dedicated)
    config.scope.destroySessionOnBlock
  blockQuarantine : Reads env "WORKER_BLOCK_QUARANTINE_SECS" parseU64 (defaultBlockQuarantineSecs config.scope.sessionMode)
    config.scope.blockQuarantine
  disableBackForwardCache : Reads env "WORKER_DISABLE_BACK_FORWARD_CACHE" parseBool false config.disableBackForwardCache
  closeTabAfterRequest : Reads env "WORKER_CLOSE_TAB_AFTER_REQUEST" parseBool false config.scope.closeTabAfterRequest
  maxLifetime : config.scope.lifecycle.maxLifetime = 6 * 3600
  rotationStrategy : config.scope.lifecycle.rotationStrategy = .hybrid
  assigns : config.scope.assignsProxyHostPerContext = provider.assignsProxyHostPerContext
  name : config.name = (env "WORKER_SCOPE_NAME").toOption.getD "local_dev"
  podName : config.podName = (env "POD_NAME").toOption.getD "worker-local"
  podIp : config.podIp = (env "POD_IP").toOption.getD "0.0.0.0"
  browserPath : config.browserPath = (env "WORKER_BROWSER_PATH").toOption

theorem load_ends (env : Env) (provider : ProxyProvider) :
    Ends (loadConfigFromEnv env provider) (Loaded env provider) (Blamed env) := by
  unfold loadConfigFromEnv
  refine .bind (envParsed_ends ..) fun grpcPort port => ?_
  refine .bind (envParsed_ends ..) fun maxContexts max => ?_
  refine .bind (envParsed_ends ..) fun sessionMode mode => ?_
  refine .bind (envParsed_ends ..) fun minContexts min => ?_
  refine .bind (envParsed_ends ..) fun headless shown => ?_
  refine .bind (envParsed_ends ..) fun contextIsolation isolation => ?_
  refine .bind (envParsed_ends ..) fun maxIdleTimeSecs idle => ?_
  refine .bind (envParsed_ends ..) fun destroySessionOnBlock destroy => ?_
  refine .bind (envParsed_ends ..) fun blockQuarantine quarantine => ?_
  refine .bind (envParsed_ends ..) fun disableBackForwardCache cache => ?_
  refine .bind (envParsed_ends ..) fun closeTabAfterRequest close => ?_
  exact .pure ⟨port,max,mode,min,shown,isolation,idle,destroy,quarantine,cache,close,rfl,rfl,rfl,rfl,rfl,rfl,rfl⟩

theorem defaultMaxIdleTimeSecs_le (mode : SessionMode) : defaultMaxIdleTimeSecs mode ≤ 6 * 3600 := by
  cases mode <;> decide

/-- Only what a variable asks for is refused. -/
theorem validate_ends (loaded : Loaded env provider config) :
    Ends config.scope.validate (· = config.scope.warnings) fun e => Blamed env (.config e) := by
  unfold ScopeConfig.validate
  split
  · next none_ => exact ⟨List.cons_ne_nil _ _,by simpa [blames] using loaded.maxContexts.set (by omega)⟩
  · split
    · next above => exact ⟨List.cons_ne_nil _ _,by simpa [blames] using loaded.minContexts.set (by omega)⟩
    · split
      · next shared =>
        refine ⟨List.cons_ne_nil _ _,?_⟩
        have mode := loaded.sessionMode.set (by simp [shared.1])
        have isolation := loaded.contextIsolation.set (by simp [shared.2])
        simpa [blames] using ⟨mode,isolation⟩
      · split
        · next rotation => exact absurd loaded.rotationStrategy rotation.2
        · split
          · next below =>
            refine ⟨List.cons_ne_nil _ _,?_⟩
            have lifetime := loaded.maxLifetime
            have default := defaultMaxIdleTimeSecs_le config.scope.sessionMode
            simpa [blames] using loaded.maxIdleTime.set (by omega)
          · rfl

/-- But for the mode's own, a warning is about a variable that is set. -/
theorem warnings_set (loaded : Loaded env provider config) (alone : provider.assignsProxyHostPerContext = false)
    (warned : w ∈ config.scope.warnings) : w = .lifecycleUnused ∨ ∃ key, warns w = some key ∧ IsSet env key := by
  have hybrid := loaded.rotationStrategy
  have assigns := loaded.assigns
  simp only [ScopeConfig.warnings,List.mem_append,or_assoc] at warned
  rcases warned with min | life | strategy | quarantine | close | exit_ | destroy
  · obtain ⟨⟨some_,_⟩,rfl⟩ := by simpa using min
    exact .inr ⟨_,rfl,loaded.minContexts.set (by omega)⟩
  · exact .inl (by simpa using (List.mem_ite_nil_right.mp life).2)
  · simp [hybrid] at strategy
  · obtain ⟨⟨some_,mode⟩,rfl⟩ := by simpa using quarantine
    refine .inr ⟨_,rfl,loaded.blockQuarantine.set ?_⟩
    simpa [defaultBlockQuarantineSecs,mode] using some_
  · obtain ⟨⟨closes,_⟩,rfl⟩ := by simpa using close
    exact .inr ⟨_,rfl,loaded.closeTabAfterRequest.set (by simp [closes])⟩
  · simp [assigns,alone] at exit_
  · obtain ⟨⟨destroys,mode⟩,rfl⟩ := by simpa using destroy
    exact .inr ⟨_,rfl,loaded.destroySessionOnBlock.set (by simp [destroys,mode])⟩

theorem envNonEmpty_given (env : Env) (key : String) : Given env key (envNonEmpty env key) := by
  cases set : env key with
  | error e =>
    have none_ : envNonEmpty env key = none := by simp [envNonEmpty,set,Except.toOption]
    rw [none_]
    rintro raw ok
    simp [set] at ok
  | ok raw =>
    by_cases blank_ : Text.trim raw.toList = []
    · have none_ : envNonEmpty env key = none := by simp [envNonEmpty,set,Except.toOption,blank_]
      rw [none_]
      rintro other ok
      obtain rfl : raw = other := Except.ok.inj (set.symm.trans ok)
      exact blank_
    · have visible : String.ofList (Text.trim raw.toList) ≠ "" := fun empty => blank_ (by simpa using empty)
      have some_ : envNonEmpty env key = some (String.ofList (Text.trim raw.toList)) := by
        simp [envNonEmpty,set,Except.toOption,blank_]
      rw [some_]
      exact ⟨visible,raw,set,rfl⟩

theorem Given.set {value : String} (given : Given env key (some value)) : IsSet env key := by
  obtain ⟨_,raw,set,_⟩ := given
  simp [IsSet,set]

theorem proxyScheme_given (env : Env) : SchemeGiven env (proxyScheme env) := by
  unfold proxyScheme
  cases set : env "PROXY_SCHEME" with
  | error e => exact .inr ⟨fun raw ok => by simp [set] at ok,rfl⟩
  | ok raw =>
    cases parsed : parseProxyScheme raw.toList with
    | some scheme => exact .inl ⟨raw,set,by simp [Except.toOption,parsed]⟩
    | none =>
      refine .inr ⟨fun other ok => ?_,by simp [Except.toOption,parsed]⟩
      obtain rfl : raw = other := Except.ok.inj (set.symm.trans ok)
      exact parsed

theorem stripCredentialsFromUrl_server (url : String) : ServerOf url.toList (stripCredentialsFromUrl url).toList := by
  unfold stripCredentialsFromUrl
  split
  · next atPos schemeEnd at_ scheme =>
    have cut := Text.cutAt_find scheme
    have taken : url.toList.take (schemeEnd + 3) = url.toList.take schemeEnd ++ [':','/','/'] := by
      obtain ⟨rest,same⟩ := Text.find_some scheme
      rw [List.take_add,← same]
      rfl
    rw [String.toList_ofList,taken]
    exact .cut cut (Text.cutAt_find at_)
  · next missing =>
    refine .whole ?_
    rw [← Text.find_eq_none_iff,← Text.find_eq_none_iff]
    cases at_ : Text.find ['@'] url.toList with
    | none => exact .inl rfl
    | some i =>
      cases scheme : Text.find [':','/','/'] url.toList with
      | none => exact .inr rfl
      | some j => exact absurd scheme (missing i j at_)

theorem port_ends (env : Env) (asked : IsSet env "PROXY_TYPE") : Ends (proxyPort env) (PortGiven env) (Blamed env) := by
  unfold proxyPort
  have given := envNonEmpty_given env "PROXY_PORT"
  split
  · next raw named =>
    rw [named] at given
    split
    · next n parsed =>
      have small : n < 2^16 := Text.parseUnsigned_lt parsed
      refine ⟨raw,given,?_⟩
      rw [parsed,UInt16.toNat_ofNat',Nat.mod_eq_of_lt small]
    · exact ⟨List.cons_ne_nil _ _,by simpa [blames] using ⟨asked,given.set⟩⟩
  · next none_ =>
    rw [none_] at given
    exact given

theorem generic_ends (env : Env) (asked : IsSet env "PROXY_TYPE") :
    Ends (genericFromEnv env) (Configured env) (Blamed env) := by
  unfold genericFromEnv
  have given := envNonEmpty_given env "PROXY_URL"
  split
  · next url named =>
    rw [named] at given
    exact .url given
  · next none_ =>
    rw [none_] at given
    refine (port_ends env asked).bind fun port ports => ?_
    exact .pure (.parts given (envNonEmpty_given env "PROXY_ADDRESS") ports (proxyScheme_given env))

/-- The launch's proxy of a configuration is the one the variables name. -/
theorem Configured.names {config : ProxyConfig} (configured : Configured env config)
    (launched : launchProxyServer config = some server) : NamesProxy env server := by
  obtain ⟨made,_⟩ := Option.filter_eq_some_iff.mp launched
  obtain ⟨built,build,rfl⟩ := Option.map_eq_some_iff.mp made
  cases configured with
  | @url url given =>
    obtain rfl : stripCredentialsFromUrl url = built := by simpa [ProxyConfig.buildProxyServer] using build
    exact .url given (stripCredentialsFromUrl_server url)
  | @parts host n s none_ address port scheme =>
    cases host with
    | none => simp [ProxyConfig.buildProxyServer] at build
    | some host =>
      cases n with
      | none => simp [ProxyConfig.buildProxyServer] at build
      | some n =>
        obtain rfl : s.asStr ++ "://" ++ host ++ ":" ++ toString n.toNat = built := by
          simpa [ProxyConfig.buildProxyServer] using build
        exact .parts none_ address port scheme

def Provides (env : Env) (provider : ProxyProvider) : Prop :=
  (DirectAllowed env ∧ provider = noProxyProvider) ∨
    ¬DirectAllowed env ∧ ∃ config, Configured env config ∧ provider = genericProxyProvider config

theorem Provides.alone (provides : Provides env provider) : provider.assignsProxyHostPerContext = false := by
  rcases provides with ⟨_,rfl⟩ | ⟨_,_,_,rfl⟩ <;> rfl

theorem asked_of_proxied (proxied : ¬DirectAllowed env) : IsSet env "PROXY_TYPE" := by
  intro unset
  refine proxied ?_
  rw [DirectAllowed,unset]
  decide

theorem create_ends (env : Env) : Ends (createFromEnv env) (Provides env) (Blamed env) := by
  by_cases direct : DirectAllowed env
  · have named : createFromEnv env = .ok noProxyProvider := by
      rcases List.mem_cons.mp direct with none_ | noProxy
      · simp [createFromEnv,none_]
      · simp [createFromEnv,List.mem_singleton.mp noProxy]
    rw [named]
    exact .inl ⟨direct,rfl⟩
  · have asked := asked_of_proxied direct
    unfold createFromEnv
    dsimp only
    split
    · next none_ => exact absurd (by rw [DirectAllowed,none_]; decide) direct
    · next noProxy => exact absurd (by rw [DirectAllowed,noProxy]; decide) direct
    · exact (generic_ends env asked).map fun config configured => .inr ⟨direct,config,configured,rfl⟩
    · exact (generic_ends env asked).map fun config configured => .inr ⟨direct,config,configured,rfl⟩
    · exact ⟨List.cons_ne_nil _ _,by simpa [blames] using asked⟩
    · exact ⟨List.cons_ne_nil _ _,by simpa [blames] using asked⟩

/-- The launch's proxy is the one that the variables name, and there is none only if they ask for none. -/
theorem launch_ends (provides : Provides env provider) (isolation : ContextIsolation) :
    Ends ((BrowserPool.new provider isolation).mapError .refused)
      (fun launch => launch.cdpClient = false ∧
        ((DirectAllowed env ∧ chromeProxy launch.proxyServer none = none) ∨
          (¬DirectAllowed env ∧ ∃ server, NamesProxy env server ∧ chromeProxy launch.proxyServer none = some server)))
      (Blamed env) := by
  rcases provides with ⟨direct,rfl⟩ | ⟨proxied,config,configured,rfl⟩
  · exact ⟨rfl,.inl ⟨direct,rfl⟩⟩
  · have asked := asked_of_proxied proxied
    cases server : launchProxyServer config with
    | none => simpa [BrowserPool.new,genericProxyProvider,server,Ends,Except.mapError,Blamed,blames] using asked
    | some server_ =>
      have named := configured.names server
      have visible := launchProxyServer_visible server
      simpa [BrowserPool.new,genericProxyProvider,server,Ends,Except.mapError,chromeProxy,visible] using ⟨proxied,named⟩

structure Sound (env : Env) (started : Started) : Prop where
  provides : Provides env started.provider
  loaded : Loaded env started.provider started.config
  client : started.launch.cdpClient = false
  exits : (DirectAllowed env ∧ chromeProxy started.launch.proxyServer none = none) ∨
    (¬DirectAllowed env ∧ ∃ server, NamesProxy env server ∧ chromeProxy started.launch.proxyServer none = some server)
  warnings : ∀ w ∈ started.warnings, w = .lifecycleUnused ∨ ∃ key, warns w = some key ∧ IsSet env key

theorem start_ends (env : Env) : Ends (start env) (Sound env) (Blamed env) := by
  unfold start
  refine (create_ends env).bind fun provider provides => ?_
  refine (load_ends env provider).bind fun config loaded => ?_
  have validated := validate_ends loaded
  split
  · next e refused => exact validated.failure refused
  · next warnings accepted =>
    obtain rfl := validated.value accepted
    refine (launch_ends provides config.scope.contextIsolation).bind fun launch ⟨client,exits⟩ => ?_
    exact .pure ⟨provides,loaded,client,exits,fun w warned => warnings_set loaded provides.alone warned⟩

/-- Where no context has a proxy of its own, all use the one of the launch. -/
theorem exit_of_launch (client : launch.cdpClient = false) (valid : Pool.ExitInvariant cfg launch s)
    (known : c < s.1.pool.fresh) : Pool.exit launch s c = chromeProxy launch.proxyServer none := by
  cases cdp : (s.1.pool.ctx c).cdpContextId with
  | none => simp [Pool.exit,cdp]
  | some id =>
    have created := (valid.sourced.contexts c known id cdp).2
    simp [Pool.exit,cdp,created,Pool.createdWith,client]

end Reading

/-- Whatever the environment of a worker: if the worker starts, then in every run of its pool
every context that serves a request leaves through the proxy that the environment names, and
directly only where the environment asks for that or says nothing. -/
theorem environment_names_exit (env : Env) (started : Started) (disposer : Bool) (answers : ContextId → Option ProxyConfig)
    (s : Pool.State × Pool.Exits) (i : Nat) (pc : Pool.Pc) (c : ContextId) (starts : start env = .ok started)
    (run : (Pool.proxied (started.pool disposer) started.provider started.launch answers).Reachable s)
    (at_ : s.1.tasks[i]? = some pc) (given : pc.serves c = true) :
    (DirectAllowed env ∧ Pool.exit started.launch s c = none) ∨
      (¬DirectAllowed env ∧ ∃ server, NamesProxy env server ∧ Pool.exit started.launch s c = some server) := by
  have sound := (start_ends env).value starts
  have valid : Pool.ExitInvariant (started.pool disposer) started.launch s :=
    run.invariant .initial fun _ _ _ _ valid taken => valid.step taken
  rw [exit_of_launch sound.client valid (Pool.known_of_serves valid at_ given)]
  exact sound.exits

def proxiedEnv : Env
  | "PROXY_TYPE" => .ok "Generic"
  | "PROXY_ADDRESS" => .ok "proxy.example.com "
  | "PROXY_PORT" => .ok "8080"
  | "WORKER_SESSION_MODE" => .ok "dedicated"
  | _ => .error .notPresent

theorem environment_names_exit_first_session :
    ∃ started s, start proxiedEnv = .ok started ∧ s.1.tasks[1]? = some (.serving 0) ∧
      ((DirectAllowed proxiedEnv ∧ Pool.exit started.launch s 0 = none) ∨
        (¬DirectAllowed proxiedEnv ∧
          ∃ server, NamesProxy proxiedEnv server ∧ Pool.exit started.launch s 0 = some server)) := by
  obtain ⟨started,s,starts,ran,at_⟩ : ∃ started s, start proxiedEnv = .ok started ∧
      (Pool.proxied (started.pool true) started.provider started.launch (fun _ => none)).exec
        ((Pool.firstRequest .createDedicatedContext).map fun action => (action,none))
        (Pool.proxied (started.pool true) started.provider started.launch (fun _ => none)).initial = some s ∧
      s.1.tasks[1]? = some (.serving 0) := ⟨_,_,rfl,rfl,by decide +kernel⟩
  exact ⟨started,s,starts,at_,environment_names_exit proxiedEnv started true (fun _ => none) s 1 (.serving 0) 0 starts
    (Transition.Machine.reachable_of_exec ran) at_ (by simp [Pool.Pc.serves])⟩

end BrowserHive.Worker.Startup
