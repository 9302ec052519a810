import BrowserHive.Config
import BrowserHive.Lib.Text

/-! Proxy configurations, the server string Chrome is given, and the guards of
`BrowserPool::new` on the provider they come from. -/
namespace BrowserHive

inductive ProxyScheme where
  | http
  | https
  | socks5
  deriving DecidableEq, Repr

def ProxyScheme.asStr : ProxyScheme → String
  | .http => "http"
  | .https => "https"
  | .socks5 => "socks5"

structure ProxyConfig where
  proxyUrl : Option String
  scheme : ProxyScheme
  address : Option String
  port : Option UInt16
  username : Option String
  password : Option String
  deriving DecidableEq, Repr

/-- `scheme://host:port` without the `user:pass@` in front of the host. -/
def stripCredentialsFromUrl (url : String) : String :=
  match Text.find ['@'] url.toList, Text.find [':','/','/'] url.toList with
  | some atPos, some schemeEnd =>
    String.ofList (url.toList.take (schemeEnd + 3) ++ url.toList.drop (atPos + 1))
  | _, _ => url

def ProxyConfig.buildProxyServer (config : ProxyConfig) : Option String :=
  match config.proxyUrl, config.address, config.port with
  | some url, _, _ => some (stripCredentialsFromUrl url)
  | none, some address, some port => some (config.scheme.asStr ++ "://" ++ address ++ ":" ++ toString port.toNat)
  | _, _, _ => none

def blank (s : String) : Bool := (Text.trim s.toList).isEmpty

def ProxyConfig.hasBlankUrl (config : ProxyConfig) : Bool := config.proxyUrl.any blank

structure ProxyProvider where
  buildConfig : Except Unit ProxyConfig
  supportsPerContextProxy : Bool
  assignsProxyHostPerContext : Bool
  allowsDirectConnection : Bool

inductive LaunchRefused where
  | sharedIsolation
  | noPerContextProxy
  | noConfig
  | noProxyServer
  deriving DecidableEq, Repr

/-- What Chrome was launched with, and whether the client is connected that creates
contexts with a proxy of their own. -/
structure Launch where
  proxyConfig : ProxyConfig
  proxyServer : Option String
  cdpClient : Bool

/-- `--proxy-server`, with an empty one read as none. -/
def launchProxyServer (config : ProxyConfig) : Option String :=
  (config.buildProxyServer.map fun server => String.ofList (Text.trim server.toList)).filter
    (fun server => !server.isEmpty)

/-- `BrowserPool::new` up to its first context, where Chrome and its clients start. -/
def BrowserPool.new (provider : ProxyProvider) (contextIsolation : ContextIsolation) : Except LaunchRefused Launch :=
  if provider.assignsProxyHostPerContext ∧ contextIsolation = .shared then .error .sharedIsolation
  else if provider.assignsProxyHostPerContext ∧ ¬provider.supportsPerContextProxy then .error .noPerContextProxy
  else match provider.buildConfig with
    | .error _ => .error .noConfig
    | .ok config =>
      if launchProxyServer config = none ∧ ¬provider.allowsDirectConnection then .error .noProxyServer
      else .ok ⟨config,launchProxyServer config,provider.assignsProxyHostPerContext⟩

/-- `proxyServer` of a CDP context, as Chrome reads it: a context without one uses the
proxy of the launch, and a blank one means none at all. -/
def chromeProxy (launch own : Option String) : Option String := (own.or launch).filter (fun server => !blank server)

theorem blank_iff (s : String) : blank s = true ↔ ∀ c ∈ s.toList, Text.isWhiteSpace c = true := by
  rw [blank,List.isEmpty_iff,Text.trim_eq_nil_iff]

theorem not_blank (mem : c ∈ s.toList) (visible : Text.isWhiteSpace c = false) : blank s = false := by
  rw [Bool.eq_false_iff,ne_eq,blank_iff]
  intro white
  rw [white c mem] at visible
  contradiction

/-- Stripping credentials keeps the `://`, so it makes nothing blank that was not. -/
theorem blank_strip (url : String) : blank (stripCredentialsFromUrl url) = blank url := by
  rw [stripCredentialsFromUrl]
  split
  · next schemeEnd _ found =>
    have colon : ':' ∈ url.toList.take (schemeEnd + 3) := Text.mem_take_of_find found (by simp)
    rw [not_blank (List.mem_of_mem_take colon) (by decide),
      not_blank (by simpa using Or.inl colon) (by decide : Text.isWhiteSpace ':' = false)]
  · rfl

/-- Only a `proxy_url` that is there and blank gives a blank server. -/
theorem blank_buildProxyServer (config : ProxyConfig) :
    config.buildProxyServer.any blank = config.hasBlankUrl := by
  rw [ProxyConfig.buildProxyServer,ProxyConfig.hasBlankUrl]
  split
  · next url _ _ given =>
    simp [given,blank_strip]
  · next address port none_ _ _ =>
    have colon : ':' ∈ (config.scheme.asStr ++ "://" ++ address ++ ":" ++ toString port.toNat).toList := by simp
    rw [none_,Option.any_some,Option.any_none]
    exact not_blank colon (by decide)
  · next none_ =>
    cases url : config.proxyUrl with
    | none => rfl
    | some url => simp_all

theorem launchProxyServer_visible (launched : launchProxyServer config = some server) : blank server = false := by
  obtain ⟨made,nonempty⟩ := Option.filter_eq_some_iff.mp launched
  obtain ⟨built,_,rfl⟩ := Option.map_eq_some_iff.mp made
  rw [Bool.eq_false_iff,ne_eq,blank,List.isEmpty_iff,String.toList_ofList,Text.trim_trim_eq_nil_iff]
  intro empty
  simp [empty] at nonempty

/-- Chrome runs behind a proxy in every pool whose provider does not allow a direct connection. -/
theorem launch_proxied (guarded : provider.allowsDirectConnection = false)
    (launched : BrowserPool.new provider contextIsolation = .ok launch) :
    (chromeProxy launch.proxyServer none).isSome ∧ launch.cdpClient = provider.assignsProxyHostPerContext := by
  simp only [BrowserPool.new] at launched
  repeat' split at launched
  all_goals try contradiction
  next config _ guard_ =>
    obtain rfl := Except.ok.inj launched
    refine ⟨?_,rfl⟩
    cases server : launchProxyServer config with
    | none => simp [server,guarded] at guard_
    | some server_ => simp [chromeProxy,launchProxyServer_visible server]

end BrowserHive
