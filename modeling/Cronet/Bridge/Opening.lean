import Cronet.Bridge.Starting

namespace Cronet.Bridge

open Cronet.Native (Bytes CString Parsers ascii)
open Cronet.Request (CallSettings Library utf8 int32 int32_eq)
open Cronet.Url (Str)

/-- What an `int64_t` field keeps. -/
def int64 (n : Int) : Int := n.bmod (2 ^ 64)

theorem int32_int64 (n : Int) : int32 (int64 n) = int32 n := by
  apply Int.bmod_bmod_of_dvd
  exact Nat.pow_dvd_pow 2 (by decide)

def CACHE_DISABLED : Int := 0

structure EngineSettings where
  userAgent : Str := []
  acceptLanguage : Str := []
  experimentalOptions : Str := []
  storagePath : Str := []
  proxyRules : Str := []
  proxyBypassRules : Str := []
  proxyUsername : Str := []
  proxyPassword : Str := []
  quicHints : List (Str × Int) := []
  enableQuic : Bool := true
  enableHttp2 : Bool := true
  enableBrotli : Bool := true
  cacheMode : Int := CACHE_DISABLED
  cacheMaxBytes : Int := 0

structure CronetQuicHint where
  host : Option CString
  port : Int
  alternatePort : Int

structure CronetEngineConfig where
  userAgent : Option CString
  acceptLanguage : Option CString
  experimentalOptions : Option CString
  storagePath : Option CString
  proxyRules : Option CString
  proxyBypassRules : Option CString
  proxyUsername : Option CString
  proxyPassword : Option CString
  quicHints : List CronetQuicHint
  enableQuic : Int
  enableHttp2 : Int
  enableBrotli : Int
  cacheMode : Int
  cacheMaxBytes : Int

def asBytes (value : Str) : Bytes := if value ≠ [] then utf8 value else []

def buildHint (hint : Str × Int) : CronetQuicHint where
  host := some (CString.ofBytes (utf8 hint.1))
  port := int32 hint.2
  alternatePort := int32 hint.2

/-- `_build_engine_config`, whose fields replace all that `cronet_engine_config_init` has set. -/
def buildEngineConfig (settings : EngineSettings) : CronetEngineConfig where
  userAgent := some (CString.ofBytes (asBytes settings.userAgent))
  acceptLanguage := some (CString.ofBytes (asBytes settings.acceptLanguage))
  experimentalOptions := some (CString.ofBytes (asBytes settings.experimentalOptions))
  storagePath := some (CString.ofBytes (asBytes settings.storagePath))
  proxyRules := some (CString.ofBytes (asBytes settings.proxyRules))
  proxyBypassRules := some (CString.ofBytes (asBytes settings.proxyBypassRules))
  proxyUsername := some (CString.ofBytes (asBytes settings.proxyUsername))
  proxyPassword := some (CString.ofBytes (asBytes settings.proxyPassword))
  quicHints := settings.quicHints.map buildHint
  enableQuic := settings.enableQuic.toInt
  enableHttp2 := settings.enableHttp2.toInt
  enableBrotli := settings.enableBrotli.toInt
  cacheMode := int32 settings.cacheMode
  cacheMaxBytes := int64 settings.cacheMaxBytes

structure QuicHint where
  host : Bytes
  port : Int
  alternatePort : Int
  deriving DecidableEq

structure EngineConfig where
  userAgent : Bytes
  acceptLanguage : Bytes
  experimentalOptions : Bytes
  storagePath : Bytes
  proxyRules : Bytes
  proxyBypassRules : Bytes
  proxyUsername : Bytes
  proxyPassword : Bytes
  quicHints : List QuicHint
  enableQuic : Bool
  enableHttp2 : Bool
  enableBrotli : Bool
  cacheMode : Int
  cacheMaxBytes : Int

/-- A hint without a host is skipped, and a port that is not positive stands for 443. -/
def CronetQuicHint.taken? (hint : CronetQuicHint) : Option QuicHint :=
  hint.host.map fun host =>
    { host := host.1
      port := if 0 < hint.port then hint.port else 443
      alternatePort := if 0 < hint.alternatePort then hint.alternatePort else 443 }

/-- What `cronet_engine_create` hands to `Engine::Create`. -/
def CronetEngineConfig.engineConfig (config : CronetEngineConfig) : EngineConfig where
  userAgent := CString.toBytes config.userAgent
  acceptLanguage := CString.toBytes config.acceptLanguage
  experimentalOptions := CString.toBytes config.experimentalOptions
  storagePath := CString.toBytes config.storagePath
  proxyRules := CString.toBytes config.proxyRules
  proxyBypassRules := CString.toBytes config.proxyBypassRules
  proxyUsername := CString.toBytes config.proxyUsername
  proxyPassword := CString.toBytes config.proxyPassword
  quicHints := config.quicHints.filterMap CronetQuicHint.taken?
  enableQuic := config.enableQuic ≠ 0
  enableHttp2 := config.enableHttp2 ≠ 0
  enableBrotli := config.enableBrotli ≠ 0
  cacheMode := config.cacheMode
  cacheMaxBytes := config.cacheMaxBytes

inductive HttpCache where
  | disabled
  | memory
  | disk
  deriving DecidableEq

/-- What the context of an engine is built from; the cache's size is an `int`. -/
structure URLRequestContextConfig where
  enableQuic : Bool
  enableSpdy : Bool
  enableBrotli : Bool
  userAgent : Bytes
  acceptLanguage : Bytes
  storagePath : Bytes
  experimentalOptions : Option Bytes
  httpCache : HttpCache
  httpCacheMaxSize : Int
  quicHints : List QuicHint

/-- The proxy rules with the hosts they are bypassed for, and the credentials that are preloaded for them. -/
structure ProxyConfig where
  rules : Bytes
  bypassRules : Bytes
  preloaded : Option (Bytes × Bytes)

/-- `Engine::Create` where it does not fail. -/
def EngineConfig.context (config : EngineConfig) : URLRequestContextConfig where
  enableQuic := config.enableQuic
  enableSpdy := config.enableHttp2
  enableBrotli := config.enableBrotli
  userAgent := config.userAgent
  acceptLanguage := config.acceptLanguage
  storagePath := config.storagePath
  experimentalOptions := if config.experimentalOptions = [] then none else some config.experimentalOptions
  httpCache := if config.cacheMode = 2 then .disk else if config.cacheMode = 1 then .memory else .disabled
  httpCacheMaxSize := int32 config.cacheMaxBytes
  quicHints := config.quicHints

def EngineConfig.proxy (config : EngineConfig) : Option ProxyConfig :=
  if config.proxyRules = [] then none
  else some ⟨config.proxyRules, config.proxyBypassRules,
    if config.proxyUsername = [] then none else some (config.proxyUsername, config.proxyPassword)⟩

structure CreatedEngine where
  context : URLRequestContextConfig
  proxy : Option ProxyConfig

def cronetEngineCreate (p : Parsers) (config : CronetEngineConfig) : Except Bytes CreatedEngine := do
  p.create ⟨config.experimentalOptions, config.storagePath, config.cacheMode, config.proxyRules⟩
  return ⟨config.engineConfig.context, config.engineConfig.proxy⟩

/-- `Engine.__init__`: the engine, or what a `LibraryError` is raised for. -/
def openEngine (p : Parsers) (settings : EngineSettings) : Except Bytes CreatedEngine :=
  cronetEngineCreate p (buildEngineConfig settings)

structure NumbersKept (settings : EngineSettings) (engine : CreatedEngine) : Prop where
  cache : engine.context.httpCacheMaxSize = settings.cacheMaxBytes
  hints : engine.context.quicHints.map (fun hint => (hint.port, hint.alternatePort)) =
    settings.quicHints.map fun hint => (hint.2, hint.2)

structure NumbersFit (settings : EngineSettings) : Prop where
  cache : -2 ^ 31 ≤ settings.cacheMaxBytes ∧ settings.cacheMaxBytes < 2 ^ 31
  hints : ∀ hint ∈ settings.quicHints, 0 < hint.2 ∧ hint.2 < 2 ^ 31

def LimitKept (limit : Int) (request : CronetURLRequest) : Prop :=
  request.maxRedirects = if limit < 0 then 20 else limit

/-- A negative limit may be any whose low bits are negative again, or are the 20 it stands for. -/
def LimitFits (limit : Int) : Prop :=
  0 ≤ limit ∧ limit < 2 ^ 31 ∨ limit < 0 ∧ (2 ^ 31 ≤ limit % 2 ^ 32 ∨ limit % 2 ^ 32 = 20)

theorem int32_eq_self {n : Int} : int32 n = n ↔ -2 ^ 31 ≤ n ∧ n < 2 ^ 31 := by
  rw [int32_eq]
  omega

theorem port_kept {n : Int} : (if 0 < int32 n then int32 n else 443) = n ↔ 0 < n ∧ n < 2 ^ 31 := by
  rw [int32_eq]
  omega

theorem limit_kept {n : Int} : (if int32 n < 0 then 20 else int32 n) = (if n < 0 then 20 else n) ↔ LimitFits n := by
  unfold LimitFits
  rw [int32_eq]
  omega

def takenHint (hint : Str × Int) : QuicHint where
  host := (CString.ofBytes (utf8 hint.1)).1
  port := if 0 < int32 hint.2 then int32 hint.2 else 443
  alternatePort := if 0 < int32 hint.2 then int32 hint.2 else 443

theorem taken_built : CronetQuicHint.taken? ∘ buildHint = some ∘ takenHint := by
  funext hint
  rfl

theorem openEngine_ok {p : Parsers} {settings : EngineSettings} {engine : CreatedEngine}
    (opened : openEngine p settings = .ok engine) :
    engine = ⟨(buildEngineConfig settings).engineConfig.context, (buildEngineConfig settings).engineConfig.proxy⟩ := by
  obtain ⟨_, _, returned⟩ := Checked.bind_ok opened
  cases returned
  rfl

theorem hints_kept {hints : List (Str × Int)} :
    ((hints.map buildHint).filterMap CronetQuicHint.taken?).map (fun hint => (hint.port, hint.alternatePort)) =
      hints.map (fun hint => (hint.2, hint.2)) ↔ ∀ hint ∈ hints, 0 < hint.2 ∧ hint.2 < 2 ^ 31 := by
  rw [List.filterMap_map, taken_built, List.filterMap_eq_map, List.map_map, List.map_inj_left]
  simp only [Function.comp_apply, takenHint, Prod.mk.injEq, and_self, port_kept]

/-- The numbers an engine and a call act on are the ones given exactly while they fit the narrowest field on their
    way; nothing on the way refuses one that does not. -/
theorem numbers_kept_iff [Library] {p : Parsers} {settings : EngineSettings} {engine : CreatedEngine} {c : Chromium}
    {state : EngineState} {call : CallSettings} {request : CronetURLRequest} :
    (openEngine p settings = .ok engine → (NumbersKept settings engine ↔ NumbersFit settings)) ∧
      (start c state call = .ok request → (LimitKept call.maxRedirects request ↔ LimitFits call.maxRedirects)) := by
  constructor
  · intro opened
    have context := congrArg CreatedEngine.context (openEngine_ok opened)
    have cache : engine.context.httpCacheMaxSize = int32 settings.cacheMaxBytes := by
      rw [context]
      exact int32_int64 settings.cacheMaxBytes
    have hints : engine.context.quicHints = (settings.quicHints.map buildHint).filterMap CronetQuicHint.taken? := by
      rw [context]
      rfl
    constructor
    · intro kept
      have size := kept.cache
      have ports := kept.hints
      rw [cache, int32_eq_self] at size
      rw [hints, hints_kept] at ports
      exact ⟨size, ports⟩
    · intro fit
      constructor
      · rw [cache, int32_eq_self]
        exact fit.cache
      · rw [hints, hints_kept]
        exact fit.hints
  · intro started
    have configured := (start_ok.mp started).2
    rw [Chromium.configured_eq] at configured
    have limit : request.maxRedirects = if int32 call.maxRedirects < 0 then 20 else int32 call.maxRedirects := by
      rw [configured]
      rfl
    rw [LimitKept, limit, limit_kept]

def anyParsers : Parsers := ⟨fun _ => true, fun _ => true, fun _ => true⟩

def sized (bytes : Int) : EngineSettings := { quicHints := [("a.test".toList, 443)], cacheMaxBytes := bytes }

section

attribute [local instance] Request.asciiLibrary

theorem numbers_kept_small :
    (∃ engine, openEngine anyParsers (sized (2 ^ 20)) = .ok engine ∧ NumbersKept (sized (2 ^ 20)) engine) ∧
      ∃ request, start httpChromium ⟨true, true, ""⟩ (settingsWith []) = .ok request ∧
        LimitKept (settingsWith []).maxRedirects request := by
  obtain ⟨engine, opened⟩ : ∃ engine, openEngine anyParsers (sized (2 ^ 20)) = .ok engine := ⟨_, rfl⟩
  obtain ⟨request, started⟩ : ∃ request, start httpChromium ⟨true, true, ""⟩ (settingsWith []) = .ok request := ⟨_, rfl⟩
  have both := @numbers_kept_iff _ anyParsers (sized (2 ^ 20)) engine httpChromium ⟨true, true, ""⟩ (settingsWith [])
    request
  have fit : NumbersFit (sized (2 ^ 20)) := ⟨by decide, by decide⟩
  have limit : LimitFits (settingsWith []).maxRedirects := by
    unfold LimitFits
    decide
  exact ⟨⟨engine, opened, (both.1 opened).mpr fit⟩, request, started, (both.2 started).mpr limit⟩

/-- A cache of two gigabytes has a negative size by the time Cronet is given it. -/
theorem cache_size_wraps :
    ∃ engine, openEngine anyParsers (sized (2 ^ 31)) = .ok engine ∧
      engine.context.httpCacheMaxSize = -2 ^ 31 ∧ ¬NumbersKept (sized (2 ^ 31)) engine := by
  refine ⟨_, rfl, by decide, fun kept => ?_⟩
  have same := kept.cache
  revert same
  decide

end

end Cronet.Bridge
