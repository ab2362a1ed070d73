import AdGuardHome.Dnsforward.Config

/-!
# Changes of the DNS configuration

The handler of `POST /control/dns_config`.  A request is a partial update: a field that is absent keeps its value.  The
proxy is built anew only if `setConfig` asks for it.
-/

namespace AdGuardHome.Dnsforward

open AdGuardHome.Net AdGuardHome.Aghnet

inductive JsonUpstreamMode
  | empty
  | loadBalance
  | parallel
  | fastestAddr
  | other (mode : String)
deriving DecidableEq

/-- The fields of `jsonDNSConfig` that `setConfig` uses, `none` for an absent one. -/
structure JsonDNSConfig where
  upstreams : Option (List String) := none
  upstreamsFile : Option String := none
  bootstraps : Option (List String) := none
  fallbacks : Option (List String) := none
  protectionEnabled : Option Bool := none
  ratelimit : Option UInt32 := none
  ratelimitSubnetLenIPv4 : Option UInt64 := none
  ratelimitSubnetLenIPv6 : Option UInt64 := none
  upstreamTimeout : Option Int64 := none
  ratelimitWhitelist : Option (List Addr) := none
  blockingMode : Option BlockingMode := none
  ednsCSEnabled : Option Bool := none
  ednsCSUseCustom : Option Bool := none
  dnssecEnabled : Option Bool := none
  disableIPv6 : Option Bool := none
  upstreamMode : Option JsonUpstreamMode := none
  blockedResponseTTL : Option UInt32 := none
  cacheSize : Option UInt32 := none
  cacheMinTTL : Option UInt32 := none
  cacheMaxTTL : Option UInt32 := none
  cacheEnabled : Option Bool := none
  cacheOptimistic : Option Bool := none
  resolveClients : Option Bool := none
  usePrivateRDNS : Option Bool := none
  localPTRUpstreams : Option (List String) := none
  blockingIPv4 : Addr := .invalid
  blockingIPv6 : Addr := .invalid
  ednsCSCustomIP : Addr := .invalid
deriving DecidableEq

/-- The server with the settings of its `dnsFilter` that a request can change. -/
structure Server where
  conf : ServerConfig
  blockingMode : BlockingMode
  blockingIPv4 : Addr
  blockingIPv6 : Addr
  blockedResponseTTL : UInt32
  protectionEnabled : Bool
  access : Option AccessManager
  /-- The configuration that the current proxy was created with. -/
  dnsProxy : Option ProxyConfig
  isRunning : Bool

/-- The text of an error of `newAccessCtx`. -/
def AccessError.text (quote : String → String) : AccessError → String
  | .badValue list value index =>
    list ++ ": value " ++ quote value ++ " at index " ++ toString index ++ ": bad ip, cidr, or clientid"
  | .blockedHosts => "adding blocked hosts"

/-! ## Validation -/

namespace JsonDNSConfig

/-- The check that upstreams can be parsed and closed again. -/
def checkUpstreams (env : ConfEnv) (msg : String) : Option (List String) → Except String Unit
  | none => .ok ()
  | some ups => wrapErr msg do
    let uc ← env.parseUpstreamsConfig ups 0
    env.closeUpstreamConfig uc

def containsPrivateRDNS (req : JsonDNSConfig) : Bool :=
  req.usePrivateRDNS = some true ∨ req.localPTRUpstreams.getD [] ≠ []

def checkPrivateRDNS (env : ConfEnv) (ownAddrs : String → Bool) (req : JsonDNSConfig) : Except String Unit :=
  if !req.containsPrivateRDNS then .ok ()
  else wrapErr "private upstream servers: " do
    let uc ← newPrivateConfig env (req.localPTRUpstreams.getD []) ownAddrs 0
    env.closeUpstreamConfig uc

/-- The loop of `checkBootstrap`. -/
def checkBootstraps (env : ConfEnv) : List String → Except String Unit
  | [] => .ok ()
  | b :: bootstraps =>
    if isCommentOrEmpty b then checkBootstraps env bootstraps
    else do
      wrapErr ("checking bootstrap " ++ b ++ ": ") do
        env.newUpstreamResolver b
        wrapErr ("closing " ++ b ++ ": ") (env.closeResolver b)
      checkBootstraps env bootstraps

def checkBootstrap (env : ConfEnv) (req : JsonDNSConfig) : Except String Unit :=
  checkBootstraps env (req.bootstraps.getD [])

def validateUpstreamDNSServers (env : ConfEnv) (ownAddrs : String → Bool) (req : JsonDNSConfig) :
    Except String Unit := do
  checkUpstreams env "upstream servers: " req.upstreams
  req.checkPrivateRDNS env ownAddrs
  req.checkBootstrap env
  checkUpstreams env "fallback servers: " req.fallbacks

def checkInclusion (ptr : Option UInt64) (minN maxN : UInt64) : Except String Unit :=
  match ptr with
  | none => .ok ()
  | some n =>
    if n < minN then .error ("value " ++ toString n ++ " less than min " ++ toString minN)
    else if maxN < n then .error ("value " ++ toString n ++ " greater than max " ++ toString maxN)
    else .ok ()

def checkRatelimitSubnetMaskLen (req : JsonDNSConfig) : Except String Unit := do
  wrapErr "ratelimit_subnet_len_ipv4 is invalid: " (checkInclusion req.ratelimitSubnetLenIPv4 0 32)
  wrapErr "ratelimit_subnet_len_ipv6 is invalid: " (checkInclusion req.ratelimitSubnetLenIPv6 0 128)

def checkBlockingMode (env : ConfEnv) (req : JsonDNSConfig) : Except String Unit :=
  match req.blockingMode with
  | none => .ok ()
  | some mode => validateBlockingMode env mode req.blockingIPv4 req.blockingIPv6

def checkUpstreamMode (env : ConfEnv) (req : JsonDNSConfig) : Except String Unit :=
  match req.upstreamMode with
  | some (.other um) => .error ("upstream_mode: incorrect value " ++ env.quote um)
  | _ => .ok ()

/-- `validateCacheSize`, with the request that it may have changed. -/
def validateCacheSize (req : JsonDNSConfig) (curCacheSize : UInt32) : Except String JsonDNSConfig :=
  if req.cacheEnabled = some true ∧ req.cacheSize.getD curCacheSize = 0 then
    .error "cache_size must be greater than zero when cache_enabled is true"
  else
    match req.cacheEnabled, req.cacheSize with
    | none, some size => .ok { req with cacheEnabled := some (decide (0 < size)) }
    | _, _ => .ok req

def validateCacheSettings (req : JsonDNSConfig) (curCacheSize : UInt32) : Except String JsonDNSConfig := do
  let req ← req.validateCacheSize curCacheSize
  if req.cacheMinTTL = none ∧ req.cacheMaxTTL = none then return req
  else
    validateCacheTTL (req.cacheMinTTL.getD 0) (req.cacheMaxTTL.getD 0)
    return req

def checkUpstreamTimeout (env : ConfEnv) (req : JsonDNSConfig) : Except String Unit :=
  match req.upstreamTimeout with
  | none => .ok ()
  | some n => if n < 1 then .error (env.errNoLessThan "upstream_timeout" n 1) else .ok ()

/-- `jsonDNSConfig.validate`, with the request that it may have changed. -/
def validate (env : ConfEnv) (ownAddrs : String → Bool) (req : JsonDNSConfig) (curCacheSize : UInt32) :
    Except String JsonDNSConfig :=
  wrapErr "validating dns config: " do
    req.validateUpstreamDNSServers env ownAddrs
    req.checkRatelimitSubnetMaskLen
    req.checkBlockingMode env
    req.checkUpstreamMode env
    let req ← req.validateCacheSettings curCacheSize
    req.checkUpstreamTimeout env
    return req

end JsonDNSConfig

/-! ## Setting the configuration -/

namespace Server

/-- `DNSFilter.SetBlockingMode`. -/
def setBlockingMode (s : Server) (mode : BlockingMode) (bIPv4 bIPv6 : Addr) : Server :=
  if mode = .customIP then { s with blockingMode := mode, blockingIPv4 := bIPv4, blockingIPv6 := bIPv6 }
  else { s with blockingMode := mode }

/-- The part of `setConfig` about the blocking mode. -/
def setBlocking (s : Server) (dc : JsonDNSConfig) : Server :=
  match dc.blockingMode with
  | none => s
  | some mode => s.setBlockingMode mode dc.blockingIPv4 dc.blockingIPv6

/-- `mustParseUpstreamMode`; `none` for its panic. -/
def mustParseUpstreamMode : JsonUpstreamMode → Option UpstreamMode
  | .empty | .loadBalance => some .loadBalance
  | .parallel => some .parallel
  | .fastestAddr => some .fastestAddr
  | .other _ => none

/-- The upstream mode after `setConfig`; `none` for a panic. -/
def upstreamModeAfter (conf : ServerConfig) (dc : JsonDNSConfig) : Option UpstreamMode :=
  match dc.upstreamMode with
  | none => some conf.upstreamMode
  | some mode => mustParseUpstreamMode mode

/-- The configuration after `setConfigRestartable`. -/
def setRestartable (conf : ServerConfig) (dc : JsonDNSConfig) : ServerConfig :=
  { conf with
    upstreamDNS := dc.upstreams.getD conf.upstreamDNS
    localPTRResolvers := dc.localPTRUpstreams.getD conf.localPTRResolvers
    upstreamDNSFileName := dc.upstreamsFile.getD conf.upstreamDNSFileName
    bootstrapDNS := dc.bootstraps.getD conf.bootstrapDNS
    fallbackDNS := dc.fallbacks.getD conf.fallbackDNS
    ednsClientSubnet :=
      { conf.ednsClientSubnet with
        enabled := dc.ednsCSEnabled.getD conf.ednsClientSubnet.enabled
        useCustom := dc.ednsCSUseCustom.getD conf.ednsClientSubnet.useCustom }
    cacheEnabled := dc.cacheEnabled.getD conf.cacheEnabled
    cacheSize := dc.cacheSize.getD conf.cacheSize
    cacheMinTTL := dc.cacheMinTTL.getD conf.cacheMinTTL
    cacheMaxTTL := dc.cacheMaxTTL.getD conf.cacheMaxTTL
    cacheOptimistic := dc.cacheOptimistic.getD conf.cacheOptimistic
    useRDNS := dc.resolveClients.getD conf.useRDNS
    usePrivateRDNS := dc.usePrivateRDNS.getD conf.usePrivateRDNS
    ratelimitSubnetLenIPv4 := dc.ratelimitSubnetLenIPv4.getD conf.ratelimitSubnetLenIPv4
    ratelimitSubnetLenIPv6 := dc.ratelimitSubnetLenIPv6.getD conf.ratelimitSubnetLenIPv6
    ratelimitWhitelist := dc.ratelimitWhitelist.getD conf.ratelimitWhitelist
    ratelimit := dc.ratelimit.getD conf.ratelimit
    upstreamTimeout := (dc.upstreamTimeout.map (· * second)).getD conf.upstreamTimeout }

/-- The result of `setConfigRestartable`.  A rate limit or a timeout that is set to its value needs no restart. -/
def shouldRestart (conf : ServerConfig) (dc : JsonDNSConfig) : Bool :=
  [dc.upstreams.isSome, dc.localPTRUpstreams.isSome, dc.upstreamsFile.isSome, dc.bootstraps.isSome,
    dc.fallbacks.isSome, dc.ednsCSEnabled.isSome, dc.ednsCSUseCustom.isSome, dc.cacheEnabled.isSome,
    dc.cacheSize.isSome, dc.cacheMinTTL.isSome, dc.cacheMaxTTL.isSome, dc.cacheOptimistic.isSome,
    dc.resolveClients.isSome, dc.usePrivateRDNS.isSome, dc.ratelimitSubnetLenIPv4.isSome,
    dc.ratelimitSubnetLenIPv6.isSome, dc.ratelimitWhitelist.isSome].any id ||
  decide (∃ n ∈ dc.ratelimit, conf.ratelimit ≠ n) ||
  decide (∃ n ∈ dc.upstreamTimeout, conf.upstreamTimeout ≠ n * second)

/-- `Server.setConfig`; `none` for a panic. -/
def setConfig (s : Server) (dc : JsonDNSConfig) : Option (Server × Bool) :=
  let s := s.setBlocking dc
  (upstreamModeAfter s.conf dc).map fun upstreamMode =>
    let conf := { s.conf with
      upstreamMode := upstreamMode
      ednsClientSubnet :=
        if dc.ednsCSUseCustom = some true then { s.conf.ednsClientSubnet with customIP := dc.ednsCSCustomIP }
        else s.conf.ednsClientSubnet
      enableDNSSEC := dc.dnssecEnabled.getD s.conf.enableDNSSEC
      aaaaDisabled := dc.disableIPv6.getD s.conf.aaaaDisabled }
    ({ s with
      blockedResponseTTL := dc.blockedResponseTTL.getD s.blockedResponseTTL
      protectionEnabled := dc.protectionEnabled.getD s.protectionEnabled
      conf := setRestartable conf dc }, shouldRestart conf dc)

/-! ## Reconfiguration -/

/-- `Server.Prepare`: the server after it, also when it fails. -/
def prepare (env : ConfEnv) (s : Server) (conf : ServerConfig) : Server × Except String Unit :=
  let s := { s with conf := conf }
  match validateBlockingMode env s.blockingMode s.blockingIPv4 s.blockingIPv6 with
  | .error err => (s, .error ("checking blocking mode: " ++ err))
  | .ok () =>
    match prepareInternalDNS env (initDefaultSettings s.conf) with
    | (conf, .error err) => ({ s with conf := conf }, .error err)
    | (conf, .ok ()) =>
      let s := { s with conf := conf }
      match newProxyConfig env s.conf with
      | .error err => (s, .error ("preparing proxy: " ++ err))
      | .ok proxyConfig =>
        match newAccessCtx env.access s.conf.allowedClients s.conf.disallowedClients s.conf.blockedHosts with
        | .error err => (s, .error ("preparing access: " ++ err.text env.quote))
        | .ok access =>
          let s := { s with access := some access }
          match setupFallbackDNS env s.conf with
          | .error err => (s, .error ("setting up fallback dns servers: " ++ err))
          | .ok fallbacks =>
            let proxyConfig := { proxyConfig with fallbacks := fallbacks }
            match env.newProxy proxyConfig with
            | .error err => (s, .error ("creating proxy: " ++ err))
            | .ok () => ({ s with dnsProxy := some proxyConfig }, .ok ())

/-- `Server.startLocked`. -/
def startLocked (env : ConfEnv) (s : Server) : Server × Except String Unit :=
  match s.dnsProxy with
  | none => (s, .error "no proxy")
  | some proxyConfig =>
    match env.startProxy proxyConfig with
    | .error err => (s, .error err)
    | .ok () => ({ s with isRunning := true }, .ok ())

/-- `Server.Reconfigure` without a new configuration. -/
def reconfigure (env : ConfEnv) (s : Server) : Server × Except String Unit :=
  let s := { s with isRunning := false }
  match s.prepare env s.conf with
  | (s, .error err) => (s, .error ("could not reconfigure the server: " ++ err))
  | (s, .ok ()) =>
    match s.startLocked env with
    | (s, .error err) => (s, .error ("could not reconfigure the server: " ++ err))
    | (s, .ok ()) => (s, .ok ())

/-- `Server.handleSetConfig` on a decoded request: the server after it and the status and text of an error. -/
def handleSetConfig (env : ConfEnv) (s : Server) (req : JsonDNSConfig) : Option (Server × Option (ℕ × String)) :=
  match env.ourAddrsSet with
  | .error err => some (s, some (500, "getting our addresses: " ++ err))
  | .ok ourAddrs =>
    match req.validate env ourAddrs s.conf.cacheSize with
    | .error err => some (s, some (400, err))
    | .ok req => do
      let (s, restart) ← s.setConfig req
      if restart then
        match s.reconfigure env with
        | (s, .error err) => return (s, some (500, err))
        | (s, .ok ()) => return (s, none)
      else return (s, none)

end Server

end AdGuardHome.Dnsforward
