import AdGuardHome.Aghnet.Addr
import AdGuardHome.Dnsforward.Access

/-!
# Configuration of the DNS server

The part of `ServerConfig` that the main proxy is built from, and the steps of `Server.Prepare` that build it.  Parsing
and closing upstreams, the creation of a proxy and the files are parameters.
-/

namespace AdGuardHome.Dnsforward

open AdGuardHome.Net AdGuardHome.Aghnet

/-- `proxy.UpstreamMode`. -/
inductive UpstreamMode
  | loadBalance
  | parallel
  | fastestAddr
deriving DecidableEq

/-- `filtering.BlockingMode`, a string that need not be one of the constants. -/
inductive BlockingMode
  | default
  | customIP
  | nullIP
  | nxdomain
  | refused
  | other (mode : String)
deriving DecidableEq

/-- `proxy.UpstreamConfig`.  An upstream is its address. -/
structure UpstreamConfig where
  upstreams : List String
  domainReservedUpstreams : List (String × List String)
  specifiedDomainUpstreams : List (String × List String)
deriving DecidableEq

structure EDNSClientSubnet where
  customIP : Addr
  enabled : Bool
  useCustom : Bool
deriving DecidableEq

/-- The addresses of `DNSCryptConfig`. -/
structure DNSCryptConfig where
  udpListenAddrs : List String
  tcpListenAddrs : List String
deriving DecidableEq

/-- The addresses of `TLSConfig`, `none` for a nil slice. -/
structure TLSConfig where
  dnsCryptConf : Option DNSCryptConfig
  tlsListenAddrs : Option (List String)
  quicListenAddrs : Option (List String)
deriving DecidableEq

/-- `ServerConfig` with the `Config` embedded in it.  Durations are in nanoseconds. -/
structure ServerConfig where
  udpListenAddrs : Option (List String) := none
  tcpListenAddrs : Option (List String) := none
  upstreamConfig : Option UpstreamConfig := none
  privateRDNSUpstreamConfig : Option UpstreamConfig := none
  /-- `AddrProcConf.UseRDNS`. -/
  useRDNS : Bool := false
  tlsConf : TLSConfig := ⟨none, none, none⟩
  ratelimit : UInt32 := 0
  ratelimitSubnetLenIPv4 : UInt64 := 0
  ratelimitSubnetLenIPv6 : UInt64 := 0
  ratelimitWhitelist : List Addr := []
  refuseAny : Bool := false
  upstreamDNS : List String := []
  upstreamDNSFileName : String := ""
  bootstrapDNS : List String := []
  fallbackDNS : List String := []
  upstreamMode : UpstreamMode := .loadBalance
  fastestTimeout : Int64 := 0
  allowedClients : List String := []
  disallowedClients : List String := []
  blockedHosts : List String := []
  trustedProxies : List Prefix := []
  cacheEnabled : Bool := false
  cacheSize : UInt32 := 0
  cacheMinTTL : UInt32 := 0
  cacheMaxTTL : UInt32 := 0
  cacheOptimistic : Bool := false
  cacheOptimisticAnswerTTL : Int64 := 0
  cacheOptimisticMaxAge : Int64 := 0
  bogusNXDomain : List String := []
  aaaaDisabled : Bool := false
  enableDNSSEC : Bool := false
  ednsClientSubnet : EDNSClientSubnet := ⟨.invalid, false, false⟩
  maxGoroutines : UInt64 := 0
  ipsetList : List String := []
  ipsetListFileName : String := ""
  tlsAllowUnencryptedDoH : Bool := false
  upstreamTimeout : Int64 := 0
  localPTRResolvers : List String := []
  dns64Prefixes : List Prefix := []
  usePrivateRDNS : Bool := false
  useDNS64 : Bool := false
  servePlainDNS : Bool := false
  pendingRequestsEnabled : Bool := false
deriving DecidableEq

/-- `ratelimit.Config`. -/
structure RatelimitConfig where
  ratelimit : UInt32
  subnetLenIPv4 : UInt64
  subnetLenIPv6 : UInt64
  allowlistAddrs : List Prefix
deriving DecidableEq

/-- `proxy.Config`.  Of the request handler only the rate limit depends on the configuration. -/
structure ProxyConfig where
  refuseAny : Bool := false
  trustedProxies : List Prefix := []
  cacheEnabled : Bool := false
  cacheSizeBytes : UInt32 := 0
  cacheMinTTL : UInt32 := 0
  cacheMaxTTL : UInt32 := 0
  cacheOptimistic : Bool := false
  cacheOptimisticAnswerTTL : Int64 := 0
  cacheOptimisticMaxAge : Int64 := 0
  upstreamConfig : Option UpstreamConfig := none
  privateRDNSUpstreamConfig : Option UpstreamConfig := none
  fallbacks : Option UpstreamConfig := none
  /-- The configuration of the rate limit middleware, `none` for `proxy.PassThrough`. -/
  requestHandler : Option RatelimitConfig := none
  enableEDNSClientSubnet : Bool := false
  ednsAddr : Option Addr := none
  maxGoroutines : UInt64 := 0
  useDNS64 : Bool := false
  dns64Prefs : List Prefix := []
  usePrivateRDNS : Bool := false
  pendingRequestsEnabled : Bool := false
  insecureEnabled : Bool := false
  upstreamMode : UpstreamMode := .loadBalance
  dnssecEnabled : Bool := false
  fastestPingTimeout : Int64 := 0
  bogusNXDomain : List Prefix := []
  dnsCryptUDPListenAddr : List String := []
  dnsCryptTCPListenAddr : List String := []
  tlsListenAddr : List String := []
  quicListenAddr : List String := []
  udpListenAddr : List String := []
  tcpListenAddr : List String := []
deriving DecidableEq

/-- What the configuration uses of other packages and of the system. -/
structure ConfEnv where
  access : AccessEnv
  /-- `%q` of `fmt`. -/
  quote : String → String
  /-- The text of the error of `netip` for a string that is no address or prefix. -/
  errParse : String → String
  /-- The text of the error of `validate.Positive` for a field. -/
  errPositive : String → UInt32 → String
  /-- The text of the error of `validate.NoLessThan` for a field. -/
  errNoLessThan : String → Int64 → Int64 → String
  /-- `os.ReadFile`. -/
  readFile : String → Except String String
  /-- `stringutil.SplitTrimmed` at the ends of lines. -/
  splitTrimmed : String → List String
  /-- `proxy.ParseUpstreamsConfig` with the timeout of its options. -/
  parseUpstreamsConfig : List String → Int64 → Except String UpstreamConfig
  /-- `UpstreamConfig.Close`. -/
  closeUpstreamConfig : UpstreamConfig → Except String Unit
  /-- `Upstream.Close`. -/
  closeUpstream : String → Except String Unit
  /-- `upstream.NewUpstreamResolver`. -/
  newUpstreamResolver : String → Except String Unit
  /-- `UpstreamResolver.Close`. -/
  closeResolver : String → Except String Unit
  /-- `proxy.ValidatePrivateConfig` with the private networks of the server. -/
  validatePrivateConfig : UpstreamConfig → Except String Unit
  /-- `Config.Validate` of the rate limit. -/
  validateRatelimit : RatelimitConfig → Except String Unit
  /-- `newIpsetHandler`. -/
  newIpsetHandler : List String → Except String Unit
  /-- `ServerConfig.ourAddrsSet`, a set of the addresses of upstreams. -/
  ourAddrsSet : Except String (String → Bool)
  /-- `SystemResolvers.Addrs`. -/
  sysResolvers : List String
  /-- `proxy.New`. -/
  newProxy : ProxyConfig → Except String Unit
  /-- `Proxy.Start`. -/
  startProxy : ProxyConfig → Except String Unit

/-- `fmt.Errorf` with the wrapped error at the end. -/
def wrapErr {α : Type} (msg : String) : Except String α → Except String α
  | .error err => .error (msg ++ err)
  | .ok a => .ok a

/-! ## Checks -/

def validateBlockingMode (env : ConfEnv) (mode : BlockingMode) (blockingIPv4 blockingIPv6 : Addr) :
    Except String Unit :=
  match mode with
  | .default | .nxdomain | .refused | .nullIP => .ok ()
  | .customIP =>
    if !blockingIPv4.is4 then .error "blocking_ipv4 must be valid ipv4 on custom_ip blocking_mode"
    else if !blockingIPv6.is6 then .error "blocking_ipv6 must be valid ipv6 on custom_ip blocking_mode"
    else .ok ()
  | .other mode => .error ("bad blocking mode " ++ env.quote mode)

def validateCacheTTL (minTTL maxTTL : UInt32) : Except String Unit :=
  if minTTL = 0 ∧ maxTTL = 0 then .ok ()
  else if 0 < maxTTL ∧ maxTTL < minTTL then .error "cache_ttl_min must be less than or equal to cache_ttl_max"
  else .ok ()

/-- The addresses of the whitelist as subnets, from the index `i` on. -/
def allowListAddrs : ℕ → List Addr → Except String (List Prefix)
  | _, [] => .ok []
  | i, s :: whitelist =>
    if !s.isValid then .error ("ratelimit: whitelist: at index " ++ toString i ++ ": invalid ip")
    else (allowListAddrs (i + 1) whitelist).map
      (⟨s.unmap.withoutZone, UInt8.ofNat (s.unmap.bitLen + 1)⟩ :: ·)

def newRatelimitMw (env : ConfEnv) (conf : ServerConfig) : Except String (Option RatelimitConfig) :=
  if conf.ratelimit = 0 then .ok none
  else do
    let allowlistAddrs ← allowListAddrs 0 conf.ratelimitWhitelist
    let rlConf : RatelimitConfig :=
      { ratelimit := conf.ratelimit, subnetLenIPv4 := conf.ratelimitSubnetLenIPv4,
        subnetLenIPv6 := conf.ratelimitSubnetLenIPv6, allowlistAddrs := allowlistAddrs }
    wrapErr "invalid configuration: " (env.validateRatelimit rlConf)
    return some rlConf

/-- `aghnet.ParseSubnet`. -/
def parseSubnet (s : String) : Option Prefix :=
  if '/' ∈ s.toList then parsePrefix s
  else (parseAddr s).map fun ip => ⟨ip.withoutZone, UInt8.ofNat (ip.bitLen + 1)⟩

/-- `parseBogusNXDOMAIN` from the index `i` on. -/
def parseBogusNXDOMAIN (env : ConfEnv) : ℕ → List String → Except String (List Prefix)
  | _, [] => .ok []
  | i, s :: confBogusNXDOMAIN =>
    match parseSubnet s with
    | none => .error ("subnet at index " ++ toString i ++ ": " ++ env.errParse s)
    | some subnet => (parseBogusNXDOMAIN env (i + 1) confBogusNXDOMAIN).map (subnet :: ·)

def prepareDNSCrypt (conf : ServerConfig) (proxyConf : ProxyConfig) : ProxyConfig :=
  match conf.tlsConf.dnsCryptConf with
  | none => proxyConf
  | some dnsCryptConf =>
    { proxyConf with
      dnsCryptUDPListenAddr := dnsCryptConf.udpListenAddrs
      dnsCryptTCPListenAddr := dnsCryptConf.tcpListenAddrs }

/-- `prepareTLS` without the certificates. -/
def prepareTLS (conf : ServerConfig) (proxyConf : ProxyConfig) : ProxyConfig :=
  let proxyConf := prepareDNSCrypt conf proxyConf
  if conf.tlsConf.tlsListenAddrs = none ∧ conf.tlsConf.quicListenAddrs = none then proxyConf
  else
    { proxyConf with
      tlsListenAddr := conf.tlsConf.tlsListenAddrs.getD []
      quicListenAddr := conf.tlsConf.quicListenAddrs.getD [] }

def preparePlain (conf : ServerConfig) (proxyConf : ProxyConfig) : Except String ProxyConfig :=
  if conf.servePlainDNS then
    .ok { proxyConf with
      udpListenAddr := conf.udpListenAddrs.getD []
      tcpListenAddr := conf.tcpListenAddrs.getD [] }
  else
    let lenEncrypted := proxyConf.dnsCryptTCPListenAddr.length + proxyConf.dnsCryptUDPListenAddr.length +
      proxyConf.quicListenAddr.length + proxyConf.tlsListenAddr.length
    if lenEncrypted = 0 then .error "disabling plain dns requires at least one encrypted protocol"
    else .ok proxyConf

def prepareCacheConfig (env : ConfEnv) (conf : ProxyConfig) (isEnabled : Bool) (size minTTL maxTTL : UInt32) :
    Except String ProxyConfig :=
  if isEnabled = true ∧ size = 0 then .error ("cache_enabled is true: " ++ env.errPositive "cache_size" size)
  else
    (wrapErr "validating cache ttl: " (validateCacheTTL minTTL maxTTL)).map fun _ =>
      if isEnabled then { conf with cacheEnabled := true, cacheSizeBytes := size } else conf

/-- The configuration that `newProxyConfig` fills in before it prepares the protocols and the cache. -/
def baseProxyConfig (srvConf : ServerConfig) (ratelimitMw : Option RatelimitConfig) (bogusNXDomain : List Prefix) :
    ProxyConfig where
  refuseAny := srvConf.refuseAny
  trustedProxies := srvConf.trustedProxies
  cacheMinTTL := srvConf.cacheMinTTL
  cacheMaxTTL := srvConf.cacheMaxTTL
  cacheOptimistic := srvConf.cacheOptimistic
  cacheOptimisticAnswerTTL := srvConf.cacheOptimisticAnswerTTL
  cacheOptimisticMaxAge := srvConf.cacheOptimisticMaxAge
  upstreamConfig := srvConf.upstreamConfig
  privateRDNSUpstreamConfig := srvConf.privateRDNSUpstreamConfig
  requestHandler := ratelimitMw
  enableEDNSClientSubnet := srvConf.ednsClientSubnet.enabled
  maxGoroutines := srvConf.maxGoroutines
  useDNS64 := srvConf.useDNS64
  dns64Prefs := srvConf.dns64Prefixes
  usePrivateRDNS := srvConf.usePrivateRDNS
  pendingRequestsEnabled := srvConf.pendingRequestsEnabled
  insecureEnabled := srvConf.tlsAllowUnencryptedDoH
  upstreamMode := srvConf.upstreamMode
  dnssecEnabled := srvConf.enableDNSSEC
  fastestPingTimeout := srvConf.fastestTimeout
  bogusNXDomain := bogusNXDomain
  -- The slice of an invalid address is nil.
  ednsAddr :=
    if srvConf.ednsClientSubnet.useCustom ∧ srvConf.ednsClientSubnet.customIP.isValid then
      some srvConf.ednsClientSubnet.customIP.withoutZone
    else none

def newProxyConfig (env : ConfEnv) (srvConf : ServerConfig) : Except String ProxyConfig := do
  let ratelimitMw ← wrapErr "ratelimit middleware: " (newRatelimitMw env srvConf)
  let bogusNXDomain ← wrapErr "bogus_nxdomain: " (parseBogusNXDOMAIN env 0 srvConf.bogusNXDomain)
  let conf := prepareTLS srvConf (baseProxyConfig srvConf ratelimitMw bogusNXDomain)
  let conf ← wrapErr "validating plain: " (preparePlain srvConf conf)
  prepareCacheConfig env conf srvConf.cacheEnabled srvConf.cacheSize srvConf.cacheMinTTL srvConf.cacheMaxTTL

/-! ## Preparation -/

def defaultDNS : List String := ["https://dns10.quad9.net/dns-query"]

def defaultBootstrap : List String := ["9.9.9.10", "149.112.112.10", "2620:fe::10", "2620:fe::fe:10"]

def defaultBlockedHosts : List String := ["version.bind", "id.server", "hostname.bind"]

def defaultUDPListenAddrs : List String := [":53"]

def defaultTCPListenAddrs : List String := [":53"]

def second : Int64 := 1000000000

/-- `DefaultTimeout`. -/
def defaultTimeout : Int64 := 10 * second

def defaultLocalTimeout : Int64 := 1 * second

def initDefaultSettings (conf : ServerConfig) : ServerConfig :=
  { conf with
    upstreamDNS := if conf.upstreamDNS = [] then defaultDNS else conf.upstreamDNS
    bootstrapDNS := if conf.bootstrapDNS = [] then defaultBootstrap else conf.bootstrapDNS
    udpListenAddrs := some (conf.udpListenAddrs.getD defaultUDPListenAddrs)
    tcpListenAddrs := some (conf.tcpListenAddrs.getD defaultTCPListenAddrs)
    blockedHosts := if conf.blockedHosts = [] then defaultBlockedHosts else conf.blockedHosts
    upstreamTimeout := if conf.upstreamTimeout = 0 then defaultTimeout else conf.upstreamTimeout }

def prepareIpsetListSettings (env : ConfEnv) (conf : ServerConfig) : Except String (List String) :=
  if conf.ipsetListFileName = "" then .ok conf.ipsetList
  else (env.readFile conf.ipsetListFileName).map fun data => filterOutComments (env.splitTrimmed data)

def loadUpstreams (env : ConfEnv) (conf : ServerConfig) : Except String (List String) :=
  if conf.upstreamDNSFileName = "" then .ok (filterOutComments conf.upstreamDNS)
  else (wrapErr "reading upstream from file: " (env.readFile conf.upstreamDNSFileName)).map fun data =>
    filterOutComments (env.splitTrimmed data)

/-- `aghnet.ParseBootstraps` from the index `i` on. -/
def parseBootstraps (env : ConfEnv) : ℕ → List String → Except String Unit
  | _, [] => .ok ()
  | i, b :: addrs => do
    wrapErr ("bootstrap at index " ++ toString i ++ ": ") (env.newUpstreamResolver b)
    parseBootstraps env (i + 1) addrs

def newBootstrap (env : ConfEnv) (addrs : List String) : Except String Unit :=
  let addrs := filterOutComments addrs
  parseBootstraps env 0 (if addrs = [] then defaultBootstrap else addrs)

def newUpstreamConfig (env : ConfEnv) (upstreams defaultUpstreams : List String) (timeout : Int64) :
    Except String UpstreamConfig := do
  let uc ← wrapErr "parsing upstreams: " (env.parseUpstreamsConfig upstreams timeout)
  if uc.upstreams = [] ∧ defaultUpstreams ≠ [] then
    let dc ← wrapErr "parsing default upstreams: " (env.parseUpstreamsConfig defaultUpstreams timeout)
    return { uc with upstreams := dc.upstreams }
  else return uc

/-- `errors.Join`. -/
def joinErrs (errs : List (Except String Unit)) : Except String Unit :=
  match errs.filterMap fun | .error err => some err | .ok _ => none with
  | [] => .ok ()
  | msgs => .error ("\n".intercalate msgs)

/-- The upstreams that `filterOutAddrs` keeps, and the results of closing the others. -/
def filterOutAddrs (env : ConfEnv) (upsConf : UpstreamConfig) (own : String → Bool) :
    Except String UpstreamConfig := do
  let all := upsConf.upstreams ++ upsConf.domainReservedUpstreams.flatMap (·.2) ++
    upsConf.specifiedDomainUpstreams.flatMap (·.2)
  joinErrs ((all.filter own).map env.closeUpstream)
  return {
    upstreams := upsConf.upstreams.filter (!own ·)
    domainReservedUpstreams := upsConf.domainReservedUpstreams.map fun (d, ups) => (d, ups.filter (!own ·))
    specifiedDomainUpstreams := upsConf.specifiedDomainUpstreams.map fun (d, ups) => (d, ups.filter (!own ·)) }

def newPrivateConfig (env : ConfEnv) (addrs : List String) (unwanted : String → Bool) (timeout : Int64) :
    Except String UpstreamConfig := do
  let uc ←
    if addrs ≠ [] then do
      let uc ← wrapErr "preparing private upstreams: " (env.parseUpstreamsConfig (filterOutComments addrs) timeout)
      wrapErr "filtering private upstreams: " (filterOutAddrs env uc unwanted)
    else
      wrapErr "preparing private upstreams: "
        (env.parseUpstreamsConfig (env.sysResolvers.filter (!unwanted ·)) timeout)
  env.validatePrivateConfig uc
  return uc

def prepareLocalResolvers (env : ConfEnv) (conf : ServerConfig) : Except String (Option UpstreamConfig) :=
  if !conf.usePrivateRDNS then .ok none
  else do
    let ownAddrs ← env.ourAddrsSet
    let uc ← wrapErr "preparing resolvers: "
      (newPrivateConfig env conf.localPTRResolvers ownAddrs defaultLocalTimeout)
    return some uc

/-- The configuration of the proxy for internal queries. -/
def internalProxyConfig (srvConf : ServerConfig) : ProxyConfig where
  cacheEnabled := true
  cacheSizeBytes := 4096
  privateRDNSUpstreamConfig := srvConf.privateRDNSUpstreamConfig
  upstreamConfig := srvConf.upstreamConfig
  maxGoroutines := srvConf.maxGoroutines
  useDNS64 := srvConf.useDNS64
  dns64Prefs := srvConf.dns64Prefixes
  usePrivateRDNS := srvConf.usePrivateRDNS
  upstreamMode := srvConf.upstreamMode
  fastestPingTimeout := srvConf.fastestTimeout

/-- `prepareInternalDNS`: the configuration after it, also when it fails. -/
def prepareInternalDNS (env : ConfEnv) (conf : ServerConfig) : ServerConfig × Except String Unit :=
  let upstreams := do
    let ipsetList ← wrapErr "preparing ipset settings: " (prepareIpsetListSettings env conf)
    env.newIpsetHandler ipsetList
    newBootstrap env conf.bootstrapDNS
    let upstreams ← wrapErr "loading upstreams: " (loadUpstreams env conf)
    wrapErr "preparing upstream config: " (newUpstreamConfig env upstreams defaultDNS conf.upstreamTimeout)
  match upstreams with
  | .error err => (conf, .error err)
  | .ok uc =>
    let conf := { conf with upstreamConfig := some uc }
    match prepareLocalResolvers env conf with
    | .error err => ({ conf with privateRDNSUpstreamConfig := none }, .error err)
    | .ok puc =>
      let conf := { conf with privateRDNSUpstreamConfig := puc }
      (conf, wrapErr "preparing internal proxy: " (env.newProxy (internalProxyConfig conf)))

def setupFallbackDNS (env : ConfEnv) (conf : ServerConfig) : Except String (Option UpstreamConfig) :=
  let fallbacks := filterOutComments conf.fallbackDNS
  if fallbacks = [] then .ok none
  else (env.parseUpstreamsConfig fallbacks conf.upstreamTimeout).map some

end AdGuardHome.Dnsforward
