import Mathlib.Tactic.Tauto
import AdGuardHome.Lib.Agree
import AdGuardHome.Dnsforward.SetConfig

/-!
# Effect of a change of the DNS configuration

A request is validated on its own fields, while the proxy is built from the merge of these with the current
configuration, and only some of the fields make the server build the proxy anew.  So an accepted request takes effect
if and only if the merged bounds of the TTL are in order, the merged rate limit is usable, and, where no field of the
request asks for a restart, neither the upstream mode nor DNSSEC changes.
-/

namespace AdGuardHome.Dnsforward

open AdGuardHome.Net
open AdGuardHome.Lib (bind_eq_ok map_eq_ok)

/-! ## Fallible steps -/

section Except

variable {α : Type}

@[simp] theorem wrapErr_eq_ok {msg : String} {x : Except String α} {a : α} : wrapErr msg x = .ok a ↔ x = .ok a := by
  cases x with
  | error e => exact ⟨fun h => (nomatch h), fun h => (nomatch h)⟩
  | ok b => exact Iff.rfl

end Except

/-! ## The checks of the proxy configuration -/

/-- Plain DNS is served, or some encrypted protocol has an address. -/
def ServerConfig.Serves (c : ServerConfig) : Prop :=
  c.servePlainDNS = true ∨ (∃ d ∈ c.tlsConf.dnsCryptConf, d.tcpListenAddrs ≠ [] ∨ d.udpListenAddrs ≠ []) ∨
    c.tlsConf.quicListenAddrs.getD [] ≠ [] ∨ c.tlsConf.tlsListenAddrs.getD [] ≠ []

/-- No address of an encrypted protocol is set. -/
structure ProxyConfig.Plain (p : ProxyConfig) : Prop where
  dnsCryptUDP : p.dnsCryptUDPListenAddr = []
  dnsCryptTCP : p.dnsCryptTCPListenAddr = []
  tls : p.tlsListenAddr = []
  quic : p.quicListenAddr = []

theorem preparePlain_prepareTLS_ok_iff (c : ServerConfig) {p : ProxyConfig} (hp : p.Plain) :
    (∃ conf, preparePlain c (prepareTLS c p) = .ok conf) ↔ c.Serves := by
  unfold preparePlain ServerConfig.Serves
  by_cases hplain : c.servePlainDNS = true
  · simp [hplain]
  · have hlen : (prepareTLS c p).dnsCryptTCPListenAddr.length + (prepareTLS c p).dnsCryptUDPListenAddr.length +
        (prepareTLS c p).quicListenAddr.length + (prepareTLS c p).tlsListenAddr.length = 0 ↔
        ¬((∃ d ∈ c.tlsConf.dnsCryptConf, d.tcpListenAddrs ≠ [] ∨ d.udpListenAddrs ≠ []) ∨
          c.tlsConf.quicListenAddrs.getD [] ≠ [] ∨ c.tlsConf.tlsListenAddrs.getD [] ≠ []) := by
      unfold prepareTLS prepareDNSCrypt
      rcases c.tlsConf with ⟨dnsCrypt, tls, quic⟩
      cases dnsCrypt <;> cases tls <;> cases quic <;>
        (simp [hp.dnsCryptUDP, hp.dnsCryptTCP, hp.tls, hp.quic]; try tauto)
    simp only [hplain, Bool.false_eq_true, if_false, false_or]
    by_cases hzero : (prepareTLS c p).dnsCryptTCPListenAddr.length +
        (prepareTLS c p).dnsCryptUDPListenAddr.length + (prepareTLS c p).quicListenAddr.length +
        (prepareTLS c p).tlsListenAddr.length = 0
    · rw [if_pos hzero]
      exact ⟨fun ⟨_, h⟩ => (nomatch h), fun h => absurd h (hlen.mp hzero)⟩
    · rw [if_neg hzero]
      exact ⟨fun _ => not_not.mp (mt hlen.mpr hzero), fun _ => ⟨_, rfl⟩⟩

/-- The bounds of the TTL are in order; zero is no upper bound. -/
def TTLOrdered (minTTL maxTTL : UInt32) : Prop := 0 < maxTTL → minTTL ≤ maxTTL

theorem validateCacheTTL_ok_iff (minTTL maxTTL : UInt32) :
    validateCacheTTL minTTL maxTTL = .ok () ↔ TTLOrdered minTTL maxTTL := by
  unfold validateCacheTTL TTLOrdered
  split
  · rename_i hzero
    simp [hzero.2]
  · split
    · rename_i hbad
      exact ⟨fun h => (nomatch h), fun h => absurd hbad.2 (UInt32.not_lt.mpr (h hbad.1))⟩
    · rename_i hgood
      exact ⟨fun _ hmax => UInt32.not_lt.mp fun hlt => hgood ⟨hmax, hlt⟩, fun _ => rfl⟩

theorem prepareCacheConfig_ok_iff (env : ConfEnv) (p : ProxyConfig) (isEnabled : Bool) (size minTTL maxTTL : UInt32) :
    (∃ conf, prepareCacheConfig env p isEnabled size minTTL maxTTL = .ok conf) ↔
      (isEnabled = true → size ≠ 0) ∧ TTLOrdered minTTL maxTTL := by
  unfold prepareCacheConfig
  split
  · rename_i hzero
    exact ⟨fun ⟨_, h⟩ => (nomatch h), fun h => absurd hzero.2 (h.1 hzero.1)⟩
  · rename_i hsize
    simp only [map_eq_ok, wrapErr_eq_ok]
    constructor
    · rintro ⟨_, _, httl, _⟩
      exact ⟨fun hen hzero => hsize ⟨hen, hzero⟩, (validateCacheTTL_ok_iff ..).mp httl⟩
    · rintro ⟨_, httl⟩
      exact ⟨_, (), (validateCacheTTL_ok_iff ..).mpr httl, rfl⟩

/-- What `newProxyConfig` checks. -/
structure ServerConfig.Usable (env : ConfEnv) (c : ServerConfig) : Prop where
  ratelimit : ∃ mw, newRatelimitMw env c = .ok mw
  bogus : ∃ subnets, parseBogusNXDOMAIN env 0 c.bogusNXDomain = .ok subnets
  serves : c.Serves
  cacheSize : c.cacheEnabled = true → c.cacheSize ≠ 0
  ttl : TTLOrdered c.cacheMinTTL c.cacheMaxTTL

theorem newProxyConfig_ok_iff (env : ConfEnv) (c : ServerConfig) :
    (∃ conf, newProxyConfig env c = .ok conf) ↔ c.Usable env := by
  unfold newProxyConfig
  simp only [bind_eq_ok, wrapErr_eq_ok]
  constructor
  · rintro ⟨conf, mw, hmw, subnets, hsub, p, hp, hcache⟩
    have hserves := (preparePlain_prepareTLS_ok_iff c ⟨rfl, rfl, rfl, rfl⟩).mp ⟨p, hp⟩
    obtain ⟨hsize, httl⟩ := (prepareCacheConfig_ok_iff ..).mp ⟨conf, hcache⟩
    exact ⟨⟨mw, hmw⟩, ⟨subnets, hsub⟩, hserves, hsize, httl⟩
  · rintro ⟨⟨mw, hmw⟩, ⟨subnets, hsub⟩, hserves, hsize, httl⟩
    obtain ⟨p, hp⟩ := (preparePlain_prepareTLS_ok_iff c
      (p := baseProxyConfig c mw subnets) ⟨rfl, rfl, rfl, rfl⟩).mpr hserves
    obtain ⟨conf, hconf⟩ := (prepareCacheConfig_ok_iff env p ..).mpr ⟨hsize, httl⟩
    exact ⟨conf, mw, hmw, subnets, hsub, p, hp, hconf⟩

/-- The configuration with every field erased that `newProxyConfig` does not read. -/
def ServerConfig.readByProxy (c : ServerConfig) : ServerConfig :=
  { c with
    useRDNS := false, upstreamDNS := [], upstreamDNSFileName := "", bootstrapDNS := [], fallbackDNS := []
    allowedClients := [], disallowedClients := [], blockedHosts := [], aaaaDisabled := false, ipsetList := []
    ipsetListFileName := "", upstreamTimeout := 0, localPTRResolvers := [] }

theorem newProxyConfig_readByProxy (env : ConfEnv) (c : ServerConfig) :
    newProxyConfig env c.readByProxy = newProxyConfig env c := rfl

/-! ## Accepted requests -/

namespace JsonDNSConfig

/-- The request with the legacy meaning of a cache size. -/
def withCacheEnabled (req : JsonDNSConfig) : JsonDNSConfig :=
  { req with cacheEnabled := req.cacheEnabled.or (req.cacheSize.map fun size => decide (0 < size)) }

/-- What `validate` has checked of the fields that the proxy and the filter use. -/
structure Accepted (env : ConfEnv) (curCacheSize : UInt32) (req : JsonDNSConfig) : Prop where
  blockingMode : ∀ mode ∈ req.blockingMode, validateBlockingMode env mode req.blockingIPv4 req.blockingIPv6 = .ok ()
  upstreamMode : ∀ mode ∈ req.upstreamMode, ∃ um, Server.mustParseUpstreamMode mode = some um
  cacheSize : req.cacheEnabled = some true → req.cacheSize.getD curCacheSize ≠ 0

theorem validateCacheSettings_ok {req req' : JsonDNSConfig} {size : UInt32}
    (h : req.validateCacheSettings size = .ok req') :
    req' = req.withCacheEnabled ∧ (req.cacheEnabled = some true → req.cacheSize.getD size ≠ 0) := by
  unfold validateCacheSettings at h
  obtain ⟨r, hsize, hr⟩ := bind_eq_ok.mp h
  have hreq : req' = r := by
    split at hr
    · cases hr; rfl
    · obtain ⟨_, _, hr⟩ := bind_eq_ok.mp hr
      cases hr; rfl
  subst hreq
  unfold validateCacheSize at hsize
  split at hsize
  · exact nomatch hsize
  · rename_i hzero
    refine ⟨?_, fun hen hz => hzero ⟨hen, hz⟩⟩
    unfold withCacheEnabled
    split at hsize <;> cases hsize
    · rename_i hnone hsome
      simp [hnone, hsome]
    · rename_i hnot
      cases hen : req.cacheEnabled with
      | some b => cases req; simp_all
      | none =>
        cases hs : req.cacheSize with
        | none => cases req; simp_all
        | some n => exact absurd hs (hnot n hen)

theorem validate_ok {env : ConfEnv} {own : String → Bool} {req req' : JsonDNSConfig} {size : UInt32}
    (h : req.validate env own size = .ok req') : req' = req.withCacheEnabled ∧ req.Accepted env size := by
  unfold validate at h
  simp only [bind_eq_ok, wrapErr_eq_ok] at h
  obtain ⟨_, _, _, _, _, hmode, _, hum, r, hcache, _, _, hr⟩ := h
  cases hr
  obtain ⟨heq, hsize⟩ := validateCacheSettings_ok hcache
  refine ⟨heq, ?_, ?_, hsize⟩
  · intro mode hmem
    unfold checkBlockingMode at hmode
    rw [Option.mem_def.mp hmem] at hmode
    exact hmode
  · intro mode hmem
    unfold checkUpstreamMode at hum
    rw [Option.mem_def.mp hmem] at hum
    cases mode with
    | other um => exact nomatch hum
    | _ => exact ⟨_, rfl⟩

end JsonDNSConfig

/-! ## The merge of a request with the configuration -/

/-- The configuration with the values of a request in place of its own.  A request with a cache size and without
`cache_enabled` switches the cache on or off. -/
def ServerConfig.merge (c : ServerConfig) (req : JsonDNSConfig) : ServerConfig :=
  { c with
    upstreamDNS := req.upstreams.getD c.upstreamDNS
    localPTRResolvers := req.localPTRUpstreams.getD c.localPTRResolvers
    upstreamDNSFileName := req.upstreamsFile.getD c.upstreamDNSFileName
    bootstrapDNS := req.bootstraps.getD c.bootstrapDNS
    fallbackDNS := req.fallbacks.getD c.fallbackDNS
    upstreamMode := (req.upstreamMode.bind Server.mustParseUpstreamMode).getD c.upstreamMode
    enableDNSSEC := req.dnssecEnabled.getD c.enableDNSSEC
    aaaaDisabled := req.disableIPv6.getD c.aaaaDisabled
    ednsClientSubnet :=
      { customIP := if req.ednsCSUseCustom = some true then req.ednsCSCustomIP else c.ednsClientSubnet.customIP
        enabled := req.ednsCSEnabled.getD c.ednsClientSubnet.enabled
        useCustom := req.ednsCSUseCustom.getD c.ednsClientSubnet.useCustom }
    cacheEnabled := (req.cacheEnabled.or (req.cacheSize.map fun size => decide (0 < size))).getD c.cacheEnabled
    cacheSize := req.cacheSize.getD c.cacheSize
    cacheMinTTL := req.cacheMinTTL.getD c.cacheMinTTL
    cacheMaxTTL := req.cacheMaxTTL.getD c.cacheMaxTTL
    cacheOptimistic := req.cacheOptimistic.getD c.cacheOptimistic
    useRDNS := req.resolveClients.getD c.useRDNS
    usePrivateRDNS := req.usePrivateRDNS.getD c.usePrivateRDNS
    ratelimitSubnetLenIPv4 := req.ratelimitSubnetLenIPv4.getD c.ratelimitSubnetLenIPv4
    ratelimitSubnetLenIPv6 := req.ratelimitSubnetLenIPv6.getD c.ratelimitSubnetLenIPv6
    ratelimitWhitelist := req.ratelimitWhitelist.getD c.ratelimitWhitelist
    ratelimit := req.ratelimit.getD c.ratelimit
    upstreamTimeout := (req.upstreamTimeout.map (· * second)).getD c.upstreamTimeout }

/-- The fields of a request that `setConfig` sets without a restart, and the two that need one only if they change. -/
def JsonDNSConfig.live (req : JsonDNSConfig) : JsonDNSConfig where
  protectionEnabled := req.protectionEnabled
  ratelimit := req.ratelimit
  upstreamTimeout := req.upstreamTimeout
  blockingMode := req.blockingMode
  dnssecEnabled := req.dnssecEnabled
  disableIPv6 := req.disableIPv6
  upstreamMode := req.upstreamMode
  blockedResponseTTL := req.blockedResponseTTL
  blockingIPv4 := req.blockingIPv4
  blockingIPv6 := req.blockingIPv6
  ednsCSCustomIP := req.ednsCSCustomIP

/-- No field of the request needs a restart. -/
structure ServerConfig.Live (c : ServerConfig) (req : JsonDNSConfig) : Prop where
  fields : req = req.live
  ratelimit : ∀ n ∈ req.ratelimit, c.ratelimit = n
  upstreamTimeout : ∀ n ∈ req.upstreamTimeout, c.upstreamTimeout = n * second

theorem shouldRestart_eq_false_iff (c : ServerConfig) (req : JsonDNSConfig) :
    Server.shouldRestart c req.withCacheEnabled = false ↔ c.Live req := by
  unfold Server.shouldRestart JsonDNSConfig.withCacheEnabled
  simp only [List.any_cons, List.any_nil, id_eq, Bool.or_false, Bool.or_eq_false_iff, decide_eq_false_iff_not,
    not_exists, not_and, not_not, Option.isSome_eq_false_iff, Option.isNone_iff_eq_none, Option.or_eq_none_iff,
    Option.map_eq_none_iff]
  constructor
  · rintro ⟨⟨hfields, hrate⟩, htime⟩
    refine ⟨?_, hrate, htime⟩
    cases req
    simp_all [JsonDNSConfig.live]
  · rintro ⟨hfields, hrate, htime⟩
    refine ⟨⟨?_, hrate⟩, htime⟩
    rw [hfields]
    simp [JsonDNSConfig.live]

theorem ServerConfig.Live.merge_eq {c : ServerConfig} {req : JsonDNSConfig} (h : c.Live req) :
    c.merge req =
      { c with
        upstreamMode := (c.merge req).upstreamMode
        enableDNSSEC := (c.merge req).enableDNSSEC
        aaaaDisabled := (c.merge req).aaaaDisabled } := by
  have hrate : req.ratelimit.getD c.ratelimit = c.ratelimit := by
    cases hr : req.ratelimit with
    | none => rfl
    | some n => exact (h.ratelimit n hr).symm
  have htime : (req.upstreamTimeout.map (· * second)).getD c.upstreamTimeout = c.upstreamTimeout := by
    cases ht : req.upstreamTimeout with
    | none => rfl
    | some n => exact (h.upstreamTimeout n ht).symm
  have hmerge : c.merge req =
      { c.merge req.live with ratelimit := c.ratelimit, upstreamTimeout := c.upstreamTimeout } := by
    rw [← h.fields]
    unfold ServerConfig.merge
    rw [hrate, htime]
  rw [hmerge]
  rfl

theorem setBlockingMode_valid {env : ConfEnv} {mode : BlockingMode} {ip4 ip6 : Addr} (s : Server)
    (h : validateBlockingMode env mode ip4 ip6 = .ok ()) :
    validateBlockingMode env (s.setBlockingMode mode ip4 ip6).blockingMode
      (s.setBlockingMode mode ip4 ip6).blockingIPv4 (s.setBlockingMode mode ip4 ip6).blockingIPv6 = .ok () := by
  unfold Server.setBlockingMode
  split
  · exact h
  · rename_i hmode
    -- The addresses are only looked at in the mode with custom ones.
    cases mode with
    | customIP => exact absurd rfl hmode
    | _ => exact h

theorem setBlocking_spec {env : ConfEnv} {s : Server} {req : JsonDNSConfig} (h : req.Accepted env s.conf.cacheSize) :
    ((s.setBlocking req).conf = s.conf ∧ (s.setBlocking req).dnsProxy = s.dnsProxy ∧
      (s.setBlocking req).isRunning = s.isRunning) ∧
    (validateBlockingMode env s.blockingMode s.blockingIPv4 s.blockingIPv6 = .ok () →
      validateBlockingMode env (s.setBlocking req).blockingMode (s.setBlocking req).blockingIPv4
        (s.setBlocking req).blockingIPv6 = .ok ()) := by
  unfold Server.setBlocking
  cases hmode : req.blockingMode with
  | none => exact ⟨⟨rfl, rfl, rfl⟩, id⟩
  | some mode =>
    refine ⟨?_, fun _ => setBlockingMode_valid s (h.blockingMode mode hmode)⟩
    dsimp only [Server.setBlockingMode]
    split <;> exact ⟨rfl, rfl, rfl⟩

/-- The server with an accepted request put in, before a restart. -/
theorem setConfig_withCacheEnabled {env : ConfEnv} {s : Server} {req : JsonDNSConfig}
    (h : req.Accepted env s.conf.cacheSize) :
    ∃ s', s.setConfig req.withCacheEnabled = some (s', Server.shouldRestart s.conf req.withCacheEnabled) ∧
      s'.conf = s.conf.merge req ∧ s'.dnsProxy = s.dnsProxy ∧ s'.isRunning = s.isRunning ∧
      (validateBlockingMode env s.blockingMode s.blockingIPv4 s.blockingIPv6 = .ok () →
        validateBlockingMode env s'.blockingMode s'.blockingIPv4 s'.blockingIPv6 = .ok ()) := by
  obtain ⟨⟨hconf, hproxy, hrun⟩, hvalid⟩ := setBlocking_spec h
  have hblocking : s.setBlocking req.withCacheEnabled = s.setBlocking req := rfl
  have hmode : Server.upstreamModeAfter s.conf req.withCacheEnabled = some (s.conf.merge req).upstreamMode := by
    change Server.upstreamModeAfter s.conf req = _
    unfold Server.upstreamModeAfter ServerConfig.merge
    cases hm : req.upstreamMode with
    | none => rfl
    | some mode =>
      obtain ⟨um, hum⟩ := h.upstreamMode mode hm
      simp [hum]
  unfold Server.setConfig
  rw [hblocking]
  dsimp only
  rw [hconf, hmode]
  refine ⟨_, rfl, ?_, hproxy, hrun, hvalid⟩
  dsimp only [Server.setRestartable]
  by_cases hcustom : req.ednsCSUseCustom = some true
  · have : req.withCacheEnabled.ednsCSUseCustom = some true := hcustom
    simp only [this, if_true]
    unfold ServerConfig.merge
    simp only [hcustom, if_true]
    rfl
  · have : req.withCacheEnabled.ednsCSUseCustom ≠ some true := hcustom
    simp only [this, if_false]
    unfold ServerConfig.merge
    simp only [hcustom, if_false]
    rfl

theorem usable_merge_iff {env : ConfEnv} {c : ServerConfig} {req : JsonDNSConfig} (hc : c.Usable env)
    (h : req.Accepted env c.cacheSize) :
    (c.merge req).Usable env ↔
      TTLOrdered (req.cacheMinTTL.getD c.cacheMinTTL) (req.cacheMaxTTL.getD c.cacheMaxTTL) ∧
        ∃ mw, newRatelimitMw env (c.merge req) = .ok mw := by
  have hsize : (c.merge req).cacheEnabled = true → (c.merge req).cacheSize ≠ 0 := by
    unfold ServerConfig.merge
    cases hen : req.cacheEnabled with
    | some b =>
      intro hb
      exact h.cacheSize (by rw [hen]; exact congrArg some hb)
    | none =>
      cases hs : req.cacheSize with
      | none => exact hc.cacheSize
      | some n =>
        intro hpos
        exact UInt32.pos_iff_ne_zero.mp (of_decide_eq_true hpos)
  exact ⟨fun hm => ⟨hm.ttl, hm.ratelimit⟩, fun hm => ⟨hm.2, hc.bogus, hc.serves, hsize, hm.1⟩⟩

/-! ## Reconfiguration -/

/-- The running proxy was built from the current configuration. -/
def Server.Built (env : ConfEnv) (s : Server) : Prop :=
  s.isRunning = true ∧ ∃ conf fallbacks, newProxyConfig env s.conf = .ok conf ∧
    setupFallbackDNS env s.conf = .ok fallbacks ∧ s.dnsProxy = some { conf with fallbacks := fallbacks }

/-- The steps of `Prepare` other than `newProxyConfig`, and the start of the proxy, succeed. -/
def ServerConfig.CanStart (env : ConfEnv) (c : ServerConfig) : Prop :=
  ∃ c' access fallbacks, prepareInternalDNS env (initDefaultSettings c) = (c', .ok ()) ∧
    newAccessCtx env.access c'.allowedClients c'.disallowedClients c'.blockedHosts = .ok access ∧
    setupFallbackDNS env c' = .ok fallbacks ∧
    ∀ conf, newProxyConfig env c' = .ok conf →
      env.newProxy { conf with fallbacks := fallbacks } = .ok () ∧
        env.startProxy { conf with fallbacks := fallbacks } = .ok ()

theorem prepareInternalDNS_conf (env : ConfEnv) (c : ServerConfig) :
    ∃ uc puc, (prepareInternalDNS env c).1 = { c with upstreamConfig := uc, privateRDNSUpstreamConfig := puc } := by
  unfold prepareInternalDNS
  dsimp only
  split
  · exact ⟨_, _, rfl⟩
  · split
    · exact ⟨_, _, rfl⟩
    · exact ⟨_, _, rfl⟩

theorem usable_prepared_iff {env : ConfEnv} {c c' : ServerConfig} {res : Except String Unit}
    (h : prepareInternalDNS env (initDefaultSettings c) = (c', res)) : c'.Usable env ↔ c.Usable env := by
  obtain ⟨uc, puc, hconf⟩ := prepareInternalDNS_conf env (initDefaultSettings c)
  rw [h] at hconf
  subst hconf
  exact ⟨fun hu => ⟨hu.ratelimit, hu.bogus, hu.serves, hu.cacheSize, hu.ttl⟩,
    fun hu => ⟨hu.ratelimit, hu.bogus, hu.serves, hu.cacheSize, hu.ttl⟩⟩

/-- All steps of `Prepare` after the check of the blocking mode succeed on `c`, with the configuration `c'` and the
proxy `p`. -/
structure ServerConfig.Prepared (env : ConfEnv) (c c' : ServerConfig) (access : AccessManager) (p : ProxyConfig) :
    Prop where
  internalDNS : prepareInternalDNS env (initDefaultSettings c) = (c', .ok ())
  access : newAccessCtx env.access c'.allowedClients c'.disallowedClients c'.blockedHosts = .ok access
  proxy : ∃ conf fallbacks, newProxyConfig env c' = .ok conf ∧ setupFallbackDNS env c' = .ok fallbacks ∧
    p = { conf with fallbacks := fallbacks }
  created : env.newProxy p = .ok ()

variable {env : ConfEnv} {s : Server} {c c' : ServerConfig} {access : AccessManager} {p : ProxyConfig}

theorem prepare_of_prepared
    (hmode : validateBlockingMode env s.blockingMode s.blockingIPv4 s.blockingIPv6 = .ok ())
    (h : c.Prepared env c' access p) :
    s.prepare env c = ({ s with conf := c', access := some access, dnsProxy := some p }, .ok ()) := by
  obtain ⟨hdns, haccess, ⟨conf, fallbacks, hconf, hfall, rfl⟩, hnew⟩ := h
  unfold Server.prepare
  dsimp only
  rw [hmode, hdns]
  dsimp only
  rw [hconf, haccess]
  dsimp only
  rw [hfall]
  dsimp only
  rw [hnew]

theorem prepared_of_prepare {s' : Server} (h : s.prepare env c = (s', .ok ())) :
    ∃ c' access p, c.Prepared env c' access p := by
  unfold Server.prepare at h
  dsimp only at h
  split at h
  · cases h
  · split at h
    · cases h
    · rename_i c' hdns
      split at h
      · cases h
      · rename_i conf hconf
        split at h
        · cases h
        · rename_i access haccess
          split at h
          · cases h
          · rename_i fallbacks hfall
            split at h
            · cases h
            · rename_i hnew
              exact ⟨c', access, _, hdns, haccess, ⟨conf, fallbacks, hconf, hfall, rfl⟩, hnew⟩

/-- `Prepare` does not start the server. -/
theorem prepare_isRunning (env : ConfEnv) (s : Server) (c : ServerConfig) :
    (s.prepare env c).1.isRunning = s.isRunning := by
  unfold Server.prepare
  dsimp only
  repeat' split
  all_goals rfl

theorem prepared_iff :
    (∃ c' access p, c.Prepared env c' access p ∧ env.startProxy p = .ok ()) ↔ c.Usable env ∧ c.CanStart env := by
  constructor
  · rintro ⟨c', access, _, ⟨hdns, haccess, ⟨conf, fallbacks, hconf, hfall, rfl⟩, hnew⟩, hstart⟩
    refine ⟨(usable_prepared_iff hdns).mp ((newProxyConfig_ok_iff env c').mp ⟨conf, hconf⟩), c', access, fallbacks,
      hdns, haccess, hfall, fun conf' hconf' => ?_⟩
    cases hconf.symm.trans hconf'
    exact ⟨hnew, hstart⟩
  · rintro ⟨husable, c', access, fallbacks, hdns, haccess, hfall, hnew⟩
    obtain ⟨conf, hconf⟩ := (newProxyConfig_ok_iff env c').mpr ((usable_prepared_iff hdns).mpr husable)
    exact ⟨c', access, _, ⟨hdns, haccess, ⟨conf, fallbacks, hconf, hfall, rfl⟩, (hnew conf hconf).1⟩,
      (hnew conf hconf).2⟩

theorem reconfigure_built_iff
    (hmode : validateBlockingMode env s.blockingMode s.blockingIPv4 s.blockingIPv6 = .ok ()) :
    (s.reconfigure env).1.Built env ↔ s.conf.Usable env ∧ s.conf.CanStart env := by
  rw [← prepared_iff]
  unfold Server.reconfigure
  dsimp only
  have hrun := prepare_isRunning env { s with isRunning := false } s.conf
  constructor
  · rintro ⟨hrunning, _⟩
    split at hrunning
    · rename_i s' err hprep
      rw [hprep] at hrun
      exact Bool.noConfusion (hrunning.symm.trans hrun)
    · rename_i s' hprep
      obtain ⟨c', access, p, h⟩ := prepared_of_prepare hprep
      have hs' := (prepare_of_prepared (s := { s with isRunning := false }) hmode h).symm.trans hprep
      cases hs'
      refine ⟨c', access, p, h, ?_⟩
      unfold Server.startLocked at hrunning
      dsimp only at hrunning
      cases hstart : env.startProxy p with
      | ok _ => rfl
      | error err =>
        rw [hstart] at hrunning
        cases hrunning
  · rintro ⟨c', access, p, h, hstart⟩
    rw [prepare_of_prepared (s := { s with isRunning := false }) hmode h]
    unfold Server.startLocked
    dsimp only
    rw [hstart]
    obtain ⟨conf, fallbacks, hconf, hfall, rfl⟩ := h.proxy
    exact ⟨rfl, conf, fallbacks, hconf, hfall, rfl⟩

/-! ## When a change takes effect -/

/-- The configuration passes the checks of `newProxyConfig`, and the blocking mode its own. -/
def Server.PassesChecks (env : ConfEnv) (s : Server) : Prop :=
  (∃ conf, newProxyConfig env s.conf = .ok conf) ∧
    validateBlockingMode env s.blockingMode s.blockingIPv4 s.blockingIPv6 = .ok ()

/-- The request `req`, which validation has turned into `req'`, takes effect. -/
def Server.TakesEffect (env : ConfEnv) (s : Server) (req req' : JsonDNSConfig) : Prop :=
  ∃ s' restart, s.setConfig req' = some (s', restart) ∧ s'.PassesChecks env ∧
    (s'.conf.readByProxy ≠ s.conf.readByProxy → restart = true) ∧
    ∃ s'' res, s.handleSetConfig env req = some (s'', res) ∧ s''.Built env

/-- The merged bounds of the TTL are in order and the merged rate limit is usable.  If a field of the request needs a
restart, the other steps of one succeed on the merged configuration; if none does, the upstream mode and DNSSEC stay as
they are, and the running proxy was built from the configuration before. -/
structure Server.Effective (env : ConfEnv) (s : Server) (req : JsonDNSConfig) : Prop where
  ttl : TTLOrdered (req.cacheMinTTL.getD s.conf.cacheMinTTL) (req.cacheMaxTTL.getD s.conf.cacheMaxTTL)
  ratelimit : ∃ mw, newRatelimitMw env (s.conf.merge req) = .ok mw
  restarts : ¬s.conf.Live req → (s.conf.merge req).CanStart env
  upstreamMode : s.conf.Live req → ∀ mode ∈ req.upstreamMode,
    Server.mustParseUpstreamMode mode = some s.conf.upstreamMode
  dnssec : s.conf.Live req → ∀ enabled ∈ req.dnssecEnabled, s.conf.enableDNSSEC = enabled
  built : s.conf.Live req → s.Built env

theorem readByProxy_merge_eq_iff {req : JsonDNSConfig} (h : c.Live req) (ha : req.Accepted env c.cacheSize) :
    (c.merge req).readByProxy = c.readByProxy ↔
      (∀ mode ∈ req.upstreamMode, Server.mustParseUpstreamMode mode = some c.upstreamMode) ∧
        ∀ enabled ∈ req.dnssecEnabled, c.enableDNSSEC = enabled := by
  have hmode : (c.merge req).upstreamMode = c.upstreamMode ↔
      ∀ mode ∈ req.upstreamMode, Server.mustParseUpstreamMode mode = some c.upstreamMode := by
    unfold ServerConfig.merge
    cases hm : req.upstreamMode with
    | none => simp
    | some mode =>
      obtain ⟨um, hum⟩ := ha.upstreamMode mode hm
      simp [hum]
  have hdnssec : (c.merge req).enableDNSSEC = c.enableDNSSEC ↔
      ∀ enabled ∈ req.dnssecEnabled, c.enableDNSSEC = enabled := by
    unfold ServerConfig.merge
    cases req.dnssecEnabled with
    | none => simp
    | some enabled => simp [eq_comm]
  rw [← hmode, ← hdnssec]
  constructor
  · intro heq
    have hm : (c.merge req).readByProxy.upstreamMode = c.readByProxy.upstreamMode := by rw [heq]
    have hd : (c.merge req).readByProxy.enableDNSSEC = c.readByProxy.enableDNSSEC := by rw [heq]
    exact ⟨hm, hd⟩
  · rintro ⟨hm, hd⟩
    rw [h.merge_eq, hm, hd]
    rfl

theorem built_of_live {s' : Server} {req : JsonDNSConfig} (h : s.conf.Live req) (hconf : s'.conf = s.conf.merge req)
    (hproxy : s'.dnsProxy = s.dnsProxy) (hrun : s'.isRunning = s.isRunning)
    (hread : (s.conf.merge req).readByProxy = s.conf.readByProxy) : s'.Built env ↔ s.Built env := by
  have hnew : newProxyConfig env (s.conf.merge req) = newProxyConfig env s.conf := by
    rw [← newProxyConfig_readByProxy, hread, newProxyConfig_readByProxy]
  have hfall : setupFallbackDNS env (s.conf.merge req) = setupFallbackDNS env s.conf := by
    rw [h.merge_eq]
    rfl
  unfold Server.Built
  rw [hconf, hproxy, hrun, hnew, hfall]

/-- The handler on an accepted request. -/
theorem handleSetConfig_eq {own : String → Bool} {req req' : JsonDNSConfig} {s' : Server} {restart : Bool}
    (hown : env.ourAddrsSet = .ok own) (hv : req.validate env own s.conf.cacheSize = .ok req')
    (hset : s.setConfig req' = some (s', restart)) :
    ∃ res, s.handleSetConfig env req = some (if restart then (s'.reconfigure env).1 else s', res) := by
  unfold Server.handleSetConfig
  rw [hown]
  dsimp only
  rw [hv]
  dsimp only
  rw [hset]
  cases restart with
  | false => exact ⟨none, rfl⟩
  | true =>
    simp only [bind, Option.bind, if_true]
    split <;> rename_i heq <;> rw [heq] <;> exact ⟨_, rfl⟩

/-- An accepted change of the configuration takes effect if and only if it is effective. -/
theorem takesEffect_iff {own : String → Bool} {req req' : JsonDNSConfig} (hs : s.PassesChecks env)
    (hown : env.ourAddrsSet = .ok own) (hv : req.validate env own s.conf.cacheSize = .ok req') :
    s.TakesEffect env req req' ↔ s.Effective env req := by
  obtain ⟨rfl, hacc⟩ := JsonDNSConfig.validate_ok hv
  obtain ⟨s', hset, hconf, hproxy, hrun, hmode⟩ := setConfig_withCacheEnabled hacc
  obtain ⟨res, hres⟩ := handleSetConfig_eq hown hv hset
  have husable := usable_merge_iff ((newProxyConfig_ok_iff env s.conf).mp hs.1) hacc
  have hpasses : s'.PassesChecks env ↔ (s.conf.merge req).Usable env := by
    unfold Server.PassesChecks
    rw [newProxyConfig_ok_iff, hconf]
    exact ⟨And.left, fun h => ⟨h, hmode hs.2⟩⟩
  have heffect : s.TakesEffect env req req.withCacheEnabled ↔ (s.conf.merge req).Usable env ∧
      ((s.conf.merge req).readByProxy ≠ s.conf.readByProxy →
        Server.shouldRestart s.conf req.withCacheEnabled = true) ∧
      Server.Built env
        (if Server.shouldRestart s.conf req.withCacheEnabled then (s'.reconfigure env).1 else s') := by
    rw [← hpasses, ← hconf]
    constructor
    · rintro ⟨t, restart, ht, hchecks, hread, t', res', ht', hbuilt⟩
      cases hset.symm.trans ht
      cases hres.symm.trans ht'
      exact ⟨hchecks, hread, hbuilt⟩
    · rintro ⟨hchecks, hread, hbuilt⟩
      exact ⟨s', _, hset, hchecks, hread, _, res, hres, hbuilt⟩
  rw [heffect]
  by_cases hlive : s.conf.Live req
  · -- No restart: the proxy stays the one of before.
    rw [(shouldRestart_eq_false_iff s.conf req).mpr hlive]
    simp only [Bool.false_eq_true, if_false, imp_false, not_not]
    have hread := readByProxy_merge_eq_iff hlive hacc
    constructor
    · rintro ⟨hu, heq, hbuilt⟩
      obtain ⟨httl, hrate⟩ := husable.mp hu
      obtain ⟨hm, hd⟩ := hread.mp heq
      exact ⟨httl, hrate, fun h => absurd hlive h, fun _ => hm, fun _ => hd,
        fun _ => (built_of_live hlive hconf hproxy hrun heq).mp hbuilt⟩
    · rintro ⟨httl, hrate, _, hm, hd, hbuilt⟩
      have heq := hread.mpr ⟨hm hlive, hd hlive⟩
      exact ⟨husable.mpr ⟨httl, hrate⟩, heq, (built_of_live hlive hconf hproxy hrun heq).mpr (hbuilt hlive)⟩
  · -- A restart builds the proxy from the merged configuration.
    have hrestart : Server.shouldRestart s.conf req.withCacheEnabled = true := by
      rw [← Bool.not_eq_false]
      exact fun h => hlive ((shouldRestart_eq_false_iff s.conf req).mp h)
    rw [hrestart]
    simp only [if_true, implies_true, true_and, reconfigure_built_iff (hmode hs.2), hconf]
    constructor
    · rintro ⟨hu, _, hstart⟩
      obtain ⟨httl, hrate⟩ := husable.mp hu
      exact ⟨httl, hrate, fun _ => hstart, fun h => absurd h hlive, fun h => absurd h hlive,
        fun h => absurd h hlive⟩
    · rintro ⟨httl, hrate, hstart, _⟩
      have hu := husable.mpr ⟨httl, hrate⟩
      exact ⟨hu, hu, hstart hlive⟩

/-- Parsers that take every string, no files, and proxies that start. -/
def lenientEnv : ConfEnv where
  access := ⟨fun _ => true, fun _ _ => false, fun _ => none, fun _ => some fun _ _ => false⟩
  quote := id
  errParse := id
  errPositive field _ := field
  errNoLessThan field _ _ := field
  readFile _ := .error "no such file or directory"
  splitTrimmed _ := []
  parseUpstreamsConfig ups _ := .ok ⟨ups, [], []⟩
  closeUpstreamConfig _ := .ok ()
  closeUpstream _ := .ok ()
  newUpstreamResolver _ := .ok ()
  closeResolver _ := .ok ()
  validatePrivateConfig _ := .ok ()
  validateRatelimit _ := .ok ()
  newIpsetHandler _ := .ok ()
  ourAddrsSet := .ok fun _ => false
  sysResolvers := []
  newProxy _ := .ok ()
  startProxy _ := .ok ()

/-- A running server with the upper bound 50 of the TTL. -/
def maxTTLServer : Server :=
  let conf : ServerConfig := { servePlainDNS := true, upstreamDNS := ["9.9.9.9"], cacheMaxTTL := 50 }
  (Server.reconfigure lenientEnv
    ⟨conf, .default, .invalid, .invalid, 10, true, none, none, false⟩).1

theorem takesEffect_maxTTL :
    maxTTLServer.TakesEffect lenientEnv { cacheMaxTTL := some 60 } { cacheMaxTTL := some 60 } := by
  have hnot : ¬maxTTLServer.conf.Live { cacheMaxTTL := some 60 } := fun h => by
    have hmax := congrArg JsonDNSConfig.cacheMaxTTL h.fields
    exact nomatch hmax
  have hown : lenientEnv.ourAddrsSet = .ok fun _ => false := rfl
  refine (takesEffect_iff ⟨⟨_, rfl⟩, rfl⟩ hown rfl).mpr ?_
  refine ⟨?_, ⟨none, rfl⟩, fun _ => ⟨_, _, _, rfl, rfl, rfl, fun _ _ => ⟨rfl, rfl⟩⟩, fun h => absurd h hnot,
    fun h => absurd h hnot, fun h => absurd h hnot⟩
  intro _
  decide

/-- A lower bound above the current upper one is accepted and stops the server, and a new upstream mode alone is
accepted and does not reach the proxy. -/
theorem not_takesEffect_accepted :
    (maxTTLServer.PassesChecks lenientEnv ∧ maxTTLServer.Built lenientEnv) ∧
      (JsonDNSConfig.validate lenientEnv (fun _ => false) { cacheMinTTL := some 100 } maxTTLServer.conf.cacheSize =
          .ok { cacheMinTTL := some 100 } ∧
        ¬maxTTLServer.TakesEffect lenientEnv { cacheMinTTL := some 100 } { cacheMinTTL := some 100 }) ∧
      JsonDNSConfig.validate lenientEnv (fun _ => false) { upstreamMode := some .parallel }
          maxTTLServer.conf.cacheSize = .ok { upstreamMode := some .parallel } ∧
        ¬maxTTLServer.TakesEffect lenientEnv { upstreamMode := some .parallel } { upstreamMode := some .parallel } := by
  refine ⟨⟨⟨⟨_, rfl⟩, rfl⟩, rfl, _, _, rfl, rfl, rfl⟩, ⟨rfl, ?_⟩, rfl, ?_⟩
  · rintro ⟨s', restart, hset, ⟨⟨conf, hconf⟩, _⟩, _⟩
    cases hset
    exact nomatch hconf
  · rintro ⟨s', restart, hset, _, hread, _⟩
    cases hset
    have hne : UpstreamMode.parallel ≠ UpstreamMode.loadBalance := by decide
    exact Bool.noConfusion (hread fun h => hne (congrArg ServerConfig.upstreamMode h))

end AdGuardHome.Dnsforward
