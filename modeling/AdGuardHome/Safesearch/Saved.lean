import AdGuardHome.Lib.Run
import AdGuardHome.Safesearch.Default

/-!
# The saved settings of safe search

The requests that change the settings.  Only a request with all settings that enables safe search rebuilds the engine,
so a request that only enables it may find an engine for other services than those that are saved.
-/

namespace AdGuardHome.Safesearch

open AdGuardHome.Lib AdGuardHome.Filtering

/-- The saved configuration and the default safe search of a `DNSFilter`. -/
structure DNSFilter where
  safeSearchConf : SafeSearchConfig
  safeSearch : Default

/-- The requests, the lookups between them and the evictions of entries from the cache. -/
inductive Op where
  | enable
  | disable
  | settings (conf : SafeSearchConfig)
  | lookup (host : String) (qtype : UInt16) (now stored : ℤ)
  | evict (keys : List String)

namespace DNSFilter

variable (env : RuleEngine)

def handleSafeSearchEnable (d : DNSFilter) : DNSFilter :=
  { d with safeSearchConf := { d.safeSearchConf with enabled := true } }

def handleSafeSearchDisable (d : DNSFilter) : DNSFilter :=
  { d with safeSearchConf := { d.safeSearchConf with enabled := false } }

/-- The new configuration is saved if the update has succeeded. -/
def handleSafeSearchSettings (d : DNSFilter) (conf : SafeSearchConfig) : DNSFilter × Except String Unit :=
  match d.safeSearch.update env conf with
  | .error err => (d, .error ("updating: " ++ err))
  | .ok ss => ({ safeSearchConf := conf, safeSearch := ss }, .ok ())

/-- The filter at the start. -/
def new (conf : SafeSearchConfig) (cacheTTL : ℤ) : Except String DNSFilter :=
  (Default.newDefault env conf cacheTTL).map fun ss => { safeSearchConf := conf, safeSearch := ss }

def step (d : DNSFilter) : Op → DNSFilter
  | .enable => d.handleSafeSearchEnable
  | .disable => d.handleSafeSearchDisable
  | .settings conf => (d.handleSafeSearchSettings env conf).1
  | .lookup host qtype now stored => { d with safeSearch := (d.safeSearch.checkHost env host qtype now stored).1 }
  | .evict keys => { d with safeSearch := { d.safeSearch with cache := d.safeSearch.cache.delAll keys } }

/-- A lookup of an address rewrites the host at any time. -/
def Rewrites (d : DNSFilter) (host : String) (qtype : UInt16) : Prop :=
  ∀ now stored, ∃ res, (d.safeSearch.checkHost env host qtype now stored).2 = .ok res ∧
    res.reason = .filteredSafeSearch

/-- No lookup of an address rewrites the host. -/
def Passes (d : DNSFilter) (host : String) (qtype : UInt16) : Prop :=
  ∀ now stored res, (d.safeSearch.checkHost env host qtype now stored).2 = .ok res → res.reason ≠ .filteredSafeSearch

/-- If safe search is enabled, the hosts of the services that are selected are rewritten and those of the others are
not. -/
def FollowsSettings (d : DNSFilter) : Prop :=
  d.safeSearchConf.enabled = true → ∀ service host qtype, env.toLower host ∈ env.hosts service →
    (qtype = typeA ∨ qtype = typeAAAA) →
    if isServiceProtected d.safeSearchConf service then d.Rewrites env host qtype else d.Passes env host qtype

/-- Safe search is enabled while it is, or with an engine for the services that are selected. -/
def EnablesBuilt (d : DNSFilter) : Op → Prop
  | .enable => d.safeSearchConf.enabled = true ∨
    ∀ service, service ∈ d.safeSearch.services ↔ isServiceProtected d.safeSearchConf service = true
  | _ => True

/-- The engine of an enabled safe search is for the services that are selected, and the cache is what it says. -/
structure Built (d : DNSFilter) : Prop where
  services : d.safeSearchConf.enabled = true →
    ∀ service, service ∈ d.safeSearch.services ↔ isServiceProtected d.safeSearchConf service = true
  cached : d.safeSearch.Cached env

variable {env} {d : DNSFilter}

theorem rewrites_iff (hexact : env.Exact) (hcached : d.safeSearch.Cached env) {host : String} {qtype : UInt16}
    (hq : qtype = typeA ∨ qtype = typeAAAA) :
    d.Rewrites env host qtype ↔ ∃ service ∈ d.safeSearch.services, env.toLower host ∈ env.hosts service := by
  have hres := fun now stored => (hcached.checkHost host (hq.imp_right .inl) now stored).1
  rw [← Default.search_rewrites_iff hexact hq]
  unfold Rewrites
  simp only [hres]
  exact ⟨fun h => h 0 0, fun h _ _ => h⟩

theorem passes_iff (hexact : env.Exact) (hcached : d.safeSearch.Cached env) {host : String} {qtype : UInt16}
    (hq : qtype = typeA ∨ qtype = typeAAAA) :
    d.Passes env host qtype ↔ ¬ ∃ service ∈ d.safeSearch.services, env.toLower host ∈ env.hosts service := by
  have hres := fun now stored => (hcached.checkHost host (hq.imp_right .inl) now stored).1
  rw [← Default.search_rewrites_iff hexact hq]
  unfold Passes
  simp only [hres]
  constructor
  · rintro h ⟨res, hres, hreason⟩
    exact h 0 0 res hres hreason
  · intro h _ _ res hres hreason
    exact h ⟨res, hres, hreason⟩

/-- A host of a service is a host of the engine if and only if the engine is for that service. -/
theorem mem_services_iff (hexact : env.Exact) {service : Service} {host : String}
    (hhost : env.toLower host ∈ env.hosts service) :
    (∃ service' ∈ d.safeSearch.services, env.toLower host ∈ env.hosts service') ↔ service ∈ d.safeSearch.services := by
  refine ⟨?_, fun h => ⟨service, h, hhost⟩⟩
  rintro ⟨service', h, hhost'⟩
  rwa [hexact.disjoint service service' _ hhost hhost']

theorem Built.followsSettings (hexact : env.Exact) (h : d.Built env) : d.FollowsSettings env := by
  intro henabled service host qtype hhost hq
  have hmem := (mem_services_iff (d := d) hexact hhost).trans (h.services henabled service)
  split
  next hprotected => exact (rewrites_iff hexact h.cached hq).2 (hmem.2 hprotected)
  next hprotected => exact (passes_iff hexact h.cached hq).2 (mt hmem.1 hprotected)

theorem FollowsSettings.services (hexact : env.Exact) (hcached : d.safeSearch.Cached env)
    (h : d.FollowsSettings env) (henabled : d.safeSearchConf.enabled = true) (service : Service) :
    service ∈ d.safeSearch.services ↔ isServiceProtected d.safeSearchConf service = true := by
  obtain ⟨host, hhost⟩ := hexact.listed service
  have hfollows := h henabled service host typeA hhost (.inl rfl)
  rw [← mem_services_iff hexact hhost]
  split at hfollows
  next hprotected => exact iff_of_true ((rewrites_iff hexact hcached (.inl rfl)).1 hfollows) hprotected
  next hprotected => exact iff_of_false ((passes_iff hexact hcached (.inl rfl)).1 hfollows) hprotected

/-! ## Requests and lookups -/

theorem update_ok {ss ss' : Default} {conf : SafeSearchConfig} (h : ss.update env conf = .ok ss') :
    ss'.Cached env ∧ (conf.enabled = true → ss'.services = selected conf) := by
  unfold Default.update Default.resetEngine at h
  split at h
  · cases h
  next ss₁ hreset =>
    cases h
    refine ⟨Default.cached_empty _ _, fun henabled => ?_⟩
    rw [if_neg (by simp [henabled])] at hreset
    dsimp only at hreset
    split at hreset
    · cases hreset
    · cases hreset
      rfl

theorem Built.settings (h : d.Built env) (conf : SafeSearchConfig) :
    (d.handleSafeSearchSettings env conf).1.Built env := by
  unfold handleSafeSearchSettings
  split
  · exact h
  next ss hupdate =>
    obtain ⟨hcached, hservices⟩ := update_ok hupdate
    refine ⟨fun henabled service => ?_, hcached⟩
    rw [hservices henabled]
    exact mem_selected

theorem Built.lookup (h : d.Built env) (host : String) (qtype : UInt16) (now stored : ℤ) :
    Built env { d with safeSearch := (d.safeSearch.checkHost env host qtype now stored).1 } := by
  by_cases hq : qtype = typeA ∨ qtype = typeAAAA ∨ qtype = typeHTTPS
  · obtain ⟨-, hcached, hengine⟩ := h.cached.checkHost host hq now stored
    refine ⟨fun henabled service => ?_, hcached⟩
    unfold Default.services
    rw [hengine]
    exact h.services henabled service
  · have hsame : d.safeSearch.checkHost env host qtype now stored = (d.safeSearch, .ok {}) := by
      unfold Default.checkHost
      rw [if_pos (by tauto)]
    rw [hsame]
    exact h

theorem Built.step {o : Op} (h : d.Built env) (ho : d.EnablesBuilt o) : (d.step env o).Built env := by
  cases o with
  | enable =>
    refine ⟨fun _ => ?_, h.cached⟩
    rcases ho with henabled | hservices
    · exact h.services henabled
    · exact hservices
  | disable => exact ⟨nofun, h.cached⟩
  | settings conf => exact h.settings conf
  | lookup host qtype now stored => exact h.lookup host qtype now stored
  | evict keys => exact ⟨h.services, h.cached.evict keys⟩

/-- An engine for other services shows as soon as safe search is enabled. -/
theorem Built.not_followsSettings {o : Op} (hexact : env.Exact) (h : d.Built env) (ho : ¬ d.EnablesBuilt o) :
    ¬ (d.step env o).FollowsSettings env := by
  cases o with
  | enable =>
    intro hfollows
    exact ho (.inr (FollowsSettings.services (d := d.step env .enable) hexact h.cached hfollows rfl))
  | disable => exact absurd trivial ho
  | settings conf => exact absurd trivial ho
  | lookup host qtype now stored => exact absurd trivial ho
  | evict keys => exact absurd trivial ho

theorem new_built {conf : SafeSearchConfig} {cacheTTL : ℤ} (h : new env conf cacheTTL = .ok d) : d.Built env := by
  unfold new at h
  cases hss : Default.newDefault env conf cacheTTL with
  | error err =>
    rw [hss] at h
    cases h
  | ok ss =>
    rw [hss] at h
    cases h
    unfold Default.newDefault Default.resetEngine at hss
    split at hss
    next hdisabled =>
      cases hss
      refine ⟨fun henabled => ?_, Default.cached_empty _ _⟩
      have henabled : conf.enabled = true := henabled
      simp [henabled] at hdisabled
    · dsimp only at hss
      split at hss
      · cases hss
      · cases hss
        exact ⟨fun _ _ => mem_selected, Default.cached_empty _ _⟩

/-- **Safe search follows its saved settings** along a run if and only if each request that only enables it finds an
engine for the services that are selected. -/
theorem followsSettings_along_iff (hexact : env.Exact) {conf : SafeSearchConfig} {cacheTTL : ℤ}
    (hnew : new env conf cacheTTL = .ok d) (ops : List Op) :
    Along (step env) (FollowsSettings env) d ops ↔ Meets (step env) EnablesBuilt d ops :=
  along_iff_meets (fun _ h => h.followsSettings hexact) (fun _ _ h ho => h.step ho)
    (fun _ _ h ho => h.not_followsSettings hexact ho) (new_built hnew) ops

/-- Rules with one host for each service. -/
def oneHost : Service → String
  | .bing => "www.bing.com"
  | .duckDuckGo => "duckduckgo.com"
  | .ecosia => "www.ecosia.org"
  | .google => "www.google.com"
  | .pixabay => "pixabay.com"
  | .yandex => "ya.ru"
  | .youTube => "www.youtube.com"

/-- The rewrites of these rules. -/
def oneRewrite : Service → DNSRewrite
  | .bing => ⟨0, .nil, "strict.bing.com"⟩
  | .duckDuckGo => ⟨0, .nil, "safe.duckduckgo.com"⟩
  | .ecosia => ⟨0, .nil, "strict-safe-search.ecosia.org"⟩
  | .google => ⟨0, .nil, "forcesafesearch.google.com"⟩
  | .pixabay => ⟨0, .nil, "safesearch.pixabay.com"⟩
  | .yandex => ⟨typeA, .ip (.v4 0xd5b4c138), ""⟩
  | .youTube => ⟨0, .nil, "restrictmoderate.youtube.com"⟩

def oneHostEngine : RuleEngine where
  hosts := fun service => [oneHost service]
  toLower := id
  newRuleStorage := fun _ => none
  dnsRewrite := fun services host _ => (services.find? fun service => host = oneHost service).map oneRewrite

theorem oneHostEngine_exact : oneHostEngine.Exact where
  listed := fun service => ⟨oneHost service, List.mem_singleton_self _⟩
  disjoint := by
    intro service service' host h h'
    have heq := (List.mem_singleton.1 h).symm.trans (List.mem_singleton.1 h')
    revert heq
    cases service <;> cases service' <;> decide
  rewrites := by
    intro services host qtype _
    simp [oneHostEngine]
  address := by
    intro services host qtype rewrite hq h htype
    obtain ⟨service, -, rfl⟩ := Option.map_eq_some_iff.1 h
    subst htype
    cases service with
    | yandex => exact ⟨.v4 0xd5b4c138, rfl, nofun⟩
    | _ => exact absurd hq (by decide)

def onlyBing (enabled : Bool) : SafeSearchConfig := { enabled := enabled, bing := true }

/-- Safe search is switched off and on again. -/
theorem followsSettings_along_bing : ∃ d, new oneHostEngine (onlyBing true) 0 = .ok d ∧
    Along (step oneHostEngine) (FollowsSettings oneHostEngine) d [.disable, .lookup "www.bing.com" typeA 0 0, .enable] := by
  refine ⟨_, rfl, (@followsSettings_along_iff _ _ oneHostEngine_exact (onlyBing true) 0 rfl _).2 ?_⟩
  refine ⟨trivial, trivial, .inr fun service => ?_, trivial⟩
  cases service <;> decide

/-- A safe search that is disabled at the start has no engine when it is enabled. -/
theorem not_followsSettings_along : ¬ ∀ (env : RuleEngine), env.Exact → ∀ conf cacheTTL d,
    new env conf cacheTTL = .ok d → ∀ ops, Along (step env) (FollowsSettings env) d ops := by
  intro h
  have halong := h oneHostEngine oneHostEngine_exact (onlyBing false) 0 _ rfl [.enable]
  have hbuilt : Built oneHostEngine _ := @new_built _ _ (onlyBing false) 0 rfl
  refine hbuilt.not_followsSettings (o := .enable) oneHostEngine_exact ?_ halong.2
  rintro (henabled | hservices)
  · cases henabled
  · exact absurd ((hservices .bing).2 rfl) (by decide)

end DNSFilter

end AdGuardHome.Safesearch
