import AdGuardHome.Filtering.Result
import AdGuardHome.Lib.GoMap
import Mathlib.Algebra.Group.Int.Defs

/-!
# Safe search

The default safe search: an engine of rewrite rules for the hosts of the selected services, and a cache of results.
`checkHost` gives what the engine says, whatever is in the cache (`checkHost_eq`).
-/

namespace AdGuardHome.Safesearch

open AdGuardHome.Lib AdGuardHome.Net AdGuardHome.Filtering

/-! ## Services and rules -/

inductive Service where
  | bing
  | duckDuckGo
  | ecosia
  | google
  | pixabay
  | yandex
  | youTube
  deriving DecidableEq, Repr

/-- The keys of `safeSearchRules`. -/
def allServices : List Service := [.bing, .duckDuckGo, .ecosia, .google, .pixabay, .yandex, .youTube]

def isServiceProtected (s : SafeSearchConfig) : Service → Bool
  | .bing => s.bing
  | .duckDuckGo => s.duckDuckGo
  | .ecosia => s.ecosia
  | .google => s.google
  | .pixabay => s.pixabay
  | .yandex => s.yandex
  | .youTube => s.youTube

/-- The services that a configuration selects. -/
def selected (conf : SafeSearchConfig) : List Service := allServices.filter (isServiceProtected conf)

theorem mem_selected {conf : SafeSearchConfig} {service : Service} :
    service ∈ selected conf ↔ isServiceProtected conf service = true := by
  have hall : service ∈ allServices := by
    cases service <;> decide
  simp [selected, hall]

/-- `rules.DNSRewrite` -/
structure DNSRewrite where
  rrType : UInt16
  value : RRValue
  newCNAME : String
  deriving DecidableEq

def typeA : UInt16 := 1
def typeAAAA : UInt16 := 28
def typeHTTPS : UInt16 := 65

/-- The texts of the rules and the engines of `urlfilter`.  An engine is given by the services whose rules it has. -/
structure RuleEngine where
  /-- The hosts in the rules of a service. -/
  hosts : Service → List String
  /-- `strings.ToLower` -/
  toLower : String → String
  /-- The error of `filterlist.NewRuleStorage`, if there is one. -/
  newRuleStorage : List Service → Option String
  /-- The first rewrite that matches a request. -/
  dnsRewrite : List Service → String → UInt16 → Option DNSRewrite

/-- An engine rewrites exactly the hosts in its rules.  Every service has a host, no host is of two services, and a
rewrite to an address has one. -/
structure RuleEngine.Exact (env : RuleEngine) : Prop where
  listed : ∀ service, ∃ host, env.toLower host ∈ env.hosts service
  disjoint : ∀ service service' host, host ∈ env.hosts service → host ∈ env.hosts service' → service = service'
  rewrites : ∀ services host qtype, qtype = typeA ∨ qtype = typeAAAA →
    ((env.dnsRewrite services host qtype).isSome = true ↔ ∃ service ∈ services, host ∈ env.hosts service)
  address : ∀ services host qtype rewrite, qtype = typeA ∨ qtype = typeAAAA →
    env.dnsRewrite services host qtype = some rewrite → rewrite.rrType = qtype →
    ∃ ip, rewrite.value = .ip ip ∧ ip ≠ .invalid

/-! ## The filter -/

structure Default where
  /-- The services whose rules the engine has, `none` for a nil engine. -/
  engine : Option (List Service)
  /-- The expiry and the result by the type and the host. -/
  cache : GoMap String (UInt32 × Result)
  /-- In nanoseconds. -/
  cacheTTL : ℤ

namespace Default

variable (env : RuleEngine)

def resetEngine (ss : Default) (conf : SafeSearchConfig) : Except String Default :=
  if !conf.enabled then .ok ss
  else
    let services := selected conf
    match env.newRuleStorage services with
    | some err => .error ("creating rule storage: " ++ err)
    | none => .ok { ss with engine := some services }

def newDefault (conf : SafeSearchConfig) (cacheTTL : ℤ) : Except String Default :=
  resetEngine env ⟨none, GoMap.empty, cacheTTL⟩ conf

/-- The rewrite for a host, `none` for nil. -/
def searchHost (ss : Default) (host : String) (qtype : UInt16) : Option DNSRewrite :=
  match ss.engine with
  | none => none
  | some services => env.dnsRewrite services (env.toLower host) qtype

def apiIDSafeSearch : ℤ := -5

def newResult (rewrite : DNSRewrite) (qtype : UInt16) : Except String Result :=
  let res : Result := { reason := .filteredSafeSearch, isFiltered := true }
  if rewrite.rrType = qtype then
    match rewrite.value with
    | .ip ip =>
      if ip = .invalid then .error "expected ip rewrite value"
      else .ok { res with rules := [{ text := "", ip := ip, filterListID := apiIDSafeSearch }] }
    | _ => .error "expected ip rewrite value"
  else .ok { res with canonName := rewrite.newCNAME }

/-- The text of a type for the key of the cache. -/
def typeString (qtype : UInt16) : String :=
  if qtype = typeA then "A" else if qtype = typeAAAA then "AAAA" else "HTTPS"

def cacheKey (host : String) (qtype : UInt16) : String := typeString qtype ++ " " ++ host

/-- The seconds since the epoch in 32 bits. -/
def unix32 (t : ℤ) : UInt32 := UInt32.ofInt (t.fdiv (10 ^ 9))

def setCacheResult (ss : Default) (host : String) (qtype : UInt16) (res : Result) (now : ℤ) : Default :=
  { ss with cache := ss.cache.set (cacheKey host qtype) (unix32 (now + ss.cacheTTL), res) }

/-- The result in the cache.  For one that has expired, the entry with the host as its key is deleted. -/
def getCachedResult (ss : Default) (host : String) (qtype : UInt16) (now : ℤ) : Default × Option Result :=
  match ss.cache.get (cacheKey host qtype) with
  | none => (ss, none)
  | some (exp, res) =>
    if exp ≤ unix32 now then ({ ss with cache := ss.cache.del host }, none) else (ss, some res)

/-- What a lookup finds in the engine. -/
def search (ss : Default) (host : String) (qtype : UInt16) : Except String Result :=
  match ss.searchHost env host qtype with
  | none => .ok {}
  | some rewrite => newResult rewrite qtype

/-- `Default.CheckHost`, with the time of the read of the cache and of the write to it. -/
def checkHost (ss : Default) (host : String) (qtype : UInt16) (now stored : ℤ) : Default × Except String Result :=
  if qtype ≠ typeA ∧ qtype ≠ typeAAAA ∧ qtype ≠ typeHTTPS then (ss, .ok {})
  else
    match ss.getCachedResult host qtype now with
    | (ss, some res) => (ss, .ok res)
    | (ss, none) =>
      match ss.searchHost env host qtype with
      | none => (ss, .ok {})
      | some rewrite =>
        match newResult rewrite qtype with
        | .error err => (ss, .error err)
        | .ok res => (ss.setCacheResult host qtype res stored, .ok res)

def update (ss : Default) (conf : SafeSearchConfig) : Except String Default :=
  match ss.resetEngine env conf with
  | .error err => .error err
  | .ok ss => .ok { ss with cache := GoMap.empty }

/-! ## The cache -/

/-- Every entry of the cache is what the engine says. -/
def Cached (ss : Default) : Prop :=
  ss.cache.All fun key entry => ∀ host qtype, (qtype = typeA ∨ qtype = typeAAAA ∨ qtype = typeHTTPS) →
    key = cacheKey host qtype → ss.search env host qtype = .ok entry.2

variable {env} {ss : Default}

/-- The text of a type ends at the first space of a key. -/
theorem cacheKey_inj {host host' : String} {qtype qtype' : UInt16}
    (hq : qtype = typeA ∨ qtype = typeAAAA ∨ qtype = typeHTTPS)
    (hq' : qtype' = typeA ∨ qtype' = typeAAAA ∨ qtype' = typeHTTPS)
    (h : cacheKey host qtype = cacheKey host' qtype') : host = host' ∧ qtype = qtype' := by
  have hlist := congrArg String.toList h
  simp only [cacheKey, String.toList_append] at hlist
  rcases hq with rfl | rfl | rfl <;> rcases hq' with rfl | rfl | rfl <;>
    simp [typeString, typeA, typeAAAA, typeHTTPS] at hlist ⊢ <;> exact String.ext hlist

theorem cached_empty (engine : Option (List Service)) (cacheTTL : ℤ) : Cached env ⟨engine, GoMap.empty, cacheTTL⟩ :=
  GoMap.all_empty

theorem cached_update {conf : SafeSearchConfig} {ss' : Default} (h : ss.update env conf = .ok ss') : ss'.Cached env := by
  unfold Default.update at h
  split at h
  · cases h
  · cases h
    exact GoMap.all_empty

theorem cached_newDefault {conf : SafeSearchConfig} {cacheTTL : ℤ} (h : newDefault env conf cacheTTL = .ok ss) :
    ss.Cached env := by
  unfold newDefault resetEngine at h
  split at h
  · cases h
    exact cached_empty none cacheTTL
  · dsimp only at h
    split at h
    · cases h
    · cases h
      exact cached_empty _ cacheTTL

/-- Deleting entries keeps the rest as the engine says. -/
theorem Cached.evict (h : ss.Cached env) (keys : List String) :
    Cached env { ss with cache := ss.cache.delAll keys } := GoMap.All.delAll h keys

theorem Cached.getCachedResult (h : ss.Cached env) (host : String) (qtype : UInt16) (now : ℤ) :
    (ss.getCachedResult host qtype now).1.Cached env ∧ (ss.getCachedResult host qtype now).1.engine = ss.engine ∧
      ∀ res, (qtype = typeA ∨ qtype = typeAAAA ∨ qtype = typeHTTPS) →
        (ss.getCachedResult host qtype now).2 = some res → ss.search env host qtype = .ok res := by
  unfold Default.getCachedResult
  split
  · exact ⟨h, rfl, nofun⟩
  next exp res hget =>
    split
    · exact ⟨GoMap.All.del h host, rfl, nofun⟩
    · refine ⟨h, rfl, ?_⟩
      rintro _ hq ⟨⟩
      exact h _ _ hget host qtype hq rfl

theorem search_eq_of_engine {ss' : Default} (h : ss'.engine = ss.engine) (host : String) (qtype : UInt16) :
    ss'.search env host qtype = ss.search env host qtype := by
  unfold search searchHost
  rw [h]

/-- A lookup gives what the engine says and keeps the cache so. -/
theorem Cached.checkHost (h : ss.Cached env) (host : String) {qtype : UInt16}
    (hq : qtype = typeA ∨ qtype = typeAAAA ∨ qtype = typeHTTPS) (now stored : ℤ) :
    (ss.checkHost env host qtype now stored).2 = ss.search env host qtype ∧
      (ss.checkHost env host qtype now stored).1.Cached env ∧
      (ss.checkHost env host qtype now stored).1.engine = ss.engine := by
  obtain ⟨hcached, hengine, hfound⟩ := h.getCachedResult host qtype now
  have hsearch := @search_eq_of_engine env _ _ hengine host qtype
  unfold Default.checkHost
  rw [if_neg (by rintro ⟨h₁, h₂, h₃⟩; rcases hq with hq | hq | hq <;> contradiction)]
  split
  next ss' res heq =>
    rw [heq] at hcached hengine hfound
    exact ⟨(hfound res hq rfl).symm, hcached, hengine⟩
  next ss' heq =>
    rw [heq] at hcached hengine hsearch
    rw [← hsearch]
    unfold search
    split
    next hnone =>
      rw [hnone]
      exact ⟨rfl, hcached, hengine⟩
    next rewrite hrewrite =>
      rw [hrewrite]
      dsimp only
      split
      next err herr =>
        rw [herr]
        exact ⟨rfl, hcached, hengine⟩
      next res hres =>
        refine ⟨hres.symm, GoMap.All.set hcached ?_, hengine⟩
        intro host' qtype' hq' hkey
        obtain ⟨rfl, rfl⟩ := cacheKey_inj hq hq' hkey
        change ss'.search env host qtype = .ok res
        rw [search, hrewrite]
        exact hres

/-! ## What the engine says -/

/-- The services whose hosts are rewritten. -/
def services (ss : Default) : List Service := ss.engine.getD []

theorem newResult_reason {rewrite : DNSRewrite} {qtype : UInt16} {res : Result}
    (h : newResult rewrite qtype = .ok res) :
    res.reason = .filteredSafeSearch := by
  unfold newResult at h
  dsimp only at h
  split at h
  · split at h
    · split at h
      · cases h
      · cases h
        rfl
    · cases h
  · cases h
    rfl

/-- A lookup rewrites exactly the hosts of the services of the engine. -/
theorem search_rewrites_iff (hexact : env.Exact) {host : String} {qtype : UInt16}
    (hq : qtype = typeA ∨ qtype = typeAAAA) :
    (∃ res, ss.search env host qtype = .ok res ∧ res.reason = .filteredSafeSearch) ↔
      ∃ service ∈ ss.services, env.toLower host ∈ env.hosts service := by
  unfold search searchHost services
  cases ss.engine with
  | none => simp
  | some services =>
    rw [Option.getD_some, ← hexact.rewrites services (env.toLower host) qtype hq]
    dsimp only
    cases hrewrite : env.dnsRewrite services (env.toLower host) qtype with
    | none => simp
    | some rewrite =>
      refine iff_of_true ?_ rfl
      cases hres : newResult rewrite qtype with
      | ok res => exact ⟨res, by rw [← hres], newResult_reason hres⟩
      | error err =>
        unfold newResult at hres
        dsimp only at hres
        split at hres
        next htype =>
          obtain ⟨ip, hvalue, hip⟩ := hexact.address _ _ _ _ hq hrewrite htype
          simp [hvalue, hip] at hres
        · cases hres

end Default

end AdGuardHome.Safesearch
