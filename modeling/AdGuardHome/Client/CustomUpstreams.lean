import AdGuardHome.Client.SameClient
import AdGuardHome.Lib.Ledger

/-!
# Custom upstream configurations are current

The manager keeps one entry for each stored client (`Synced`): the entry has the settings of the client, and its
configuration, where it is not marked as changed and its time is that of the last common update, is the one that the
client's settings and the common configuration make.  Every configuration that has been built is either closed, once,
or is that of one entry.
-/

namespace AdGuardHome.Client

open AdGuardHome.Net AdGuardHome.Lib AdGuardHome.Aghnet

/-- The configuration that the settings of a client and the common configuration make. -/
def wanted (c : Persistent) (conf : CommonUpstreamConfig) : Option ProxyConf :=
  if filterOutComments c.upstreams = [] then none
  else some {
    upstreams := filterOutComments c.upstreams
    options := conf
    clientName := c.name
    cacheEnabled := c.upstreamsCacheEnabled
    cacheSize := c.upstreamsCacheSize.toNat
    ednsClientSubnetEnabled := conf.ednsClientSubnetEnabled
    uid := c.uid }

namespace UpstreamManager

/-- The configuration that the entry of a client has. -/
def held (m : UpstreamManager) (u : UID) : Option ℕ := (m.uidToCustomConf.get u).bind (·.proxyConf)

/-- The entry has the settings of the client. -/
structure Settings (cliConf : CustomUpstreamConfig) (c : Persistent) : Prop where
  upstreams : cliConf.upstreams = c.upstreams
  cacheSize : cliConf.upstreamsCacheSize = c.upstreamsCacheSize
  cacheEnabled : cliConf.upstreamsCacheEnabled = c.upstreamsCacheEnabled

/-- The manager is in step with the stored clients and the common configuration. -/
structure Synced (clock : ℕ → ℕ) (parseUpstreams : List String → Option String) (table : UID → Option Persistent)
    (conf : Option CommonUpstreamConfig) (m : UpstreamManager) : Prop where
  commonConf : m.commonConf = conf
  keys : ∀ u, (m.uidToCustomConf.get u).isSome = (table u).isSome
  uid : ∀ {u c}, table u = some c → c.uid = u
  parses : ∀ {u c}, table u = some c → parseUpstreams c.upstreams = none
  settings : ∀ {u cliConf c}, m.uidToCustomConf.get u = some cliConf → table u = some c → Settings cliConf c
  /-- The time of the last update of the common configuration. -/
  confUpdate : conf.isSome → ∃ k < m.readings, m.confUpdate = clock k
  /-- The time of the common configuration that an unchanged entry has been built with. -/
  built : ∀ {u cliConf}, m.uidToCustomConf.get u = some cliConf → cliConf.isChanged = false →
    ∃ k < m.readings, cliConf.commonConfUpdate = clock k
  current : ∀ {u cliConf c}, m.uidToCustomConf.get u = some cliConf → table u = some c →
    m.isConfigChanged cliConf = false →
      ∃ conf', conf = some conf' ∧ cliConf.proxyConf.bind (m.built[·]?) = wanted c conf'
  balanced : Balanced m.held m.closed m.built.length
  /-- A configuration is that of the entry of the client that it has been built for. -/
  owner : ∀ {u i}, m.held u = some i → (m.built[i]?).map (·.uid) = some u

variable {clock : ℕ → ℕ} {parseUpstreams : List String → Option String} {table table' : UID → Option Persistent}
  {conf : Option CommonUpstreamConfig} {m : UpstreamManager}

theorem new_synced : Synced clock parseUpstreams (fun _ => none) none new where
  commonConf := rfl
  keys := by simp [new]
  uid := by simp
  parses := by simp
  settings := by simp
  confUpdate := by simp
  built := by simp [new]
  current := by simp
  balanced := balanced_empty.congr fun u => by simp [held, new]
  owner := by simp [held, new]

/-- An update of the common configuration outdates every entry, as its time is new. -/
theorem Synced.updateCommonUpstreamConfig (hclock : Function.Injective clock)
    (h : Synced clock parseUpstreams table conf m) (conf' : CommonUpstreamConfig) :
    Synced clock parseUpstreams table (some conf') (m.updateCommonUpstreamConfig clock conf') where
  commonConf := rfl
  keys := h.keys
  uid := h.uid
  parses := h.parses
  settings := h.settings
  confUpdate := fun _ => ⟨m.readings, Nat.lt_succ_self _, rfl⟩
  built := by
    intro u cliConf hget hchanged
    obtain ⟨k, hk, htime⟩ := h.built hget hchanged
    exact ⟨k, Nat.lt_succ_of_lt hk, htime⟩
  current := by
    intro u cliConf c hget _ hcurrent
    simp only [isConfigChanged, UpstreamManager.updateCommonUpstreamConfig, Bool.or_eq_false_iff, bne_eq_false_iff_eq]
      at hcurrent
    obtain ⟨k, hk, htime⟩ := h.built hget hcurrent.2
    have heq : m.readings = k := hclock (hcurrent.1.trans htime)
    omega
  balanced := h.balanced
  owner := h.owner

/-- The entry of the client has its settings, is marked as changed, and has the configuration it had. -/
theorem get_updateCustomUpstreamConfig (m : UpstreamManager) (c : Persistent) (u : UID) :
    (m.updateCustomUpstreamConfig c).uidToCustomConf.get u =
      if u = c.uid then some { (m.uidToCustomConf.get c.uid).getD ⟨none, m.confUpdate, [], 0, false, false⟩ with
        upstreams := c.upstreams
        upstreamsCacheSize := c.upstreamsCacheSize
        upstreamsCacheEnabled := c.upstreamsCacheEnabled
        isChanged := true } else m.uidToCustomConf.get u :=
  GoMap.get_set ..

theorem held_updateCustomUpstreamConfig (m : UpstreamManager) (c : Persistent) (u : UID) :
    (m.updateCustomUpstreamConfig c).held u = m.held u := by
  rw [held, get_updateCustomUpstreamConfig, held]
  split
  · rename_i hu
    rw [hu]
    cases m.uidToCustomConf.get c.uid <;> rfl
  · rfl

/-- The entry of a client that is stored or replaced is marked as changed and keeps its configuration. -/
theorem Synced.updateCustomUpstreamConfig (h : Synced clock parseUpstreams table conf m) {c : Persistent}
    {tags : List String} (hparse : parseUpstreams c.upstreams = none)
    (htable : ∀ u, table' u = if u = c.uid then some { c with tags := tags } else table u) :
    Synced clock parseUpstreams table' conf (m.updateCustomUpstreamConfig c) where
  commonConf := h.commonConf
  keys := by
    intro u
    rw [get_updateCustomUpstreamConfig, htable]
    split
    · rfl
    · exact h.keys u
  uid := by
    intro u d hd
    rw [htable] at hd
    split at hd
    · rename_i hu
      cases hd
      exact hu.symm
    · exact h.uid hd
  parses := by
    intro u d hd
    rw [htable] at hd
    split at hd
    · cases hd
      exact hparse
    · exact h.parses hd
  settings := by
    intro u cliConf d hcc hd
    rw [htable] at hd
    rw [get_updateCustomUpstreamConfig] at hcc
    split at hd
    · rename_i hu
      rw [if_pos hu] at hcc
      cases hd
      cases hcc
      exact ⟨rfl, rfl, rfl⟩
    · rename_i hu
      rw [if_neg hu] at hcc
      exact h.settings hcc hd
  confUpdate := h.confUpdate
  built := by
    intro u cliConf hcc hchanged
    rw [get_updateCustomUpstreamConfig] at hcc
    split at hcc
    · cases hcc
      cases hchanged
    · exact h.built hcc hchanged
  current := by
    intro u cliConf d hcc hd hcurrent
    rw [get_updateCustomUpstreamConfig] at hcc
    split at hcc
    · cases hcc
      simp [isConfigChanged] at hcurrent
    · rename_i hu
      rw [htable, if_neg hu] at hd
      exact h.current hcc hd hcurrent
  balanced := h.balanced.congr (held_updateCustomUpstreamConfig m c)
  owner := by
    intro u i hi
    rw [held_updateCustomUpstreamConfig] at hi
    exact h.owner hi

section Close

variable (p : Option ℕ)

@[simp] theorem close_uidToCustomConf : (m.close p).uidToCustomConf = m.uidToCustomConf := by cases p <;> rfl

@[simp] theorem close_commonConf : (m.close p).commonConf = m.commonConf := by cases p <;> rfl

@[simp] theorem close_confUpdate : (m.close p).confUpdate = m.confUpdate := by cases p <;> rfl

@[simp] theorem close_readings : (m.close p).readings = m.readings := by cases p <;> rfl

@[simp] theorem close_built : (m.close p).built = m.built := by cases p <;> rfl

@[simp] theorem close_closed : (m.close p).closed = p.toList ++ m.closed := by cases p <;> rfl

end Close

/-- Without an entry there is no client to remove. -/
theorem Synced.table_eq (h : Synced clock parseUpstreams table conf m) {u : UID}
    (htable : ∀ v, table' v = if v = u then none else table v) (hnone : m.uidToCustomConf.get u = none) :
    table' = table := by
  have hkey : table u = none := by simpa [hnone] using h.keys u
  funext v
  rw [htable]
  split
  · rename_i hv
    rw [hv, hkey]
  · rfl

theorem remove_eq {u : UID} {cliConf : CustomUpstreamConfig} (hsome : m.uidToCustomConf.get u = some cliConf) :
    m.remove u = { m with uidToCustomConf := m.uidToCustomConf.del u }.close (m.held u) := by
  simp [UpstreamManager.remove, held, hsome]

/-- The entry of a client that is removed is given up, and the configuration that it has is closed. -/
theorem Synced.closed_del (h : Synced clock parseUpstreams table conf m) {u : UID}
    (htable : ∀ v, table' v = if v = u then none else table v) :
    Synced clock parseUpstreams table' conf ({ m with uidToCustomConf := m.uidToCustomConf.del u }.close (m.held u)) := by
  have hold : ∀ {v d}, table' v = some d → table v = some d := by
    intro v d hd
    rw [htable] at hd
    split at hd
    · cases hd
    · exact hd
  have hget : ∀ {v d}, ({ m with uidToCustomConf := m.uidToCustomConf.del u }.close (m.held u)).uidToCustomConf.get v =
      some d → m.uidToCustomConf.get v = some d := by
    intro v d hd
    rw [close_uidToCustomConf, GoMap.get_del] at hd
    split at hd
    · cases hd
    · exact hd
  constructor
  case commonConf => simpa using h.commonConf
  case keys =>
    intro v
    rw [close_uidToCustomConf, GoMap.get_del, htable]
    split
    · rfl
    · exact h.keys v
  case uid => exact fun hd => h.uid (hold hd)
  case parses => exact fun hd => h.parses (hold hd)
  case settings => exact fun hcc hd => h.settings (hget hcc) (hold hd)
  case confUpdate => simpa using h.confUpdate
  case built =>
    intro v cc hcc hchanged
    simpa using h.built (hget hcc) hchanged
  case current =>
    intro v cc d hcc hd hcurrent
    simpa using h.current (hget hcc) (hold hd) (by simpa [isConfigChanged] using hcurrent)
  case balanced =>
    rw [close_closed, close_built]
    refine h.balanced.release (u := u) ?_ fun v hv => ?_
    · simp [held]
    · simp [held, GoMap.get_del_ne _ hv]
  case owner =>
    intro v i hi
    have hi' : m.held v = some i := by
      obtain ⟨cc, hcc, hp⟩ := Option.bind_eq_some_iff.1 hi
      rw [held, hget hcc]
      exact hp
    simpa using h.owner hi'

/-- Taking the entry out of the manager closes its configuration. -/
theorem Synced.remove (h : Synced clock parseUpstreams table conf m) {u : UID}
    (htable : ∀ v, table' v = if v = u then none else table v) :
    Synced clock parseUpstreams table' conf (m.remove u) ∧ ∀ i, m.held u = some i → i ∈ (m.remove u).closed := by
  cases hget : m.uidToCustomConf.get u with
  | none =>
    have hsame : m.remove u = m := by rw [UpstreamManager.remove, hget]
    rw [hsame, h.table_eq htable hget]
    refine ⟨h, fun i hi => ?_⟩
    simp [held, hget] at hi
  | some cliConf =>
    rw [remove_eq hget]
    refine ⟨h.closed_del htable, fun i hi => ?_⟩
    rw [close_closed, hi]
    simp

/-! ## Looking a configuration up -/

theorem newCustomUpstreamConfig_eq {cliConf : CustomUpstreamConfig} {c : Persistent} {conf : CommonUpstreamConfig}
    (hset : Settings cliConf c) (hparse : parseUpstreams (filterOutComments c.upstreams) = none) :
    newCustomUpstreamConfig parseUpstreams c.uid cliConf (some conf) c.name = .ok (wanted c conf) := by
  unfold newCustomUpstreamConfig wanted
  rw [hset.upstreams, hset.cacheSize, hset.cacheEnabled]
  split
  · rfl
  · simp only [hparse]

section Store

variable (new : Option ProxyConf)

@[simp] theorem store_uidToCustomConf : (m.store new).1.uidToCustomConf = m.uidToCustomConf := by cases new <;> rfl

@[simp] theorem store_commonConf : (m.store new).1.commonConf = m.commonConf := by cases new <;> rfl

@[simp] theorem store_confUpdate : (m.store new).1.confUpdate = m.confUpdate := by cases new <;> rfl

@[simp] theorem store_readings : (m.store new).1.readings = m.readings := by cases new <;> rfl

@[simp] theorem store_closed : (m.store new).1.closed = m.closed := by cases new <;> rfl

theorem store_built : (m.store new).1.built = m.built ++ new.toList := by cases new <;> simp [store]

/-- The pointer leads to the configuration. -/
theorem store_content : (m.store new).2.bind ((m.store new).1.built[·]?) = new := by
  cases new with
  | none => rfl
  | some conf => simp [store]

end Store

/-- A configuration that is stored is of the client that it is wanted for. -/
theorem wanted_uid {c : Persistent} {conf : CommonUpstreamConfig} {i : ℕ} (h : (m.store (wanted c conf)).2 = some i) :
    (wanted c conf).map (·.uid) = some c.uid := by
  unfold wanted at h ⊢
  split
  · rename_i hnone
    rw [if_pos hnone] at h
    cases h
  · rfl

/-- The manager after the entry of `u` has got a new configuration. -/
def replaced (m : UpstreamManager) (u : UID) (cliConf : CustomUpstreamConfig) (new : Option ProxyConf) :
    UpstreamManager :=
  let (m', p) := (m.close cliConf.proxyConf).store new
  { m' with uidToCustomConf := m'.uidToCustomConf.set u { cliConf with
      proxyConf := p
      commonConfUpdate := m'.confUpdate
      isChanged := false } }

theorem replaced_balanced {u : UID} {cliConf : CustomUpstreamConfig} (new : Option ProxyConf)
    (h : Balanced m.held m.closed m.built.length) (hget : m.uidToCustomConf.get u = some cliConf) :
    Balanced (m.replaced u cliConf new).held (m.replaced u cliConf new).closed
      (m.replaced u cliConf new).built.length := by
  have hheld : m.held u = cliConf.proxyConf := by simp [held, hget]
  -- the entry gives up its configuration before it gets the new one
  have hgive : Balanced (fun v => if v = u then none else m.held v) (cliConf.proxyConf.toList ++ m.closed)
      m.built.length := hheld ▸ h.release (u := u) (by simp) fun v hv => by simp [hv]
  cases new with
  | none =>
    simp only [replaced, store, close_uidToCustomConf, close_closed, close_built]
    refine hgive.congr fun v => ?_
    by_cases hv : v = u
    · simp [held, hv]
    · simp [held, hv, GoMap.get_set_ne _ hv]
  | some conf =>
    simp only [replaced, store, close_uidToCustomConf, close_closed, close_built, List.length_append,
      List.length_singleton]
    refine hgive.make (u := u) (by simp) (by simp [held]) fun v hv => ?_
    simp [held, hv, GoMap.get_set_ne _ hv]

theorem replaced_get (u v : UID) (cliConf : CustomUpstreamConfig) (new : Option ProxyConf) :
    (m.replaced u cliConf new).uidToCustomConf.get v =
      if v = u then some { cliConf with
        proxyConf := ((m.close cliConf.proxyConf).store new).2
        commonConfUpdate := m.confUpdate
        isChanged := false } else m.uidToCustomConf.get v := by
  simp only [replaced, GoMap.get_set, store_uidToCustomConf, close_uidToCustomConf, store_confUpdate,
    close_confUpdate]

theorem replaced_built (u : UID) (cliConf : CustomUpstreamConfig) (new : Option ProxyConf) :
    (m.replaced u cliConf new).built = m.built ++ new.toList := by
  simp only [replaced, store_built, close_built]

/-- A configuration that has been built stays in memory. -/
theorem replaced_built_lt {i : ℕ} (u : UID) (cliConf : CustomUpstreamConfig) (new : Option ProxyConf)
    (hi : i < m.built.length) : (m.replaced u cliConf new).built[i]? = m.built[i]? := by
  rw [replaced_built, List.getElem?_append_left hi]

/-- The pointer that `store` gives is that of the entry. -/
theorem replaced_held_self (u : UID) (cliConf : CustomUpstreamConfig) (new : Option ProxyConf) :
    (m.replaced u cliConf new).held u = ((m.close cliConf.proxyConf).store new).2 := by
  rw [held, replaced_get, if_pos rfl]
  rfl

theorem replaced_held_ne {u v : UID} (hv : v ≠ u) (cliConf : CustomUpstreamConfig) (new : Option ProxyConf) :
    (m.replaced u cliConf new).held v = m.held v := by
  rw [held, replaced_get, if_neg hv, held]

theorem replaced_content (u : UID) (cliConf : CustomUpstreamConfig) (new : Option ProxyConf) :
    ((m.replaced u cliConf new).held u).bind ((m.replaced u cliConf new).built[·]?) = new := by
  rw [replaced_held_self]
  exact store_content new

@[simp] theorem replaced_commonConf (u : UID) (cliConf : CustomUpstreamConfig) (new : Option ProxyConf) :
    (m.replaced u cliConf new).commonConf = m.commonConf := by simp [replaced]

@[simp] theorem replaced_confUpdate (u : UID) (cliConf : CustomUpstreamConfig) (new : Option ProxyConf) :
    (m.replaced u cliConf new).confUpdate = m.confUpdate := by simp [replaced]

@[simp] theorem replaced_readings (u : UID) (cliConf : CustomUpstreamConfig) (new : Option ProxyConf) :
    (m.replaced u cliConf new).readings = m.readings := by simp [replaced]

/-- The entry of a client gets the configuration that is wanted for it. -/
theorem Synced.replaced {conf : CommonUpstreamConfig} (h : Synced clock parseUpstreams table (some conf) m)
    {c : Persistent} (hc : table c.uid = some c) {cliConf : CustomUpstreamConfig}
    (hget : m.uidToCustomConf.get c.uid = some cliConf) :
    Synced clock parseUpstreams table (some conf) (m.replaced c.uid cliConf (wanted c conf)) where
  commonConf := by rw [replaced_commonConf, h.commonConf]
  keys := by
    intro v
    rw [replaced_get]
    split
    · rename_i hv
      rw [hv, hc]
      rfl
    · exact h.keys v
  uid := h.uid
  parses := h.parses
  settings := by
    intro v cc d hcc hd
    rw [replaced_get] at hcc
    split at hcc
    · rename_i hv
      cases hcc
      have hset := h.settings hget (hv ▸ hd)
      exact ⟨hset.upstreams, hset.cacheSize, hset.cacheEnabled⟩
    · exact h.settings hcc hd
  confUpdate := by simpa using h.confUpdate
  built := by
    intro v cc hcc hchanged
    rw [replaced_readings]
    rw [replaced_get] at hcc
    split at hcc
    · cases hcc
      exact h.confUpdate rfl
    · exact h.built hcc hchanged
  current := by
    intro v cc d hcc hd hcurrent
    refine ⟨conf, rfl, ?_⟩
    have hcontent := replaced_content (m := m) c.uid cliConf (wanted c conf)
    rw [replaced_get] at hcc
    split at hcc
    · rename_i hv
      cases hcc
      rw [hv, hc] at hd
      cases hd
      rwa [replaced_held_self] at hcontent
    · -- the configuration of another entry stays in memory
      have hcurrent' : m.isConfigChanged cc = false := by simpa [isConfigChanged] using hcurrent
      obtain ⟨conf', hconf, hcontent'⟩ := h.current hcc hd hcurrent'
      cases hconf
      rw [← hcontent']
      cases hpc : cc.proxyConf with
      | none => rfl
      | some i =>
        have hlt := h.balanced.held_lt (show m.held v = some i by simp [held, hcc, hpc])
        exact replaced_built_lt _ _ _ hlt
  balanced := replaced_balanced _ h.balanced hget
  owner := by
    intro v i hi
    by_cases hv : v = c.uid
    · have hcontent := replaced_content (m := m) c.uid cliConf (wanted c conf)
      rw [hv] at hi ⊢
      rw [hi, Option.bind_some] at hcontent
      rw [hcontent]
      rw [replaced_held_self] at hi
      exact wanted_uid hi
    · rw [replaced_held_ne hv] at hi
      rw [replaced_built_lt _ _ _ (h.balanced.held_lt hi)]
      exact h.owner hi

/-- What `customUpstreamConfig` returns for a stored client, and what it does to the configuration before. -/
structure Returns (m m' : UpstreamManager) (c : Persistent) (conf : CommonUpstreamConfig) (p : Option ℕ) : Prop where
  content : p.bind (m'.built[·]?) = wanted c conf
  held : m'.held c.uid = p
  closed : ∀ i, m.held c.uid = some i → p = some i ∨ i ∈ m'.closed

/-- The configuration before is closed when it is replaced. -/
theorem returns_replaced {c : Persistent} {cliConf : CustomUpstreamConfig}
    (hget : m.uidToCustomConf.get c.uid = some cliConf) (conf : CommonUpstreamConfig) :
    Returns m (m.replaced c.uid cliConf (wanted c conf)) c conf
      ((m.close cliConf.proxyConf).store (wanted c conf)).2 := by
  refine ⟨store_content _, replaced_held_self _ _ _, fun i hi => .inr ?_⟩
  have hheld : m.held c.uid = cliConf.proxyConf := by simp [held, hget]
  rw [hheld] at hi
  simp [replaced, hi]

theorem Synced.customUpstreamConfig {conf : CommonUpstreamConfig}
    (h : Synced clock parseUpstreams table (some conf) m)
    (hparse : ∀ ups, parseUpstreams ups = none → parseUpstreams (filterOutComments ups) = none) {c : Persistent}
    (hc : table c.uid = some c) :
    Synced clock parseUpstreams table (some conf) (m.customUpstreamConfig parseUpstreams c.uid c.name).1 ∧
      ∃ p, (m.customUpstreamConfig parseUpstreams c.uid c.name).2 = .ok p ∧
        Returns m (m.customUpstreamConfig parseUpstreams c.uid c.name).1 c conf p := by
  obtain ⟨cliConf, hget⟩ : ∃ cliConf, m.uidToCustomConf.get c.uid = some cliConf :=
    Option.isSome_iff_exists.1 (by rw [h.keys, hc]; rfl)
  by_cases hchanged : m.isConfigChanged cliConf = true
  · have heq : m.customUpstreamConfig parseUpstreams c.uid c.name =
        (m.replaced c.uid cliConf (wanted c conf), .ok ((m.close cliConf.proxyConf).store (wanted c conf)).2) := by
      unfold UpstreamManager.customUpstreamConfig
      simp only [hget, hchanged, Bool.not_true, Bool.false_eq_true, if_false, close_commonConf, h.commonConf,
        newCustomUpstreamConfig_eq (h.settings hget hc) (hparse _ (h.parses hc))]
      rfl
    rw [heq]
    exact ⟨h.replaced hc hget, _, rfl, returns_replaced hget conf⟩
  · have heq : m.customUpstreamConfig parseUpstreams c.uid c.name = (m, .ok cliConf.proxyConf) := by
      unfold UpstreamManager.customUpstreamConfig
      simp only [hget, hchanged, Bool.not_false, if_true]
    rw [heq]
    obtain ⟨conf', hconf, hcontent⟩ := h.current hget hc (by simpa using hchanged)
    cases hconf
    have hheld : m.held c.uid = cliConf.proxyConf := by simp [UpstreamManager.held, hget]
    exact ⟨h, cliConf.proxyConf, rfl, hcontent, hheld, fun i hi => .inl (hheld ▸ hi)⟩

end UpstreamManager

namespace StorageWithUpstreams

open UpstreamManager

variable {clock : ℕ → ℕ} {parseUpstreams : List String → Option String} {s : StorageWithUpstreams}
  {conf : Option CommonUpstreamConfig}

/-! ## Calls -/

/-- The index is coherent and the manager is in step with it. -/
structure InSync (clock : ℕ → ℕ) (parseUpstreams : List String → Option String)
    (conf : Option CommonUpstreamConfig) (s : StorageWithUpstreams) : Prop where
  coherent : Coherent s.index
  synced : Synced clock parseUpstreams s.index.uidToClient.get conf s.upstreamManager

/-- A call that fails leaves the clients as they are. -/
theorem synced_of_same {st : Storage} (h : InSync clock parseUpstreams conf s) (hsame : st.index = s.index) :
    Synced clock parseUpstreams st.index.uidToClient.get conf s.upstreamManager := by
  rw [hsame]
  exact h.synced

theorem stored_of_findByName {name : String} {p : Persistent} (h : s.index.findByName name = some (some p)) :
    s.stored name = some p := by
  rw [stored, h]
  rfl

theorem add_inSync (h : InSync clock parseUpstreams conf s) (p : Persistent) :
    InSync clock parseUpstreams conf (s.add parseUpstreams p).1 := by
  obtain ⟨hcoh, hfail⟩ : Coherent (s.toStorage.add parseUpstreams p).1.index ∧ _ :=
    Storage.add_spec h.coherent p
  refine ⟨by rw [add_toStorage]; exact hcoh, ?_⟩
  unfold add
  split
  · rename_i st e heq
    rw [heq] at hfail
    exact synced_of_same (s := s) h (hfail rfl)
  · rename_i st heq
    obtain ⟨hparse, -, tags, hget⟩ := Storage.add_stored h.coherent (congrArg Prod.snd heq)
    rw [heq] at hget
    exact h.synced.updateCustomUpstreamConfig hparse hget

theorem update_inSync (h : InSync clock parseUpstreams conf s) (name : String) (p : Persistent) :
    InSync clock parseUpstreams conf (s.update parseUpstreams name p).1 := by
  obtain ⟨hcoh, hfail⟩ : Coherent (s.toStorage.update parseUpstreams name p).1.index ∧ _ :=
    Storage.update_spec h.coherent name p
  refine ⟨by rw [update_toStorage]; exact hcoh, ?_⟩
  unfold update
  split
  · rename_i old st hold heq
    obtain ⟨hparse, c, tags, hfound, -, hget⟩ := Storage.update_stored h.coherent (congrArg Prod.snd heq)
    rw [stored_of_findByName hfound] at hold
    cases hold
    rw [heq] at hget
    exact h.synced.updateCustomUpstreamConfig (c := { p with uid := old.uid }) hparse hget
  · rename_i st res heq hnot
    rw [heq] at hfail
    refine synced_of_same (s := s) h (hfail ?_)
    cases hres : res with
    | error e => rfl
    | ok u =>
      obtain ⟨-, c, -, hfound, -⟩ := Storage.update_stored h.coherent (congrArg Prod.snd (hres ▸ heq))
      exact absurd hres (hnot c (stored_of_findByName hfound))

theorem removeByName_inSync (h : InSync clock parseUpstreams conf s) (name : String) :
    InSync clock parseUpstreams conf (s.removeByName name).1 := by
  obtain ⟨hcoh, hfail⟩ := Storage.removeByName_spec h.coherent name
  refine ⟨by rw [removeByName_toStorage]; exact hcoh, ?_⟩
  unfold removeByName
  split
  · rename_i old st hold heq
    obtain ⟨p, hfound, -, hget⟩ := Storage.removeByName_stored h.coherent (congrArg Prod.snd heq)
    rw [stored_of_findByName hfound] at hold
    cases hold
    rw [heq] at hget
    exact (h.synced.remove hget).1
  · rename_i st res heq hnot
    rw [heq] at hfail
    refine synced_of_same (s := s) h (hfail fun hres => ?_)
    obtain ⟨p, hfound, -⟩ := Storage.removeByName_stored h.coherent ((congrArg Prod.snd heq).trans hres)
    exact hnot p (stored_of_findByName hfound) hres

section Found

variable {macByIP : Addr → Option HardwareAddr} {id : String} {addr : Addr} {c : Persistent}

/-- A client that is found under an identifier is stored under its UID. -/
theorem stored_of_deref (hc : Coherent s.index) {u : UID} {o : Option (Option Persistent)}
    (ho : o = some (s.index.uidToClient.get u)) (h : Storage.deref (.ok o) = .ok (some c)) :
    s.index.uidToClient.get c.uid = some c := by
  rw [ho] at h
  cases hget : s.index.uidToClient.get u with
  | none =>
    rw [hget] at h
    cases h
  | some d =>
    rw [hget] at h
    cases h
    rw [(hc.uid u c hget).1, hget]

theorem stored_of_map (hc : Coherent s.index) {o : Option UID}
    (h : Storage.deref (.ok (o.map s.index.uidToClient.get)) = .ok (some c)) :
    s.index.uidToClient.get c.uid = some c := by
  cases o with
  | none => cases h
  | some u => exact stored_of_deref hc rfl h

theorem stored_of_findForUpstreams (hc : Coherent s.index) (h : s.findForUpstreams macByIP id addr = .ok (some c)) :
    s.index.uidToClient.get c.uid = some c := by
  unfold Storage.findForUpstreams at h
  split at h
  · rename_i o hid
    rw [← hid] at h
    exact stored_of_map hc h
  · unfold Storage.findByIP at h
    split at h
    · rename_i o hip
      unfold Index.findByIP at hip
      split at hip
      · exact stored_of_deref hc hip.symm h
      · rw [← hip] at h
        exact stored_of_map (o := (s.index.findSubnet addr).map Prod.snd) hc (by rw [Option.map_map]; exact h)
    · split at h
      · unfold Index.findByMAC at h
        split at h
        · cases h
        · exact stored_of_map hc h
      · cases h

end Found

theorem customUpstreamConfig_inSync {conf : CommonUpstreamConfig} (h : InSync clock parseUpstreams (some conf) s)
    (hparse : ∀ ups, parseUpstreams ups = none → parseUpstreams (filterOutComments ups) = none)
    (macByIP : Addr → Option HardwareAddr) (id : String) (addr : Addr) :
    InSync clock parseUpstreams (some conf) (s.customUpstreamConfig parseUpstreams macByIP id addr).1 := by
  refine ⟨by rw [customUpstreamConfig_toStorage]; exact h.coherent, ?_⟩
  unfold customUpstreamConfig
  split
  · exact h.synced
  · exact h.synced
  · rename_i c hfound
    exact (h.synced.customUpstreamConfig hparse (stored_of_findForUpstreams h.coherent hfound)).1

/-- The common configuration after the call. -/
def Call.commonConf (conf : CommonUpstreamConfig) : Call → CommonUpstreamConfig
  | .updateCommonUpstreamConfig conf' => conf'
  | _ => conf

/-- The common configuration of the last update. -/
def latestConf (conf : CommonUpstreamConfig) (calls : List Call) : CommonUpstreamConfig :=
  calls.foldl Call.commonConf conf

theorem updateCommonUpstreamConfig_inSync (hclock : Function.Injective clock)
    (h : InSync clock parseUpstreams conf s) (conf' : CommonUpstreamConfig) :
    InSync clock parseUpstreams (some conf') (s.updateCommonUpstreamConfig clock conf') :=
  ⟨h.coherent, h.synced.updateCommonUpstreamConfig hclock conf'⟩

theorem step_inSync (hclock : Function.Injective clock)
    (hparse : ∀ ups, parseUpstreams ups = none → parseUpstreams (filterOutComments ups) = none)
    {conf : CommonUpstreamConfig} (h : InSync clock parseUpstreams (some conf) s) (call : Call) :
    InSync clock parseUpstreams (some (call.commonConf conf)) (s.step clock parseUpstreams call) := by
  cases call with
  | add p => exact add_inSync h p
  | update name p => exact update_inSync h name p
  | removeByName name => exact removeByName_inSync h name
  | updateCommonUpstreamConfig conf' => exact updateCommonUpstreamConfig_inSync hclock h conf'
  | customUpstreamConfig macByIP id addr => exact customUpstreamConfig_inSync h hparse macByIP id addr

theorem run_inSync (hclock : Function.Injective clock)
    (hparse : ∀ ups, parseUpstreams ups = none → parseUpstreams (filterOutComments ups) = none) (calls : List Call)
    {conf : CommonUpstreamConfig} (h : InSync clock parseUpstreams (some conf) s) :
    InSync clock parseUpstreams (some (latestConf conf calls)) (run (step clock parseUpstreams) s calls) := by
  induction calls generalizing s conf with
  | nil => exact h
  | cons call calls ih => exact ih (step_inSync hclock hparse h call)

theorem addInitial_inSync {s' : StorageWithUpstreams} (h : InSync clock parseUpstreams conf s) (ps : List Persistent)
    (hadd : s.addInitial parseUpstreams ps = .ok s') : InSync clock parseUpstreams conf s' := by
  induction ps generalizing s with
  | nil =>
    cases hadd
    exact h
  | cons p ps ih =>
    unfold addInitial at hadd
    split at hadd
    · cases hadd
    · rename_i st heq
      have hstep := add_inSync h p
      rw [heq] at hstep
      exact ih hstep hadd

theorem newStorage_inSync {ps : List Persistent} (h : newStorage parseUpstreams ps = .ok s) :
    InSync clock parseUpstreams none s :=
  addInitial_inSync ⟨Index.new_coherent, new_synced⟩ ps h

/-! ## Every run -/

/-- What one lookup of a configuration returns. -/
structure Lookup (parseUpstreams : List String → Option String) (s : StorageWithUpstreams)
    (conf : CommonUpstreamConfig) (macByIP : Addr → Option HardwareAddr) (id : String) (addr : Addr)
    (c : Persistent) : Prop where
  /-- None exactly for a client without upstreams. -/
  none_iff : (s.customUpstreamConfig parseUpstreams macByIP id addr).2 = .ok none ↔
    filterOutComments c.upstreams = []
  /-- Otherwise one that is open and is built from the current settings. -/
  some_of_upstreams : filterOutComments c.upstreams ≠ [] →
    ∃ i, (s.customUpstreamConfig parseUpstreams macByIP id addr).2 = .ok (some i) ∧
      (s.customUpstreamConfig parseUpstreams macByIP id addr).1.upstreamManager.built[i]? = wanted c conf ∧
      i ∉ (s.customUpstreamConfig parseUpstreams macByIP id addr).1.upstreamManager.closed

/-- What becomes of a configuration that has been built. -/
structure Held (parseUpstreams : List String → Option String) (s : StorageWithUpstreams) (i : ℕ) (c : Persistent) :
    Prop where
  stored : s.index.uidToClient.get c.uid = some c
  owner : (s.upstreamManager.built[i]?).map (·.uid) = some c.uid
  /-- The next lookup for its client returns it or closes it. -/
  lookup : ∀ macByIP id addr, s.findForUpstreams macByIP id addr = .ok (some c) →
    (s.customUpstreamConfig parseUpstreams macByIP id addr).2 = .ok (some i) ∨
      i ∈ (s.customUpstreamConfig parseUpstreams macByIP id addr).1.upstreamManager.closed
  /-- The next removal of its client closes it. -/
  remove : i ∈ (s.removeByName c.name).1.upstreamManager.closed

/-- No configuration is stale. -/
structure NeverStale (parseUpstreams : List String → Option String) (conf : CommonUpstreamConfig)
    (s : StorageWithUpstreams) : Prop where
  keys : ∀ u, (s.upstreamManager.uidToCustomConf.get u).isSome ↔ (s.index.uidToClient.get u).isSome
  lookup : ∀ macByIP id addr c, s.findForUpstreams macByIP id addr = .ok (some c) →
    Lookup parseUpstreams s conf macByIP id addr c
  closedOnce : s.upstreamManager.closed.Nodup
  closedOrHeld : ∀ i < s.upstreamManager.built.length,
    i ∈ s.upstreamManager.closed ∨ ∃ c, Held parseUpstreams s i c

section Lookups

variable {conf : CommonUpstreamConfig} {macByIP : Addr → Option HardwareAddr} {id : String} {addr : Addr}
  {c : Persistent}

/-- A lookup asks the manager for the client that it finds. -/
theorem customUpstreamConfig_found (h : InSync clock parseUpstreams (some conf) s)
    (hparse : ∀ ups, parseUpstreams ups = none → parseUpstreams (filterOutComments ups) = none)
    (hfound : s.findForUpstreams macByIP id addr = .ok (some c)) :
    ∃ m p, s.customUpstreamConfig parseUpstreams macByIP id addr = (⟨s.toStorage, m⟩, .ok p) ∧
      Balanced m.held m.closed m.built.length ∧ Returns s.upstreamManager m c conf p := by
  obtain ⟨hsynced, p, hres, hreturns⟩ :=
    h.synced.customUpstreamConfig hparse (stored_of_findForUpstreams h.coherent hfound)
  refine ⟨_, p, ?_, hsynced.balanced, hreturns⟩
  unfold customUpstreamConfig
  simp only [hfound, hres]
  rfl

theorem lookup_of_inSync (h : InSync clock parseUpstreams (some conf) s)
    (hparse : ∀ ups, parseUpstreams ups = none → parseUpstreams (filterOutComments ups) = none)
    (hfound : s.findForUpstreams macByIP id addr = .ok (some c)) :
    Lookup parseUpstreams s conf macByIP id addr c := by
  obtain ⟨m, p, heq, hbalanced, hreturns⟩ := customUpstreamConfig_found h hparse hfound
  have hcontent := hreturns.content
  constructor
  · rw [heq]
    constructor
    · intro hnone
      obtain rfl : p = none := by simpa using hnone
      by_contra hups
      rw [wanted, if_neg hups] at hcontent
      cases hcontent
    · intro hups
      rw [wanted, if_pos hups] at hcontent
      cases p with
      | none => rfl
      | some i =>
        have hlt := hbalanced.held_lt hreturns.held
        rw [Option.bind_some, List.getElem?_eq_getElem hlt] at hcontent
        cases hcontent
  · intro hups
    rw [heq]
    cases p with
    | none =>
      rw [wanted, if_neg hups] at hcontent
      cases hcontent
    | some i => exact ⟨i, rfl, hcontent, hbalanced.open_of_held hreturns.held⟩

theorem held_of_inSync (h : InSync clock parseUpstreams (some conf) s)
    (hparse : ∀ ups, parseUpstreams ups = none → parseUpstreams (filterOutComments ups) = none) {u : UID} {i : ℕ}
    (hi : s.upstreamManager.held u = some i) : ∃ c, Held parseUpstreams s i c := by
  have hkey : (s.index.uidToClient.get u).isSome := by
    rw [← h.synced.keys u]
    obtain ⟨cliConf, hget, -⟩ := Option.bind_eq_some_iff.1 hi
    rw [hget]
    rfl
  obtain ⟨c, hc⟩ := Option.isSome_iff_exists.1 hkey
  obtain rfl := h.synced.uid hc
  refine ⟨c, hc, h.synced.owner hi, fun macByIP id addr hfound => ?_, ?_⟩
  · obtain ⟨m, p, heq, -, hreturns⟩ := customUpstreamConfig_found h hparse hfound
    rw [heq]
    exact (hreturns.closed i hi).imp_left fun hp => by rw [hp]
  · have hname : s.index.findByName c.name = some (some c) := by
      rw [Index.findByName, (h.coherent.name c.name c.uid).2 ⟨c, hc, List.mem_singleton_self _⟩, Option.map_some, hc]
    have hstored := stored_of_findByName hname
    have hres : s.toStorage.removeByName c.name = ((s.toStorage.removeByName c.name).1, .ok true) := by
      unfold Storage.removeByName
      simp only [hname, Index.remove_eq (h.coherent.macsValid _ _ hc)]
    unfold removeByName
    rw [hstored, hres]
    obtain ⟨p, hfound, -, hget⟩ := Storage.removeByName_stored h.coherent (congrArg Prod.snd hres)
    rw [hname] at hfound
    cases hfound
    exact (h.synced.remove hget).2 i hi

end Lookups

theorem neverStale_of_inSync {conf : CommonUpstreamConfig} (h : InSync clock parseUpstreams (some conf) s)
    (hparse : ∀ ups, parseUpstreams ups = none → parseUpstreams (filterOutComments ups) = none) :
    NeverStale parseUpstreams conf s where
  keys u := by rw [h.synced.keys u]
  lookup _ _ _ _ hfound := lookup_of_inSync h hparse hfound
  closedOnce := h.synced.balanced.nodup
  closedOrHeld i hi := by
    by_cases hclosed : i ∈ s.upstreamManager.closed
    · exact .inl hclosed
    · obtain ⟨u, hu⟩ := h.synced.balanced.held_of_open hi hclosed
      exact .inr (held_of_inSync h hparse hu)

/-- **Custom upstream configurations are never stale.**  The clock returns a new time at every reading, and
`ParseUpstreamsConfig` accepts a list without the comments of one that it accepts.  After `NewStorage`, an update of
the common configuration and any calls, the entries are those of the stored clients, a lookup returns the open
configuration that the client's settings and the last common configuration make, and every configuration that has been
built is closed, once, or is closed by the next lookup or removal of its client unless that lookup returns it. -/
theorem run_neverStale (hclock : Function.Injective clock)
    (hparse : ∀ ups, parseUpstreams ups = none → parseUpstreams (filterOutComments ups) = none)
    {initialClients : List Persistent} {s₀ : StorageWithUpstreams}
    (hnew : newStorage parseUpstreams initialClients = .ok s₀) (conf : CommonUpstreamConfig) (calls : List Call) :
    NeverStale parseUpstreams (latestConf conf calls)
      (run (step clock parseUpstreams) (s₀.updateCommonUpstreamConfig clock conf) calls) := by
  have hstart := updateCommonUpstreamConfig_inSync hclock (newStorage_inSync hnew) conf
  exact neverStale_of_inSync (run_inSync hclock hparse calls hstart) hparse

/-- A run with a lookup before and after an update of the common configuration. -/
def lookupCalls : List Call :=
  [.add tablet, .customUpstreamConfig (fun _ => none) "" (.v4 0xc0000201#32),
    .updateCommonUpstreamConfig ⟨1, 20, true, false, true⟩,
    .customUpstreamConfig (fun _ => none) "" (.v4 0xc0000201#32), .removeByName "tablet"]

theorem run_neverStale_lookupCalls :
    NeverStale (fun _ => none) ⟨1, 20, true, false, true⟩
      (run (step id fun _ => none) (new.updateCommonUpstreamConfig id ⟨0, 10, false, false, false⟩) lookupCalls) :=
  run_neverStale Function.injective_id (fun _ _ => rfl) (show newStorage (fun _ => none) [] = .ok new from rfl)
    ⟨0, 10, false, false, false⟩ lookupCalls

end StorageWithUpstreams

end AdGuardHome.Client
