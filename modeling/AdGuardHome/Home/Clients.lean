import AdGuardHome.Client.Lookup

/-!
# Clients for the query log and for the statistics

The query log and the statistics get the identifiers of a client as texts and look for its profile in two ways.  With a
coherent index and valid hardware addresses the lookups do not fail (`findMultiple_eq`, `shouldCountClient_eq`): what
they say is said by the first identifier that finds a profile.
-/

namespace AdGuardHome.Client

open AdGuardHome.Net AdGuardHome.Lib AdGuardHome.Aghalg

/-- A lookup that finds a stored client or nothing. -/
def Sound (res : Except Fault (Option (Option Persistent))) : Prop := ∃ o : Option Persistent, res = .ok (o.map some)

theorem sound_none : Sound (.ok none) := ⟨none, rfl⟩

theorem sound_some (c : Persistent) : Sound (.ok (some (some c))) := ⟨some c, rfl⟩

theorem Sound.deref {res : Except Fault (Option (Option Persistent))} (h : Sound res) :
    ∃ o, Storage.deref res = .ok o := by
  obtain ⟨o, rfl⟩ := h
  cases o with
  | none => exact ⟨none, rfl⟩
  | some c => exact ⟨some c, rfl⟩

namespace Index

variable {ci : Index}

/-- The UIDs of the identifiers have clients. -/
theorem sound_of_inverts {I : Type} [DecidableEq I] {m : GoMap I UID} {ids : Persistent → List I}
    (h : Inverts m ci.uidToClient ids) (i : I) : Sound (.ok ((m.get i).map ci.uidToClient.get)) := by
  cases hget : m.get i with
  | none => exact sound_none
  | some u =>
    obtain ⟨c, hc⟩ := client_of_inverts h hget
    rw [Option.map_some, hc]
    exact sound_some c

theorem findByClientID_sound (hc : Coherent ci) (id : ClientID) : Sound (.ok (ci.findByClientID id)) :=
  sound_of_inverts hc.clientID id

theorem findByMAC_sound (hc : Coherent ci) {mac : HardwareAddr} (hmac : validMACLen mac.length = true) :
    Sound (ci.findByMAC mac) := by
  unfold findByMAC macToKey
  rw [dif_pos hmac]
  exact sound_of_inverts hc.mac _

/-- A walk over the subnets finds one with its UID. -/
theorem sound_of_mem_range (hc : Coherent ci) {p : Prefix × UID} (hp : p ∈ ci.subnetToUID.range) :
    Sound (.ok (some (ci.uidToClient.get p.2))) := by
  obtain ⟨k, hk, rfl⟩ := List.mem_map.1 hp
  obtain ⟨u, hu⟩ := Option.isSome_iff_exists.1 ((hc.subnetSorted.mem_keys k).1 hk)
  obtain ⟨c, hget⟩ := client_of_inverts hc.subnet hu
  simp only [hu, Option.getD_some, hget]
  exact sound_some c

theorem findByIP_sound (hc : Coherent ci) (ip : Addr) : Sound (.ok (ci.findByIP ip)) := by
  unfold findByIP
  cases hget : ci.ipToUID.get ip with
  | some u =>
    obtain ⟨c, hget⟩ := client_of_inverts hc.ip hget
    simp only [hget]
    exact sound_some c
  | none =>
    dsimp only
    cases hsub : ci.findSubnet ip with
    | none => exact sound_none
    | some p => exact sound_of_mem_range hc (List.mem_of_find?_eq_some hsub)

theorem findByCIDR_sound (hc : Coherent ci) (subnet : Prefix) : Sound (.ok (ci.findByCIDR subnet)) := by
  unfold findByCIDR
  cases hfind : ci.subnetToUID.range.find? fun p => subnet == p.1 with
  | none => exact sound_none
  | some p => exact sound_of_mem_range hc (List.mem_of_find?_eq_some hfind)

/-- A hardware address that `ParseMAC` reads has a valid length. -/
theorem validMACLen_of_parseMAC {id : String} {mac : HardwareAddr} (h : parseMAC id = some mac) :
    validMACLen mac.length = true := by
  have hgroups : ∀ {sep digits cs}, parseMACGroups sep digits cs = some mac → validMACLen mac.length = true := by
    intro sep digits cs h
    unfold parseMACGroups at h
    dsimp only at h
    split at h
    · obtain ⟨mac', -, hmac'⟩ := Option.bind_eq_some_iff.1 h
      split at hmac'
      next hvalid =>
        cases hmac'
        exact hvalid
      · cases hmac'
    · cases h
  unfold parseMAC at h
  dsimp only at h
  split at h
  · exact hgroups h
  · split at h
    · exact hgroups h
    · split at h
      · exact hgroups h
      · cases h

theorem find_sound (hc : Coherent ci) (id : String) : Sound (ci.find id) := by
  unfold find
  split
  next c hid =>
    rw [← hid]
    exact findByClientID_sound hc id
  · split
    next c hip =>
      rw [← hip]
      cases hparse : parseAddr id with
      | none => exact sound_none
      | some ip => exact findByIP_sound hc ip
    · split
      next mac hmac => exact findByMAC_sound hc (validMACLen_of_parseMAC hmac)
      · exact sound_none

end Index

namespace Storage

variable {s : Storage} {macByIP : Addr → Option HardwareAddr}

theorem findByIP_sound (hc : Coherent s.index)
    (hmac : ∀ ip mac, macByIP ip = some mac → validMACLen mac.length = true) (ip : Addr) :
    Sound (s.findByIP macByIP ip) := by
  unfold findByIP
  split
  next c hip =>
    rw [← hip]
    exact Index.findByIP_sound hc ip
  · split
    next mac hget => exact Index.findByMAC_sound hc (hmac _ _ hget)
    · exact sound_none

theorem firstFound_sound {lookups : List (Except Fault (Option (Option Persistent)))}
    (h : ∀ res ∈ lookups, Sound res) : Sound (firstFound lookups) := by
  induction lookups with
  | nil => exact sound_none
  | cons res lookups ih =>
    have hres := h res List.mem_cons_self
    unfold firstFound
    split
    · exact sound_none
    next heq =>
      cases heq
      exact ih fun res hres => h res (List.mem_cons_of_mem _ hres)
    next heq =>
      cases heq
      exact hres

theorem find_total (hc : Coherent s.index)
    (hmac : ∀ ip mac, macByIP ip = some mac → validMACLen mac.length = true) {params : FindParams}
    (hparams : ∀ mac, params.mac = some mac → validMACLen mac.length = true) :
    ∃ o, s.find macByIP params = .ok o := by
  refine (firstFound_sound fun res hres => ?_).deref
  unfold lookups at hres
  simp only [List.mem_append] at hres
  rcases hres with ((hres | hres) | hres) | hres
  · split at hres
    · obtain rfl := List.mem_singleton.1 hres
      exact Index.findByClientID_sound hc _
    · cases hres
  · split at hres
    · obtain rfl := List.mem_singleton.1 hres
      exact findByIP_sound hc hmac _
    · cases hres
  · split at hres
    · obtain rfl := List.mem_singleton.1 hres
      exact Index.findByCIDR_sound hc _
    · cases hres
  · split at hres
    next mac hget =>
      obtain rfl := List.mem_singleton.1 hres
      exact Index.findByMAC_sound hc (hparams mac hget)
    · cases hres

theorem findLoose_total (hc : Coherent s.index)
    (hmac : ∀ ip mac, macByIP ip = some mac → validMACLen mac.length = true) (range : List (Addr × UID))
    (ip : Addr) (id : String) : ∃ o, s.findLoose macByIP range ip id = .ok o := by
  have hfind := Index.find_sound hc id
  unfold findLoose
  split
  next e heq =>
    rw [heq] at hfind
    obtain ⟨o, ho⟩ := hfind
    cases ho
  next c heq =>
    rw [← heq]
    exact hfind.deref
  · split
    next mac hget => exact (Index.findByMAC_sound hc (hmac _ _ hget)).deref
    · exact ⟨_, rfl⟩

theorem mac_of_set {isValidClientID : String → Bool} {id : String} {params : FindParams}
    (h : FindParams.set isValidClientID id = some params) :
    ∀ mac, params.mac = some mac → validMACLen mac.length = true := by
  intro mac hmac
  unfold FindParams.set at h
  split at h
  · cases h
    exact Index.validMACLen_of_parseMAC hmac
  · split at h
    · cases h
      cases hmac
    · split at h
      · cases h
        cases hmac
      · cases h

end Storage

end AdGuardHome.Client

namespace AdGuardHome.Home

open AdGuardHome.Net AdGuardHome.Client

/-! ## The container -/

/-- What is known of a runtime client. -/
structure RuntimeClient where
  host : String
  fromHostsFile : Bool
  deriving DecidableEq, Repr

/-- `querylog.Client`, with what decides if a request is logged. -/
structure LogClient where
  name : String
  ignoreQueryLog : Bool
  deriving DecidableEq, Repr

/-- `clientsContainer`, with what its storage knows from the DHCP server.  The index is coherent, as that of every
reachable storage, and the DHCP server has only valid hardware addresses. -/
structure ClientsContainer where
  storage : Storage
  coherent : Coherent storage.index
  /-- The entries of the addresses in the order of a loop over them. -/
  rangeIPs : List (Addr × UID)
  mem_rangeIPs : ∀ ip uid, (ip, uid) ∈ rangeIPs ↔ storage.index.ipToUID.get ip = some uid
  macByIP : Addr → Option HardwareAddr
  validMACs : ∀ ip mac, macByIP ip = some mac → validMACLen mac.length = true
  hostByIP : Addr → String
  runtimeSourceDHCP : Bool
  runtimeIndex : Addr → Option RuntimeClient
  /-- `netutil.IsValidHostnameLabel` -/
  isValidClientID : String → Bool

namespace ClientsContainer

variable (clients : ClientsContainer)

/-- `Storage.ClientRuntime` -/
def clientRuntime (ip : Addr) : Option RuntimeClient :=
  let rc := clients.runtimeIndex ip
  if !clients.runtimeSourceDHCP then rc
  else if rc.any (·.fromHostsFile) then rc
  else
    let host := clients.hostByIP ip
    if host = "" then rc else some ⟨host, false⟩

/-- The client, and whether it is an artificial one. -/
def clientOrArtificial (ip : Addr) (id : String) : Except Fault (LogClient × Bool) :=
  match clients.storage.findLoose clients.macByIP clients.rangeIPs ip id with
  | .error e => .error e
  | .ok (some cli) => .ok (⟨cli.name, cli.ignoreQueryLog⟩, false)
  | .ok none =>
    match clients.clientRuntime ip with
    | some rc => .ok (⟨rc.host, false⟩, false)
    | none => .ok (⟨"", false⟩, true)

/-- The loop of `findMultiple` with the last artificial client. -/
def findFrom (artClient : Option LogClient) : List String → Except Fault (Option LogClient)
  | [] => .ok artClient
  | id :: ids =>
    match clients.clientOrArtificial ((parseAddr id).getD .invalid) id with
    | .error e => .error e
    | .ok (c, true) => findFrom (some c) ids
    | .ok (c, false) => .ok (some c)

def findMultiple (ids : List String) : Except Fault (Option LogClient) := clients.findFrom none ids

def shouldCountClient : List String → Except Fault Bool
  | [] => .ok true
  | id :: ids =>
    match FindParams.set clients.isValidClientID id with
    | none => shouldCountClient ids
    | some params =>
      match clients.storage.find clients.macByIP params with
      | .error e => .error e
      | .ok (some client) => .ok !client.ignoreStatistics
      | .ok none => shouldCountClient ids

/-! ## What an identifier says -/

/-- If the profile under the identifier ignores the query log, `none` without a profile. -/
def ignoresQueryLog (id : String) : Option Bool :=
  match clients.clientOrArtificial ((parseAddr id).getD .invalid) id with
  | .ok (c, false) => some c.ignoreQueryLog
  | _ => none

/-- If the profile under the identifier ignores the statistics, `none` without a profile. -/
def ignoresStatistics (id : String) : Option Bool :=
  match (FindParams.set clients.isValidClientID id).map (clients.storage.find clients.macByIP) with
  | some (.ok (some client)) => some client.ignoreStatistics
  | _ => none

variable {clients}

theorem clientOrArtificial_total (ip : Addr) (id : String) :
    ∃ c art, clients.clientOrArtificial ip id = .ok (c, art) ∧ (art = true → c.ignoreQueryLog = false) := by
  obtain ⟨o, ho⟩ := Storage.findLoose_total clients.coherent clients.validMACs clients.rangeIPs ip id
  unfold clientOrArtificial
  rw [ho]
  cases o with
  | some cli => exact ⟨_, _, rfl, nofun⟩
  | none =>
    dsimp only
    split
    · exact ⟨_, _, rfl, fun _ => rfl⟩
    · exact ⟨_, _, rfl, fun _ => rfl⟩

theorem findFrom_eq (art : Option LogClient) (hart : ∀ c ∈ art, c.ignoreQueryLog = false) (ids : List String) :
    ∃ c, clients.findFrom art ids = .ok c ∧
      (c.any (·.ignoreQueryLog)) = (ids.findSome? clients.ignoresQueryLog).getD false := by
  induction ids generalizing art with
  | nil =>
    refine ⟨art, rfl, ?_⟩
    cases art with
    | none => rfl
    | some c => exact hart c rfl
  | cons id ids ih =>
    obtain ⟨c, a, hc, ha⟩ := @clientOrArtificial_total clients ((parseAddr id).getD .invalid) id
    rw [findFrom, hc, List.findSome?_cons]
    cases a with
    | true =>
      have hnone : clients.ignoresQueryLog id = none := by
        unfold ignoresQueryLog
        rw [hc]
      rw [hnone]
      exact ih (some c) (by rintro _ ⟨⟩; exact ha rfl)
    | false =>
      have hsome : clients.ignoresQueryLog id = some c.ignoreQueryLog := by
        unfold ignoresQueryLog
        rw [hc]
      rw [hsome]
      exact ⟨some c, rfl, rfl⟩

/-- The first identifier with a profile decides about the query log. -/
theorem findMultiple_eq (ids : List String) : ∃ c, clients.findMultiple ids = .ok c ∧
    (c.any (·.ignoreQueryLog)) = (ids.findSome? clients.ignoresQueryLog).getD false :=
  findFrom_eq none nofun ids

/-- The first identifier with a profile decides about the statistics. -/
theorem shouldCountClient_eq (ids : List String) :
    clients.shouldCountClient ids = .ok !(ids.findSome? clients.ignoresStatistics).getD false := by
  induction ids with
  | nil => rfl
  | cons id ids ih =>
    rw [shouldCountClient, List.findSome?_cons]
    unfold ignoresStatistics at ih ⊢
    cases hset : FindParams.set clients.isValidClientID id with
    | none => exact ih
    | some params =>
      obtain ⟨o, ho⟩ := Storage.find_total clients.coherent clients.validMACs (Storage.mac_of_set hset)
      simp only [Option.map_some, ho]
      cases o with
      | some client => rfl
      | none => exact ih

end ClientsContainer

end AdGuardHome.Home
