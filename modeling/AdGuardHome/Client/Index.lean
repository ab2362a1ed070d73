import AdGuardHome.Aghalg.SortedMap
import AdGuardHome.Client.Persistent
import AdGuardHome.Lib.InvertedIndex

/-!
# The index of persistent clients (`internal/client/index.go`)

Six maps: the clients by their UIDs, and from each kind of identifier to the UID of its client.
`Coherent ci` says that each of the five identifier maps is exactly the inverse of the client map.
`clashes` finds every identifier that belongs to another client (`clashes_ok`), so that `add` after it
keeps the index coherent (`add_coherent`), as `remove` does (`remove_coherent`).
-/

namespace AdGuardHome.Client

open AdGuardHome.Net AdGuardHome.Lib AdGuardHome.Aghalg

/-- `index`. -/
structure Index where
  subnetToUID : SortedMap Prefix UID
  nameToUID : GoMap String UID
  clientIDToUID : GoMap ClientID UID
  ipToUID : GoMap Addr UID
  macToUID : GoMap MacKey UID
  uidToClient : GoMap UID Persistent

namespace Index

/-- `newIndex`. -/
def new : Index where
  subnetToUID := .new subnetCompare
  nameToUID := .empty
  clientIDToUID := .empty
  ipToUID := .empty
  macToUID := .empty
  uidToClient := .empty

/-! ## Operations -/

/-- The loop of `index.add` over the hardware addresses, with the map as a panic leaves it. -/
def addMACs (uid : UID) : GoMap MacKey UID → List HardwareAddr → GoMap MacKey UID × Except Fault Unit
  | m, [] => (m, .ok ())
  | m, mac :: macs =>
    match macToKey mac with
    | none => (m, .error (.panicMAC mac))
    | some k => addMACs uid (m.set k uid) macs

/-- `index.add`. -/
def add (ci : Index) (c : Persistent) : Index × Except Fault Unit :=
  if c.uid = 0 then (ci, .error .panicUID)
  else
    let ci := { ci with
      nameToUID := ci.nameToUID.set c.name c.uid
      clientIDToUID := ci.clientIDToUID.setAll c.clientIDs c.uid
      ipToUID := ci.ipToUID.setAll c.ips c.uid
      subnetToUID := c.subnets.foldl (fun m pref => m.set pref c.uid) ci.subnetToUID }
    match addMACs c.uid ci.macToUID c.macs with
    | (m, .error e) => ({ ci with macToUID := m }, .error e)
    | (m, .ok ()) => ({ ci with macToUID := m, uidToClient := ci.uidToClient.set c.uid c }, .ok ())

/-- `clashesUID`. -/
def clashesUID (ci : Index) (c : Persistent) : Except Fault Unit :=
  match ci.uidToClient.get c.uid with
  | some p => .error (.err (.sameUID p.name))
  | none => .ok ()

/-- `findByName`; the inner `none` is a nil client. -/
def findByName (ci : Index) (name : String) : Option (Option Persistent) :=
  (ci.nameToUID.get name).map ci.uidToClient.get

/-- `clashesName`, with the error that `clashes` makes of its result. -/
def clashesName (ci : Index) (c : Persistent) : Except Fault Unit :=
  match ci.findByName c.name with
  | none => .ok ()
  | some none => .error .nilClient
  | some (some existing) =>
    if existing.uid ≠ c.uid then .error (.err (.sameName existing.name)) else .ok ()

/-- The loop of `clashes` over the ClientIDs. -/
def clashesClientID (ci : Index) (c : Persistent) : List ClientID → Except Fault Unit
  | [] => .ok ()
  | id :: ids =>
    match ci.clientIDToUID.get id with
    | some existing =>
      if existing ≠ c.uid then
        match ci.uidToClient.get existing with
        | none => .error .nilClient
        | some p => .error (.err (.sameClientID p.name id))
      else ci.clashesClientID c ids
    | none => ci.clashesClientID c ids

/-- `clashesIP`: the first address that another UID has, with that UID's client. -/
def clashesIP (ci : Index) (c : Persistent) : Option (Option Persistent × Addr) :=
  c.ips.findSome? fun ip =>
    (ci.ipToUID.get ip).bind fun existing =>
      if existing ≠ c.uid then some (ci.uidToClient.get existing, ip) else none

/-- `clashesSubnet`, which looks the subnet up by a walk over the sorted map. -/
def clashesSubnet (ci : Index) (c : Persistent) : Option (Option Persistent × Prefix) :=
  c.subnets.findSome? fun s =>
    ((ci.subnetToUID.range.find? fun p => p.1 == s).map Prod.snd).bind fun existing =>
      if existing ≠ c.uid then some (ci.uidToClient.get existing, s) else none

/-- `clashesMAC`. -/
def clashesMAC (ci : Index) (c : Persistent) :
    List HardwareAddr → Except Fault (Option (Option Persistent × HardwareAddr))
  | [] => .ok none
  | mac :: macs =>
    match macToKey mac with
    | none => .error (.panicMAC mac)
    | some k =>
      match ci.macToUID.get k with
      | some existing =>
        if existing ≠ c.uid then .ok (some (ci.uidToClient.get existing, mac)) else ci.clashesMAC c macs
      | none => ci.clashesMAC c macs

/-- `clashes`.  A clash whose client is nil is not one. -/
def clashes (ci : Index) (c : Persistent) : Except Fault Unit := do
  ci.clashesName c
  ci.clashesClientID c c.clientIDs
  match ci.clashesIP c with
  | some (some p, ip) => throw (.err (.sameIP p.name ip))
  | _ => pure ()
  match ci.clashesSubnet c with
  | some (some p, s) => throw (.err (.sameSubnet p.name s))
  | _ => pure ()
  match ← ci.clashesMAC c c.macs with
  | some (some p, mac) => throw (.err (.sameMAC p.name mac))
  | _ => pure ()

/-- The loop of `index.remove` over the hardware addresses. -/
def removeMACs : GoMap MacKey UID → List HardwareAddr → GoMap MacKey UID × Except Fault Unit
  | m, [] => (m, .ok ())
  | m, mac :: macs =>
    match macToKey mac with
    | none => (m, .error (.panicMAC mac))
    | some k => removeMACs (m.del k) macs

/-- `index.remove`. -/
def remove (ci : Index) (c : Persistent) : Index × Except Fault Unit :=
  let ci := { ci with
    nameToUID := ci.nameToUID.del c.name
    clientIDToUID := ci.clientIDToUID.delAll c.clientIDs
    ipToUID := ci.ipToUID.delAll c.ips
    subnetToUID := c.subnets.foldl (fun m pref => m.del pref) ci.subnetToUID }
  match removeMACs ci.macToUID c.macs with
  | (m, .error e) => ({ ci with macToUID := m }, .error e)
  | (m, .ok ()) => ({ ci with macToUID := m, uidToClient := ci.uidToClient.del c.uid }, .ok ())

end Index

/-- The keys of the hardware addresses of a client. -/
def Persistent.macKeys (c : Persistent) : List MacKey := c.macs.filterMap macToKey

/-- Every hardware address of the client has a key. -/
def Persistent.MACsValid (c : Persistent) : Prop := ∀ mac ∈ c.macs, (macToKey mac).isSome

/-- Each identifier map is the inverse of the client map: it maps an identifier to a UID exactly if the
client stored under that UID carries the identifier; and a client is stored under its own UID. -/
structure Coherent (ci : Index) : Prop where
  uid : ∀ u c, ci.uidToClient.get u = some c → c.uid = u ∧ u ≠ 0
  name : Inverts ci.nameToUID ci.uidToClient fun c => [c.name]
  clientID : Inverts ci.clientIDToUID ci.uidToClient Persistent.clientIDs
  ip : Inverts ci.ipToUID ci.uidToClient Persistent.ips
  mac : Inverts ci.macToUID ci.uidToClient Persistent.macKeys
  subnet : Inverts ci.subnetToUID.vals ci.uidToClient Persistent.subnets
  macsValid : ∀ u c, ci.uidToClient.get u = some c → c.MACsValid
  subnetCmp : ci.subnetToUID.cmp = subnetCompare
  subnetSorted : ci.subnetToUID.Valid

namespace Index

/-! ## What the loops compute -/

theorem addMACs_eq (uid : UID) {macs : List HardwareAddr} (h : ∀ mac ∈ macs, (macToKey mac).isSome)
    (m : GoMap MacKey UID) : addMACs uid m macs = (m.setAll (macs.filterMap macToKey) uid, .ok ()) := by
  induction macs generalizing m with
  | nil => rfl
  | cons mac macs ih =>
    obtain ⟨k, hk⟩ := Option.isSome_iff_exists.1 (h mac (by simp))
    simp only [addMACs, hk, List.filterMap_cons]
    rw [ih fun mac hmac => h mac (List.mem_cons_of_mem _ hmac)]
    rfl

theorem removeMACs_eq {macs : List HardwareAddr} (h : ∀ mac ∈ macs, (macToKey mac).isSome)
    (m : GoMap MacKey UID) : removeMACs m macs = (m.delAll (macs.filterMap macToKey), .ok ()) := by
  induction macs generalizing m with
  | nil => rfl
  | cons mac macs ih =>
    obtain ⟨k, hk⟩ := Option.isSome_iff_exists.1 (h mac (by simp))
    simp only [removeMACs, hk, List.filterMap_cons]
    rw [ih fun mac hmac => h mac (List.mem_cons_of_mem _ hmac)]
    rfl

/-- The subnets set in turn: the map is the one with all of them assigned, and stays sorted. -/
theorem setSubnets_spec (uid : UID) (prefs : List Prefix) {m : SortedMap Prefix UID}
    (hcmp : m.cmp = subnetCompare) (hv : m.Valid) :
    (prefs.foldl (fun m pref => m.set pref uid) m).vals = m.vals.setAll prefs uid ∧
      (prefs.foldl (fun m pref => m.set pref uid) m).cmp = subnetCompare ∧
      (prefs.foldl (fun m pref => m.set pref uid) m).Valid := by
  induction prefs generalizing m with
  | nil => exact ⟨rfl, hcmp, hv⟩
  | cons p prefs ih =>
    have : Std.TransCmp m.cmp := hcmp ▸ inferInstance
    have : Std.LawfulEqCmp m.cmp := hcmp ▸ inferInstance
    exact ih (m := m.set p uid) hcmp (m.set_valid hv p uid)

/-- The subnets deleted in turn. -/
theorem delSubnets_spec (prefs : List Prefix) {m : SortedMap Prefix UID}
    (hcmp : m.cmp = subnetCompare) (hv : m.Valid) :
    (∀ s, (prefs.foldl (fun m pref => m.del pref) m).vals.get s = (m.vals.delAll prefs).get s) ∧
      (prefs.foldl (fun m pref => m.del pref) m).cmp = subnetCompare ∧
      (prefs.foldl (fun m pref => m.del pref) m).Valid := by
  induction prefs generalizing m with
  | nil => exact ⟨fun _ => rfl, hcmp, hv⟩
  | cons p prefs ih =>
    have : Std.TransCmp m.cmp := hcmp ▸ inferInstance
    have : Std.LawfulEqCmp m.cmp := hcmp ▸ inferInstance
    obtain ⟨h₁, h₂, h₃⟩ := ih (m := m.del p) ((m.del_cmp p).trans hcmp) (m.del_valid hv p)
    refine ⟨fun s => ?_, h₂, h₃⟩
    rw [List.foldl_cons, h₁ s, GoMap.get_delAll, GoMap.get_delAll, SortedMap.get_del_vals]
    by_cases hs : s ∈ prefs <;> by_cases hp : s = p <;> simp [hs, hp]

/-! ## What a passed clash check says -/

/-- The identifiers are free or belong to the UID. -/
def FreeFor {I : Type} [DecidableEq I] (m : GoMap I UID) (ids : List I) (uid : UID) : Prop :=
  ∀ i ∈ ids, ∀ w, m.get i = some w → w = uid

/-- Every identifier of the client is free or its own, and its hardware addresses are valid. -/
structure NoClash (ci : Index) (c : Persistent) : Prop where
  name : FreeFor ci.nameToUID [c.name] c.uid
  clientID : FreeFor ci.clientIDToUID c.clientIDs c.uid
  ip : FreeFor ci.ipToUID c.ips c.uid
  mac : FreeFor ci.macToUID c.macKeys c.uid
  subnet : FreeFor ci.subnetToUID.vals c.subnets c.uid
  macsValid : c.MACsValid

/-- In a coherent index an identifier's UID has a client. -/
theorem client_of_inverts {I : Type} [DecidableEq I] {m : GoMap I UID} {t : GoMap UID Persistent}
    {ids : Persistent → List I} (h : Inverts m t ids) {i : I} {u : UID} (hi : m.get i = some u) :
    ∃ c, t.get u = some c := by
  obtain ⟨c, hc, -⟩ := (h i u).1 hi
  exact ⟨c, hc⟩

theorem clashesName_ok {ci : Index} (hc : Coherent ci) {c : Persistent}
    (h : ci.clashesName c = .ok ()) : FreeFor ci.nameToUID [c.name] c.uid := by
  intro n hn w hw
  obtain rfl := List.mem_singleton.1 hn
  obtain ⟨p, hp⟩ := client_of_inverts hc.name hw
  have huid := (hc.uid w p hp).1
  simp only [clashesName, findByName, hw, Option.map_some, hp] at h
  by_contra hne
  rw [if_pos (by rw [huid]; exact hne)] at h
  cases h

theorem clashesClientID_ok {ci : Index} {c : Persistent} {ids : List ClientID}
    (h : ci.clashesClientID c ids = .ok ()) : FreeFor ci.clientIDToUID ids c.uid := by
  induction ids with
  | nil => intro i hi; cases hi
  | cons id ids ih =>
    have hrec : ci.clashesClientID c ids = .ok () := by
      simp only [clashesClientID] at h
      split at h
      · split at h
        · split at h <;> cases h
        · exact h
      · exact h
    intro i hi w hw
    rcases List.mem_cons.1 hi with rfl | hi
    · by_contra hne
      simp only [clashesClientID, hw, ne_eq, hne, not_false_eq_true, if_true] at h
      split at h <;> cases h
    · exact ih hrec i hi w hw

/-- The check shared by `clashesIP` and `clashesSubnet`: no first clash with a client means no clash. -/
theorem findSome_clash_none {I : Type} [DecidableEq I] {m : GoMap I UID} {t : GoMap UID Persistent}
    {idsOf : Persistent → List I} (hinv : Inverts m t idsOf) {uid : UID} {ids : List I}
    {look : I → Option UID} (hlook : ∀ i, look i = m.get i)
    (h : ∀ p i, (ids.findSome? fun i => (look i).bind fun existing =>
      if existing ≠ uid then some (t.get existing, i) else none) ≠ some (some p, i)) :
    FreeFor m ids uid := by
  induction ids with
  | nil => intro i hi; cases hi
  | cons id ids ih =>
    have hid : ∀ w, m.get id = some w → w = uid := by
      intro w hw
      by_contra hne
      obtain ⟨p, hp⟩ := client_of_inverts hinv hw
      refine h p id ?_
      simp [hlook, hw, hne, hp]
    have hnone : ((look id).bind fun existing =>
        if existing ≠ uid then some (t.get existing, id) else none) = none := by
      rw [hlook]
      cases hw : m.get id with
      | none => rfl
      | some w => simp [hid w hw]
    intro i hi
    rcases List.mem_cons.1 hi with rfl | hi
    · exact hid
    · refine ih (fun p j hj => h p j ?_) i hi
      rw [List.findSome?_cons, hnone]
      exact hj

theorem clashesMAC_ok {ci : Index} (hc : Coherent ci) {c : Persistent} {macs : List HardwareAddr}
    {r : Option (Option Persistent × HardwareAddr)} (h : ci.clashesMAC c macs = .ok r)
    (hr : ∀ p mac, r ≠ some (some p, mac)) :
    (∀ mac ∈ macs, (macToKey mac).isSome) ∧ FreeFor ci.macToUID (macs.filterMap macToKey) c.uid := by
  induction macs with
  | nil => exact ⟨by simp, by intro i hi; cases hi⟩
  | cons mac macs ih =>
    simp only [clashesMAC] at h
    cases hk : macToKey mac with
    | none => simp [hk] at h
    | some k =>
      simp only [hk] at h
      have hown : ∀ w, ci.macToUID.get k = some w → w = c.uid := by
        intro w hw
        by_contra hne
        obtain ⟨p, hp⟩ := client_of_inverts hc.mac hw
        simp only [hw, ne_eq, hne, not_false_eq_true, if_true, hp, Except.ok.injEq] at h
        exact hr p mac h.symm
      have hrec : ci.clashesMAC c macs = .ok r := by
        cases hw : ci.macToUID.get k with
        | none => simpa [hw] using h
        | some w => simpa [hw, hown w hw] using h
      obtain ⟨ih₁, ih₂⟩ := ih hrec
      refine ⟨fun m hm => ?_, fun i hi => ?_⟩
      · rcases List.mem_cons.1 hm with rfl | hm
        · simp [hk]
        · exact ih₁ m hm
      · rw [List.filterMap_cons, hk] at hi
        rcases List.mem_cons.1 hi with rfl | hi
        · exact hown
        · exact ih₂ i hi

/-- A passed clash check: every identifier of the client is free or its own. -/
theorem clashes_ok {ci : Index} (hc : Coherent ci) {c : Persistent} (h : ci.clashes c = .ok ()) :
    NoClash ci c := by
  unfold clashes at h
  simp only [bind, Except.bind, pure, Except.pure, throw, throwThe, MonadExceptOf.throw] at h
  split at h
  · cases h
  rename_i hname
  split at h
  · cases h
  rename_i hcid
  split at h
  · cases h
  rename_i hip
  split at h
  · cases h
  rename_i hsub
  split at h
  · cases h
  rename_i r hmac
  split at h
  · cases h
  rename_i hr
  have hip' : ∀ p i, ci.clashesIP c ≠ some (some p, i) := by
    intro p i he; simp [he] at hip
  have hsub' : ∀ p i, ci.clashesSubnet c ≠ some (some p, i) := by
    intro p i he; simp [he] at hsub
  obtain ⟨hvalid, hmacs⟩ := clashesMAC_ok hc hmac (fun p mac he => hr p mac he)
  exact {
    name := clashesName_ok hc hname
    clientID := clashesClientID_ok hcid
    ip := findSome_clash_none hc.ip (fun _ => rfl) hip'
    subnet := findSome_clash_none hc.subnet (SortedMap.find_range hc.subnetSorted) hsub'
    mac := hmacs
    macsValid := hvalid }

/-! ## Adding and removing a client -/

theorem new_coherent : Coherent Index.new where
  uid := by simp [new]
  name := inverts_empty
  clientID := inverts_empty
  ip := inverts_empty
  mac := inverts_empty
  subnet := inverts_empty
  macsValid := by simp [new]
  subnetCmp := rfl
  subnetSorted := SortedMap.new_valid _

/-- The index after `add`, whose hardware addresses are valid. -/
theorem add_eq {ci : Index} {c : Persistent} (huid : c.uid ≠ 0) (hmacs : c.MACsValid) :
    ci.add c = ({
      nameToUID := ci.nameToUID.setAll [c.name] c.uid
      clientIDToUID := ci.clientIDToUID.setAll c.clientIDs c.uid
      ipToUID := ci.ipToUID.setAll c.ips c.uid
      subnetToUID := c.subnets.foldl (fun m pref => m.set pref c.uid) ci.subnetToUID
      macToUID := ci.macToUID.setAll c.macKeys c.uid
      uidToClient := ci.uidToClient.set c.uid c }, .ok ()) := by
  unfold add
  rw [if_neg huid]
  simp only [addMACs_eq c.uid hmacs]
  rfl

/-- Adding a client under a free UID, all of its identifiers being free. -/
theorem add_coherent {ci : Index} (hc : Coherent ci) {c : Persistent} (huid : c.uid ≠ 0)
    (hfree : ci.uidToClient.get c.uid = none) (hmacs : c.MACsValid)
    (hname : ∀ i ∈ [c.name], ci.nameToUID.get i = none)
    (hcid : ∀ i ∈ c.clientIDs, ci.clientIDToUID.get i = none)
    (hip : ∀ i ∈ c.ips, ci.ipToUID.get i = none) (hmac : ∀ i ∈ c.macKeys, ci.macToUID.get i = none)
    (hsub : ∀ i ∈ c.subnets, ci.subnetToUID.vals.get i = none) :
    Coherent (ci.add c).1 ∧ (ci.add c).2 = .ok () := by
  obtain ⟨hvals, hcmp, hvalid⟩ := setSubnets_spec c.uid c.subnets hc.subnetCmp hc.subnetSorted
  rw [add_eq huid hmacs]
  refine ⟨?_, rfl⟩
  exact {
    uid := by
      intro u d hd
      rw [GoMap.get_set] at hd
      split at hd
      · rename_i hu
        simp only [Option.some.injEq] at hd
        exact ⟨by rw [← hd, hu], by rw [hu]; exact huid⟩
      · exact hc.uid u d hd
    name := hc.name.add hfree hname
    clientID := hc.clientID.add hfree hcid
    ip := hc.ip.add hfree hip
    mac := hc.mac.add hfree hmac
    subnet := by
      simp only [hvals]
      exact hc.subnet.add hfree hsub
    macsValid := by
      intro u d hd
      rw [GoMap.get_set] at hd
      split at hd
      · simp only [Option.some.injEq] at hd
        exact hd ▸ hmacs
      · exact hc.macsValid u d hd
    subnetCmp := hcmp
    subnetSorted := hvalid }

/-- The index after `remove` of a client whose hardware addresses are valid. -/
theorem remove_eq {ci : Index} {c : Persistent} (hmacs : c.MACsValid) :
    ci.remove c = ({
      nameToUID := ci.nameToUID.delAll [c.name]
      clientIDToUID := ci.clientIDToUID.delAll c.clientIDs
      ipToUID := ci.ipToUID.delAll c.ips
      subnetToUID := c.subnets.foldl (fun m pref => m.del pref) ci.subnetToUID
      macToUID := ci.macToUID.delAll c.macKeys
      uidToClient := ci.uidToClient.del c.uid }, .ok ()) := by
  unfold remove
  simp only [removeMACs_eq hmacs]
  rfl

/-- Removing a stored client. -/
theorem remove_coherent {ci : Index} (hc : Coherent ci) {c : Persistent}
    (hstored : ci.uidToClient.get c.uid = some c) :
    Coherent (ci.remove c).1 ∧ (ci.remove c).2 = .ok () := by
  obtain ⟨hvals, hcmp, hvalid⟩ := delSubnets_spec c.subnets hc.subnetCmp hc.subnetSorted
  have hmacs := hc.macsValid _ _ hstored
  have hold : ∀ {u d}, (ci.uidToClient.del c.uid).get u = some d → ci.uidToClient.get u = some d := by
    intro u d hd
    rw [GoMap.get_del] at hd
    split at hd
    · cases hd
    · exact hd
  rw [remove_eq hmacs]
  refine ⟨?_, rfl⟩
  exact {
    uid := fun u d hd => hc.uid u d (hold hd)
    name := hc.name.remove hstored
    clientID := hc.clientID.remove hstored
    ip := hc.ip.remove hstored
    mac := hc.mac.remove hstored
    subnet := (hc.subnet.remove hstored).congr hvals
    macsValid := fun u d hd => hc.macsValid u d (hold hd)
    subnetCmp := hcmp
    subnetSorted := hvalid }

/-- Replacing a stored client by one that clashes with no other. -/
theorem replace_coherent {ci : Index} (hc : Coherent ci) {stored c : Persistent}
    (hstored : ci.uidToClient.get stored.uid = some stored) (huid : c.uid = stored.uid)
    (h : NoClash ci c) :
    Coherent ((ci.remove stored).1.add c).1 ∧ ((ci.remove stored).1.add c).2 = .ok () := by
  obtain ⟨hrem, -⟩ := remove_coherent hc hstored
  obtain ⟨hvals, -, -⟩ := delSubnets_spec stored.subnets hc.subnetCmp hc.subnetSorted
  have hmacs := hc.macsValid _ _ hstored
  have hown : ∀ {I : Type} [DecidableEq I] {m : GoMap I UID} {ids : List I},
      FreeFor m ids c.uid → ∀ i ∈ ids, ∀ w, m.get i = some w → w = stored.uid :=
    fun hf i hi w hw => (hf i hi w hw).trans huid
  rw [remove_eq hmacs] at hrem ⊢
  refine add_coherent hrem (huid ▸ (hc.uid _ _ hstored).2) ?_ h.macsValid ?_ ?_ ?_ ?_ ?_
  · simp [huid]
  · exact fun i hi => hc.name.free_after_remove hstored (hown h.name i hi)
  · exact fun i hi => hc.clientID.free_after_remove hstored (hown h.clientID i hi)
  · exact fun i hi => hc.ip.free_after_remove hstored (hown h.ip i hi)
  · exact fun i hi => hc.mac.free_after_remove hstored (hown h.mac i hi)
  · intro i hi
    rw [hvals]
    exact hc.subnet.free_after_remove hstored (hown h.subnet i hi)

end Index

end AdGuardHome.Client
