import AdGuardHome.Client.Stored

/-!
# One client for all settings

`Find`, `ApplyClientFiltering` and `CustomUpstreamConfig` look for the client of a request in three places of the
source.  They differ in the treatment of an absent ClientID, which no stored client has, and so select one client
(`lookups_agree`).
-/

namespace AdGuardHome.Client

open AdGuardHome.Net AdGuardHome.Lib

namespace StorageWithUpstreams

variable {clock : ℕ → ℕ} {parseUpstreams : List String → Option String} {s : StorageWithUpstreams}

/-- No ClientID is found for the empty string. -/
theorem findByClientID_empty (hs : s.Searchable) : s.index.findByClientID "" = none := by
  unfold Index.findByClientID
  cases hget : s.index.clientIDToUID.get "" with
  | none => rfl
  | some u =>
    obtain ⟨c, hc, hmem⟩ := (hs.coherent.clientID "" u).1 hget
    exact absurd hmem (hs.noEmptyClientID u c hc)

/-- The two lookups by ClientID and address that are written out are one. -/
theorem findForFiltering_eq (s : StorageWithUpstreams) (macByIP : Addr → Option HardwareAddr) (id : String)
    (addr : Addr) : s.findForFiltering macByIP id addr = s.findForUpstreams macByIP id addr := rfl

theorem find_eq (hs : s.Searchable) (macByIP : Addr → Option HardwareAddr) (id : String) {addr : Addr}
    (haddr : addr.isValid = true) :
    s.find macByIP { clientID := id, remoteIP := addr } = s.findForUpstreams macByIP id addr := by
  have hne : addr ≠ .invalid := by
    rintro rfl
    cases haddr
  have hip : ∀ res : Except Fault (Option (Option Persistent)), Storage.firstFound [res] = res := by
    intro res
    cases res with
    | error e => rfl
    | ok o => cases o <;> rfl
  unfold Storage.find Storage.findForUpstreams Storage.lookups
  by_cases hid : id = ""
  · subst hid
    simp [hne, hip, findByClientID_empty hs]
  · cases s.index.findByClientID id with
    | none => simp [hne, hid, Storage.firstFound, hip]
    | some c => simp [hne, hid, Storage.firstFound]

/-- **The lookups of a client's settings agree.**  In a reachable storage there is one client, or none, that `Find`
returns for a ClientID and an address, that `ApplyClientFiltering` takes the settings from and that
`CustomUpstreamConfig` takes the upstreams of; if the DHCP server reports a hardware address of a wrong length, all
three panic. -/
theorem lookups_agree {validateHostnameLabel : String → Bool} {calls : List Call}
    (hcalls : ∀ call ∈ calls, call.HasSetIDs validateHostnameLabel) (macByIP : Addr → Option HardwareAddr)
    (id : String) {addr : Addr} (haddr : addr.isValid = true) :
    let s := run (step clock parseUpstreams) new calls
    ∃ found : Except Fault (Option Persistent),
      s.find macByIP { clientID := id, remoteIP := addr } = found ∧
      (∀ setts, s.applyClientFiltering macByIP id addr setts = match found with
        | .error e => .error e
        | .ok none => .ok setts
        | .ok (some c) => .ok (Storage.applyClient c setts)) ∧
      s.customUpstreamConfig parseUpstreams macByIP id addr = match found with
        | .error e => (s, .error (.storage e))
        | .ok none => (s, .ok none)
        | .ok (some c) =>
          let (m, res) := s.upstreamManager.customUpstreamConfig parseUpstreams c.uid c.name
          ({ s with upstreamManager := m }, res.mapError .upstreams) := by
  intro s
  refine ⟨_, rfl, fun setts => ?_, ?_⟩
  · rw [find_eq (reachable_searchable hcalls) macByIP id haddr, ← findForFiltering_eq]
    rfl
  · rw [find_eq (reachable_searchable hcalls) macByIP id haddr]
    rfl

/-- A client of one address, with settings of its own. -/
def tablet : Persistent where
  name := "tablet"
  tags := []
  upstreams := ["1.1.1.1"]
  ips := [.v4 0xc0000201#32]
  subnets := []
  macs := []
  clientIDs := []
  uid := 1
  useOwnSettings := true

theorem tablet_hasSetIDs : tablet.HasSetIDs fun _ => true :=
  ⟨["192.0.2.1"], by
    have hparse : parseAddr "192.0.2.1" = some (.v4 0xc0000201#32) := by decide
    simp [Persistent.setIDs, Persistent.setEach, Persistent.setID, hparse, tablet]⟩

theorem lookups_agree_tablet :
    let s := run (step id fun _ => none) new [.add tablet]
    s.find (fun _ => none) { clientID := "", remoteIP := .v4 0xc0000201#32 } = .ok (some tablet) ∧
      s.applyClientFiltering (fun _ => none) "" (.v4 0xc0000201#32) {} = .ok (Storage.applyClient tablet {}) := by
  intro s
  have hvalid : tablet.validate (fun _ => none) sortedAllowedTags = .ok tablet := by
    simp [Persistent.validate, Persistent.identifiersLen, tablet]
  have hadd : s.toStorage = ⟨(Index.new.add tablet).1, sortedAllowedTags⟩ := by
    simp only [s, run, List.foldl_cons, List.foldl_nil, step, add_toStorage, Storage.add, new, Storage.new, hvalid]
    rfl
  have hfind : s.find (fun _ => none) { clientID := "", remoteIP := .v4 0xc0000201#32 } = .ok (some tablet) := by
    rw [hadd]
    rfl
  have hcalls : ∀ call ∈ [Call.add tablet], call.HasSetIDs fun _ => true := by
    simpa [Call.HasSetIDs] using tablet_hasSetIDs
  obtain ⟨found, hfound, hfilter, -⟩ := @lookups_agree id (fun _ => none) (fun _ => true) [.add tablet] hcalls
    (fun _ => none) "" (.v4 0xc0000201#32) rfl
  rw [hfind] at hfound
  subst hfound
  exact ⟨hfind, hfilter {}⟩

end StorageWithUpstreams

end AdGuardHome.Client
