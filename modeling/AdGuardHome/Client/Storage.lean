import AdGuardHome.Client.Index
import AdGuardHome.Lib.Run

/-!
# The storage of clients (`internal/client/storage.go`)

`Add`, `Update` and `RemoveByName` over the index.  A call gets a client of its own, as the callers in
`internal/home` build a new one for each call, so clients are values here.  The index of every reachable
storage is coherent, and a call that fails leaves it as it was (`reachable_coherent`).
-/

namespace AdGuardHome.Client

open AdGuardHome.Net AdGuardHome.Lib

/-- `Storage`, with what the persistent clients need. -/
structure Storage where
  index : Index
  allowedTags : List String

/-- `allowedTags`, sorted by `NewStorage`. -/
def sortedAllowedTags : List String :=
  ["device_audio", "device_camera", "device_gameconsole", "device_laptop", "device_nas", "device_other",
    "device_pc", "device_phone", "device_printer", "device_securityalarm", "device_tablet", "device_tv",
    "os_android", "os_ios", "os_linux", "os_macos", "os_other", "os_windows", "user_admin", "user_child",
    "user_regular"]

namespace Storage

/-- `NewStorage` without initial clients. -/
def new : Storage := ⟨Index.new, sortedAllowedTags⟩

section Operations

-- The error of `proxy.ParseUpstreamsConfig` on a list of upstreams, if it returns one.
variable (parseUpstreams : List String → Option String)

/-- `Storage.Add`. -/
def add (s : Storage) (p : Persistent) : Storage × Except Fault Unit :=
  match p.validate parseUpstreams s.allowedTags with
  | .error e => (s, .error (.err e))
  | .ok p =>
    match s.index.clashesUID p with
    | .error e => (s, .error e)
    | .ok () =>
      match s.index.clashes p with
      | .error e => (s, .error e)
      | .ok () =>
        let (index, res) := s.index.add p
        ({ s with index := index }, res)

/-- `Storage.Update`. -/
def update (s : Storage) (name : String) (p : Persistent) : Storage × Except Fault Unit :=
  match p.validate parseUpstreams s.allowedTags with
  | .error e => (s, .error (.err e))
  | .ok p =>
    match s.index.findByName name with
    | none => (s, .error (.err (.notFound name)))
    | some none => (s, .error .nilClient)
    | some (some stored) =>
      let p := { p with uid := stored.uid }
      match s.index.clashes p with
      | .error e => (s, .error e)
      | .ok () =>
        match s.index.remove stored with
        | (index, .error e) => ({ s with index := index }, .error e)
        | (index, .ok ()) =>
          let (index, res) := index.add p
          ({ s with index := index }, res)

/-- `Storage.RemoveByName`. -/
def removeByName (s : Storage) (name : String) : Storage × Except Fault Bool :=
  match s.index.findByName name with
  | none => (s, .ok false)
  | some none => (s, .error .nilClient)
  | some (some p) =>
    match s.index.remove p with
    | (index, .error e) => ({ s with index := index }, .error e)
    | (index, .ok ()) => ({ s with index := index }, .ok true)

/-- A call of the storage. -/
inductive Op
  | add (p : Persistent)
  | update (name : String) (p : Persistent)
  | removeByName (name : String)

/-- A call's effect and whether it succeeded: it returned no error, or true. -/
def step (s : Storage) : Op → Storage × Bool
  | .add p => let (s', res) := s.add parseUpstreams p; (s', res.isOk)
  | .update name p => let (s', res) := s.update parseUpstreams name p; (s', res.isOk)
  | .removeByName name => let (s', res) := s.removeByName name; (s', res matches .ok true)

/-- The storage after a sequence of calls. -/
def after (ops : List Op) : Storage := run (fun s o => (step parseUpstreams s o).1) new ops

end Operations

/-! ## One call -/

section Steps

variable {parseUpstreams : List String → Option String} {s : Storage}

theorem add_spec (hc : Coherent s.index) (p : Persistent) :
    Coherent (s.add parseUpstreams p).1.index ∧
      ((s.add parseUpstreams p).2.isOk = false → (s.add parseUpstreams p).1.index = s.index) := by
  unfold add
  split
  · exact ⟨hc, fun _ => rfl⟩
  rename_i p' hval
  split
  · exact ⟨hc, fun _ => rfl⟩
  rename_i huid
  split
  · exact ⟨hc, fun _ => rfl⟩
  rename_i hclash
  obtain ⟨hne, tags, hp'⟩ := Persistent.validate_ok hval
  have hne' : p'.uid ≠ 0 := by rw [hp']; exact hne
  have hfree : s.index.uidToClient.get p'.uid = none := by
    unfold Index.clashesUID at huid
    split at huid
    · cases huid
    · assumption
  -- an identifier that clashes with no other client belongs to no client, as the UID is free
  have hno := Index.clashes_ok hc hclash
  have hnone : ∀ {I : Type} [DecidableEq I] {m : GoMap I UID} {ids : Persistent → List I}
      {l : List I}, Inverts m s.index.uidToClient ids → Index.FreeFor m l p'.uid →
      ∀ i ∈ l, m.get i = none := by
    intro I _ m ids l hinv hf i hi
    cases hw : m.get i with
    | none => rfl
    | some w =>
      obtain ⟨d, hd⟩ := Index.client_of_inverts hinv hw
      rw [hf i hi w hw, hfree] at hd
      cases hd
  obtain ⟨hcoh, hok⟩ := Index.add_coherent hc hne' hfree hno.macsValid (hnone hc.name hno.name)
    (hnone hc.clientID hno.clientID) (hnone hc.ip hno.ip) (hnone hc.mac hno.mac)
    (hnone hc.subnet hno.subnet)
  refine ⟨hcoh, fun hfail => ?_⟩
  simp only [hok] at hfail
  cases hfail

/-- The client that `findByName` finds is the stored one of that name, under its own UID. -/
theorem findByName_stored (hc : Coherent s.index) {name : String} {o : Option Persistent}
    (h : s.index.findByName name = some o) :
    ∃ c, o = some c ∧ s.index.uidToClient.get c.uid = some c := by
  simp only [Index.findByName, Option.map_eq_some_iff] at h
  obtain ⟨u, hu, rfl⟩ := h
  obtain ⟨c, hcu⟩ := Index.client_of_inverts hc.name hu
  exact ⟨c, hcu, by rw [(hc.uid u c hcu).1]; exact hcu⟩

theorem update_spec (hc : Coherent s.index) (name : String) (p : Persistent) :
    Coherent (s.update parseUpstreams name p).1.index ∧
      ((s.update parseUpstreams name p).2.isOk = false →
        (s.update parseUpstreams name p).1.index = s.index) := by
  unfold update
  split
  · exact ⟨hc, fun _ => rfl⟩
  rename_i p' hval
  split
  · exact ⟨hc, fun _ => rfl⟩
  · exact ⟨hc, fun _ => rfl⟩
  rename_i stored hfound
  obtain ⟨c, hc', hstored⟩ := findByName_stored hc hfound
  obtain rfl := Option.some.inj hc'
  simp only
  split
  · exact ⟨hc, fun _ => rfl⟩
  rename_i hclash
  have hno := Index.clashes_ok hc hclash
  obtain ⟨-, hremok⟩ := Index.remove_coherent hc hstored
  obtain ⟨hcoh, hok⟩ := Index.replace_coherent (c := { p' with uid := stored.uid }) hc hstored rfl hno
  split
  · rename_i index e hrem
    rw [hrem] at hremok
    cases hremok
  · rename_i index hrem
    rw [hrem] at hcoh hok
    refine ⟨hcoh, fun hfail => ?_⟩
    simp only [hok] at hfail
    cases hfail

theorem removeByName_spec (hc : Coherent s.index) (name : String) :
    Coherent (s.removeByName name).1.index ∧
      ((s.removeByName name).2 ≠ .ok true → (s.removeByName name).1.index = s.index) := by
  unfold removeByName
  split
  · exact ⟨hc, fun _ => rfl⟩
  · exact ⟨hc, fun _ => rfl⟩
  rename_i p hfound
  obtain ⟨c, hc', hstored⟩ := findByName_stored hc hfound
  obtain rfl := Option.some.inj hc'
  obtain ⟨hcoh, hok⟩ := Index.remove_coherent hc hstored
  split
  · rename_i index e hrem
    rw [hrem] at hok
    cases hok
  · rename_i index hrem
    rw [hrem] at hcoh
    exact ⟨hcoh, fun hfail => absurd rfl hfail⟩

/-- One call keeps the index coherent, and a failed one leaves it as it is. -/
theorem step_spec (hc : Coherent s.index) (o : Op) :
    Coherent (s.step parseUpstreams o).1.index ∧
      ((s.step parseUpstreams o).2 = false → (s.step parseUpstreams o).1.index = s.index) := by
  cases o with
  | add p => exact add_spec hc p
  | update name p => exact update_spec hc name p
  | removeByName name =>
    obtain ⟨h₁, h₂⟩ := removeByName_spec hc name
    refine ⟨h₁, fun hfail => h₂ fun hok => ?_⟩
    simp [step, hok] at hfail

end Steps

/-! ## Every sequence of calls -/

/-- No name and no identifier belongs to two stored clients. -/
def NoShared (ci : Index) : Prop :=
  ∀ u₁ u₂ c₁ c₂, ci.uidToClient.get u₁ = some c₁ → ci.uidToClient.get u₂ = some c₂ → u₁ ≠ u₂ →
    c₁.name ≠ c₂.name ∧ c₁.clientIDs.Disjoint c₂.clientIDs ∧ c₁.ips.Disjoint c₂.ips ∧
      c₁.macs.Disjoint c₂.macs ∧ c₁.subnets.Disjoint c₂.subnets

theorem noShared_of_coherent {ci : Index} (hc : Coherent ci) : NoShared ci := by
  intro u₁ u₂ c₁ c₂ h₁ h₂ hne
  refine ⟨fun hn => hne (hc.name.owner_unique h₁ h₂ (List.mem_singleton_self _) (by simp [hn])),
    fun i hi₁ hi₂ => hne (hc.clientID.owner_unique h₁ h₂ hi₁ hi₂),
    fun i hi₁ hi₂ => hne (hc.ip.owner_unique h₁ h₂ hi₁ hi₂), fun mac hm₁ hm₂ => ?_,
    fun i hi₁ hi₂ => hne (hc.subnet.owner_unique h₁ h₂ hi₁ hi₂)⟩
  obtain ⟨k, hk⟩ := Option.isSome_iff_exists.1 (hc.macsValid u₁ c₁ h₁ mac hm₁)
  exact hne (hc.mac.owner_unique h₁ h₂ (List.mem_filterMap.2 ⟨mac, hm₁, hk⟩)
    (List.mem_filterMap.2 ⟨mac, hm₂, hk⟩))

/-- **The index of clients is always coherent.**  After any calls of `Add`, `Update` and `RemoveByName` on
an empty storage every identifier map is the inverse of the client map, no two stored clients share a name
or an identifier, and the next call, if it fails, leaves all six maps as they are. -/
theorem reachable_coherent (parseUpstreams : List String → Option String) (ops : List Op) :
    Coherent (after parseUpstreams ops).index ∧ NoShared (after parseUpstreams ops).index ∧
      ∀ o, ((after parseUpstreams ops).step parseUpstreams o).2 = false →
        ((after parseUpstreams ops).step parseUpstreams o).1.index = (after parseUpstreams ops).index := by
  have hc : Coherent (after parseUpstreams ops).index :=
    run_invariant (I := fun s : Storage => Coherent s.index) (fun _ o hs => (step_spec hs o).1)
      Index.new_coherent ops
  exact ⟨hc, noShared_of_coherent hc, fun o => (step_spec hc o).2⟩

end Storage

end AdGuardHome.Client
