import AdGuardHome.Client.UpstreamManager

/-!
# What the calls do to the stored clients

A call that succeeds stores its client, or takes out one, and leaves the others; a call that fails leaves all.  The
reachable storages with upstreams have coherent indexes, and, as the identifiers of a client come from `SetIDs`, no
client of them has the empty ClientID (`reachable_searchable`).
-/

namespace AdGuardHome.Client

open AdGuardHome.Net AdGuardHome.Lib

theorem Persistent.validate_upstreams {parseUpstreams : List String → Option String} {allTags : List String}
    {c c' : Persistent} (h : c.validate parseUpstreams allTags = .ok c') : parseUpstreams c.upstreams = none := by
  unfold validate at h
  split at h
  · cases h
  split at h
  · cases h
  split at h
  · cases h
  split at h
  · cases h
  · assumption

/-- The identifiers of the client have been set by `SetIDs`. -/
def Persistent.HasSetIDs (validateHostnameLabel : String → Bool) (p : Persistent) : Prop :=
  ∃ ids, ({ p with ips := [], subnets := [], macs := [], clientIDs := [] } : Persistent).setIDs
    validateHostnameLabel ids = .ok p

theorem Persistent.HasSetIDs.clientIDs {validateHostnameLabel : String → Bool} {p : Persistent}
    (h : p.HasSetIDs validateHostnameLabel) : "" ∉ p.clientIDs := by
  obtain ⟨ids, hids⟩ := h
  exact setIDs_clientIDs (by simp) hids

namespace Storage

variable {parseUpstreams : List String → Option String} {s : Storage} {p : Persistent} {name : String}

theorem clashesUID_ok {ci : Index} {c : Persistent} (h : ci.clashesUID c = .ok ()) :
    ci.uidToClient.get c.uid = none := by
  unfold Index.clashesUID at h
  split at h
  · cases h
  · assumption

theorem add_stored (hc : Coherent s.index) (h : (s.add parseUpstreams p).2 = .ok ()) :
    parseUpstreams p.upstreams = none ∧ s.index.uidToClient.get p.uid = none ∧
      ∃ tags, ∀ u, (s.add parseUpstreams p).1.index.uidToClient.get u =
        if u = p.uid then some { p with tags := tags } else s.index.uidToClient.get u := by
  unfold add at h ⊢
  split at h
  · cases h
  rename_i p' hval
  split at h
  · cases h
  rename_i huid
  split at h
  · cases h
  rename_i hclash
  obtain ⟨hne, tags, hp'⟩ := Persistent.validate_ok hval
  have hsame : p'.uid = p.uid := by rw [hp']
  refine ⟨Persistent.validate_upstreams hval, hsame ▸ clashesUID_ok huid, tags, fun u => ?_⟩
  rw [← hp', ← hsame]
  simp only [Index.add_eq (hsame ▸ hne) (Index.clashes_ok hc hclash).macsValid]
  exact GoMap.get_set _ _ _ _

theorem update_stored (hc : Coherent s.index) (h : (s.update parseUpstreams name p).2 = .ok ()) :
    parseUpstreams p.upstreams = none ∧
      ∃ stored tags, s.index.findByName name = some (some stored) ∧
        s.index.uidToClient.get stored.uid = some stored ∧
        ∀ u, (s.update parseUpstreams name p).1.index.uidToClient.get u =
          if u = stored.uid then some { p with uid := stored.uid, tags := tags }
          else s.index.uidToClient.get u := by
  unfold update at h ⊢
  split at h
  · cases h
  rename_i p' hval
  split at h
  · cases h
  · cases h
  rename_i stored hfound
  obtain ⟨c, hsome, hstored⟩ := findByName_stored hc hfound
  obtain rfl := Option.some.inj hsome
  simp only at h
  split at h
  · cases h
  rename_i hclash
  obtain ⟨-, tags, hp'⟩ := Persistent.validate_ok hval
  have hsame : ({ p with uid := stored.uid, tags := tags } : Persistent) = { p' with uid := stored.uid } := by
    rw [hp']
  refine ⟨Persistent.validate_upstreams hval, stored, tags, hfound, hstored, fun u => ?_⟩
  simp only [hsame, hclash, Index.remove_eq (hc.macsValid _ _ hstored),
    Index.add_eq (c := { p' with uid := stored.uid }) (hc.uid _ _ hstored).2 (Index.clashes_ok hc hclash).macsValid]
  rw [GoMap.get_set]
  split
  · rfl
  · rename_i hne
    exact GoMap.get_del_ne _ hne

theorem removeByName_stored (hc : Coherent s.index) (h : (s.removeByName name).2 = .ok true) :
    ∃ p, s.index.findByName name = some (some p) ∧ s.index.uidToClient.get p.uid = some p ∧
      ∀ u, (s.removeByName name).1.index.uidToClient.get u =
        if u = p.uid then none else s.index.uidToClient.get u := by
  unfold removeByName at h ⊢
  split at h
  · cases h
  · cases h
  rename_i p hfound
  obtain ⟨c, hsome, hstored⟩ := findByName_stored hc hfound
  obtain rfl := Option.some.inj hsome
  refine ⟨p, hfound, hstored, fun u => ?_⟩
  simp only [Index.remove_eq (hc.macsValid _ _ hstored)]
  exact GoMap.get_del ..

end Storage

namespace StorageWithUpstreams

variable {clock : ℕ → ℕ} {parseUpstreams : List String → Option String} {s : StorageWithUpstreams}

/-! ## The storage inside -/

theorem add_toStorage (p : Persistent) :
    (s.add parseUpstreams p).1.toStorage = (s.toStorage.add parseUpstreams p).1 := by
  unfold add
  split <;> rename_i heq <;> rw [heq]

theorem update_toStorage (name : String) (p : Persistent) :
    (s.update parseUpstreams name p).1.toStorage = (s.toStorage.update parseUpstreams name p).1 := by
  unfold update
  split
  · rename_i heq
    rw [heq]
  · rename_i heq _
    rw [heq]

theorem removeByName_toStorage (name : String) :
    (s.removeByName name).1.toStorage = (s.toStorage.removeByName name).1 := by
  unfold removeByName
  split
  · rename_i heq
    rw [heq]
  · rename_i heq _
    rw [heq]

theorem customUpstreamConfig_toStorage (macByIP : Addr → Option HardwareAddr) (id : String) (addr : Addr) :
    (s.customUpstreamConfig parseUpstreams macByIP id addr).1.toStorage = s.toStorage := by
  unfold customUpstreamConfig
  split <;> rfl

theorem step_coherent (hc : Coherent s.index) (call : Call) :
    Coherent (s.step clock parseUpstreams call).index := by
  cases call with
  | add p =>
    simp only [step, add_toStorage]
    exact (Storage.add_spec hc p).1
  | update name p =>
    simp only [step, update_toStorage]
    exact (Storage.update_spec hc name p).1
  | removeByName name =>
    simp only [step, removeByName_toStorage]
    exact (Storage.removeByName_spec hc name).1
  | updateCommonUpstreamConfig conf => exact hc
  | customUpstreamConfig macByIP id addr =>
    simp only [step, customUpstreamConfig_toStorage]
    exact hc

/-! ## ClientIDs -/

/-- The identifiers of the client of the call, if it has one, have been set by `SetIDs`. -/
def Call.HasSetIDs (validateHostnameLabel : String → Bool) : Call → Prop
  | .add p | .update _ p => p.HasSetIDs validateHostnameLabel
  | _ => True

/-- No client has the empty ClientID. -/
def NoEmptyClientID (s : StorageWithUpstreams) : Prop :=
  ∀ u c, s.index.uidToClient.get u = some c → "" ∉ c.clientIDs

theorem step_noEmptyClientID {validateHostnameLabel : String → Bool} (hc : Coherent s.index)
    (hs : s.NoEmptyClientID) {call : Call} (hcall : call.HasSetIDs validateHostnameLabel) :
    (s.step clock parseUpstreams call).NoEmptyClientID := by
  intro u c hu
  cases call with
  | add p =>
    simp only [step, add_toStorage] at hu
    cases hres : (s.toStorage.add parseUpstreams p).2 with
    | error e =>
      rw [(Storage.add_spec hc p).2 (by rw [hres]; rfl)] at hu
      exact hs u c hu
    | ok _ =>
      obtain ⟨-, -, tags, hget⟩ := Storage.add_stored hc hres
      rw [hget u] at hu
      split at hu
      · cases hu
        exact hcall.clientIDs
      · exact hs u c hu
  | update name p =>
    simp only [step, update_toStorage] at hu
    cases hres : (s.toStorage.update parseUpstreams name p).2 with
    | error e =>
      rw [(Storage.update_spec hc name p).2 (by rw [hres]; rfl)] at hu
      exact hs u c hu
    | ok _ =>
      obtain ⟨-, stored, tags, -, -, hget⟩ := Storage.update_stored hc hres
      rw [hget u] at hu
      split at hu
      · cases hu
        exact hcall.clientIDs
      · exact hs u c hu
  | removeByName name =>
    simp only [step, removeByName_toStorage] at hu
    by_cases hres : (s.toStorage.removeByName name).2 = .ok true
    · obtain ⟨p, -, -, hget⟩ := Storage.removeByName_stored hc hres
      rw [hget u] at hu
      split at hu
      · cases hu
      · exact hs u c hu
    · rw [(Storage.removeByName_spec hc name).2 hres] at hu
      exact hs u c hu
  | updateCommonUpstreamConfig conf => exact hs u c hu
  | customUpstreamConfig macByIP id addr =>
    simp only [step, customUpstreamConfig_toStorage] at hu
    exact hs u c hu

/-- What the lookups need of a storage. -/
structure Searchable (s : StorageWithUpstreams) : Prop where
  coherent : Coherent s.index
  noEmptyClientID : s.NoEmptyClientID

theorem reachable_searchable {validateHostnameLabel : String → Bool} {calls : List Call}
    (hcalls : ∀ call ∈ calls, call.HasSetIDs validateHostnameLabel) :
    (run (step clock parseUpstreams) new calls).Searchable :=
  run_invariant_of_meets
    (fun _ call hs (hcall : call.HasSetIDs validateHostnameLabel) =>
      ⟨step_coherent hs.coherent call, step_noEmptyClientID hs.coherent hs.noEmptyClientID hcall⟩)
    ⟨Index.new_coherent, fun u c hu => by simp [new, Storage.new, Index.new] at hu⟩
    (meets_of_forall (fun call hcall _ => hcalls call hcall) _)

end StorageWithUpstreams

end AdGuardHome.Client
