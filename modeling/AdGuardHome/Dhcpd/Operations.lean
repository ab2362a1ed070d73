import AdGuardHome.Dhcpd.V4Server

/-!
# What the lease operations can do

One lemma for each operation that says how the state after it comes from the state before it.  The loops of
`rmDynamicLease` and `handleRelease` and the turns of `allocateLease` get a rule each: a property that every
primitive keeps holds after the loop.
-/

namespace AdGuardHome.Dhcpd.V4Server

open AdGuardHome.Net AdGuardHome.Lib AdGuardHome.Dhcp AdGuardHome.Aghnet

variable {env : HostEnv} {conf : V4ServerConf} {s : V4Server}

/-! ## Records -/

theorem lease_modify (s : V4Server) (r r' : Ref) (f : Lease → Lease) :
    (s.modify r f).lease r' = if r' = r then f (s.lease r) else s.lease r' := Heap.get_modify s.heap r r' f

@[simp] theorem lease_alloc_next (s : V4Server) (l : Lease) : (s.alloc l).lease s.heap.next = l :=
  Heap.get_alloc_next s.heap l

theorem lease_alloc_of_lt (s : V4Server) {r : Ref} (hr : r < s.heap.next) (l : Lease) :
    (s.alloc l).lease r = s.lease r := Heap.get_alloc_of_lt s.heap hr l

@[simp] theorem leases_alloc (s : V4Server) (l : Lease) : (s.alloc l).leases = s.leases := rfl

/-! ## Removing -/

theorem rmLeaseByIndex_of_some {i : ℕ} {r : Ref} (h : s.leases[i]? = some r) :
    s.rmLeaseByIndex conf i =
      { s with
        leases := s.leases.eraseIdx i
        leasedOffsets :=
          if conf.inRange (s.lease r).ip then
            s.leasedOffsets.set (conf.ipRange.offset (to16 (s.lease r).ip)).1 false
          else s.leasedOffsets
        hostsIndex := s.hostsIndex.del (s.lease r).hostname
        ipIndex := s.ipIndex.del (s.lease r).ip } := by
  have hin : (conf.ipRange.offset (to16 (s.lease r).ip)).2 = conf.inRange (s.lease r).ip :=
    IPRange.offset_snd _
  simp only [rmLeaseByIndex, h, hin]

theorem rmLeaseByIndex_of_none {i : ℕ} (h : s.leases[i]? = none) : s.rmLeaseByIndex conf i = s := by
  simp only [rmLeaseByIndex, h]

@[simp] theorem heap_rmLeaseByIndex (s : V4Server) (i : ℕ) : (s.rmLeaseByIndex conf i).heap = s.heap := by
  cases h : s.leases[i]? with
  | none => rw [rmLeaseByIndex_of_none h]
  | some r => rw [rmLeaseByIndex_of_some h]

@[simp] theorem lease_rmLeaseByIndex (s : V4Server) (i : ℕ) (r : Ref) :
    (s.rmLeaseByIndex conf i).lease r = s.lease r := by
  unfold lease
  rw [heap_rmLeaseByIndex]

@[simp] theorem leases_rmLeaseByIndex (s : V4Server) (i : ℕ) :
    (s.rmLeaseByIndex conf i).leases = s.leases.eraseIdx i := by
  cases h : s.leases[i]? with
  | none =>
    rw [rmLeaseByIndex_of_none h]
    exact (List.eraseIdx_of_length_le (List.getElem?_eq_none_iff.1 h)).symm
  | some r => rw [rmLeaseByIndex_of_some h]

theorem ipIndex_rmLeaseByIndex {i : ℕ} {r : Ref} (h : s.leases[i]? = some r) :
    (s.rmLeaseByIndex conf i).ipIndex = s.ipIndex.del (s.lease r).ip := by rw [rmLeaseByIndex_of_some h]

theorem hostsIndex_rmLeaseByIndex {i : ℕ} {r : Ref} (h : s.leases[i]? = some r) :
    (s.rmLeaseByIndex conf i).hostsIndex = s.hostsIndex.del (s.lease r).hostname := by
  rw [rmLeaseByIndex_of_some h]

theorem leasedOffsets_rmLeaseByIndex {i : ℕ} {r : Ref} (h : s.leases[i]? = some r) :
    (s.rmLeaseByIndex conf i).leasedOffsets =
      if conf.inRange (s.lease r).ip then s.leasedOffsets.set (conf.ipRange.offset (to16 (s.lease r).ip)).1 false
      else s.leasedOffsets := by rw [rmLeaseByIndex_of_some h]

theorem rmLease_cases (s : V4Server) (l : Lease) :
    (∃ e, s.rmLease conf l = (s, .error e)) ∨ (s.leases = [] ∧ s.rmLease conf l = (s, .ok ())) ∨
      ∃ i r, s.leases[i]? = some r ∧ (s.lease r).ip = l.ip ∧ (s.lease r).hwAddr = l.hwAddr ∧
        (s.lease r).hostname = l.hostname ∧ s.rmLease conf l = (s.rmLeaseByIndex conf i, .ok ()) := by
  unfold rmLease
  by_cases hnil : s.leases = []
  · exact .inr (.inl ⟨hnil, by rw [if_pos hnil]⟩)
  rw [if_neg hnil]
  cases hi : s.leases.findIdx? fun r => (s.lease r).ip == l.ip with
  | none => exact .inl ⟨_, rfl⟩
  | some i =>
    dsimp only
    cases hr : s.leases[i]? with
    | none => exact .inl ⟨_, rfl⟩
    | some r =>
      dsimp only
      split
      · exact .inl ⟨_, rfl⟩
      · rename_i hsame
        rw [not_or, not_not, not_not] at hsame
        obtain ⟨hlt, hip, -⟩ := List.findIdx?_eq_some_iff_getElem.1 hi
        rw [List.getElem?_eq_getElem hlt, Option.some_inj] at hr
        rw [hr] at hip
        exact .inr (.inr ⟨i, r, by rw [List.getElem?_eq_getElem hlt, hr], by simpa using hip, hsame.1, hsame.2, rfl⟩)

/-! ## Adding -/

/-- A refused lease leaves the state as it was; a stored one passed every check. -/
theorem addLease_cases (s : V4Server) (r : Ref) :
    (∃ e, s.addLease conf r = (s, .error e)) ∨
      (s.addLease conf r = (s.store r (conf.ipRange.offset (to16 (s.lease r).ip)).1, .ok ()) ∧
        ((s.lease r).isStatic = true → conf.subnet.contains (s.lease r).ip = true) ∧
        ((s.lease r).isStatic = false → conf.inRange (s.lease r).ip = true) ∧
        ((s.lease r).hostname ≠ "" → s.hostsIndex.get (s.lease r).hostname = none)) := by
  have hin : (conf.ipRange.offset (to16 (s.lease r).ip)).2 = conf.inRange (s.lease r).ip :=
    IPRange.offset_snd _
  unfold addLease
  simp only [hin]
  split
  · exact .inl ⟨_, rfl⟩
  rename_i hsub
  split
  · exact .inl ⟨_, rfl⟩
  rename_i hrange
  split
  · exact .inl ⟨_, rfl⟩
  rename_i hhost
  refine .inr ⟨rfl, fun hst => ?_, fun hst => ?_, fun hne => ?_⟩
  · simpa [hst] using hsub
  · simpa [hst] using hrange
  · simpa [hne] using hhost

/-! ## Loops -/

/-- A property that removals and clearings keep holds after the loop of `rmDynamicLease`. -/
theorem rmDynamicLoop_invariant {I : V4Server → Prop} {p : Ref} (hrm : ∀ s i, I s → I (s.rmLeaseByIndex conf i))
    (hclear : ∀ s r, I s → I (s.clearHostname p r)) (k i : ℕ) (s : V4Server) (stale : List Ref) (h : I s) :
    I (rmDynamicLoop conf p k i s stale).1 := by
  induction k generalizing i s stale with
  | zero => exact h
  | succ k ih =>
    unfold rmDynamicLoop
    dsimp only
    split
    · exact h
    · split
      · split
        · exact h
        · split
          · exact hrm s i h
          · split
            · exact hrm s i h
            · exact ih _ _ _ (hclear _ _ (hrm s i h))
      · apply ih
        split
        · exact h
        · exact hclear _ _ h

theorem rmDynamicLease_invariant {I : V4Server → Prop} {p : Ref} (hrm : ∀ s i, I s → I (s.rmLeaseByIndex conf i))
    (hclear : ∀ s r, I s → I (s.clearHostname p r)) (h : I s) : I (s.rmDynamicLease conf p).1 :=
  rmDynamicLoop_invariant hrm hclear _ _ _ _ h

/-- A property that every `rmDynamicLease` keeps holds after the loop of `handleRelease`. -/
theorem releaseLoop_invariant {I : V4Server → Prop} (hrm : ∀ s p, I s → I (s.rmDynamicLease conf p).1)
    (mac : HardwareAddr) (ip : Addr) (k i : ℕ) (s : V4Server) (stale : List Ref) (h : I s) :
    I (releaseLoop conf mac ip k i s stale).1 := by
  induction k generalizing i s stale with
  | zero => exact h
  | succ k ih =>
    unfold releaseLoop
    split
    · exact h
    · rename_i r _
      split
      · exact ih _ _ _ h
      · have hr := hrm s r h
        split
        · rename_i s' _ _ heq; rw [heq] at hr; exact hr
        · rename_i s' _ heq; rw [heq] at hr; exact ih _ _ _ hr

theorem allocateLease_invariant {I : V4Server → Prop} {mac : HardwareAddr}
    (hres : ∀ s now, I s → I (s.reserveLease conf mac now).1)
    (hblock : ∀ s r now, I s → I (s.blocklistLease conf r now)) (now : Time) (probes : List Answered)
    (s : V4Server) (h : I s) : I (allocateLease conf mac now probes s).1 := by
  induction probes generalizing s with
  | nil => exact hres s now h
  | cons p ps ih =>
    have hr := hres s p.reservedAt h
    unfold allocateLease
    split <;> rename_i heq <;> rw [heq] at hr
    · exact hr
    · exact hr
    · split
      · exact hr
      · exact ih _ (hblock _ _ _ hr)

/-- A reservation takes nothing, an expired lease of the list, or a new lease on the next address. -/
theorem reserveLease_cases (s : V4Server) (mac : HardwareAddr) (now : Time) :
    s.reserveLease conf mac now = (s, .ok none) ∨
      (∃ r ∈ s.leases, (s.lease r).isStatic = false ∧ s.reserveLease conf mac now =
        (s.modify r fun l => { l with hwAddr := copyBytes l.hwAddr mac }, .ok (some r))) ∨
      ∃ ip, s.nextIP conf = some ip ∧
        (s.reserveLease conf mac now).1 =
          ((s.alloc { (default : Lease) with ip := .v4 ip, hwAddr := mac }).addLease conf s.heap.next).1 := by
  unfold reserveLease
  cases hip : s.nextIP conf with
  | none =>
    dsimp only
    cases hex : s.findExpiredLease now with
    | none => exact .inl rfl
    | some r =>
      obtain ⟨hst, -⟩ : (s.lease r).isStatic = false ∧ (s.lease r).expiry < now := by
        have hfound := List.find?_some hex
        simpa using hfound
      exact .inr (.inl ⟨r, List.mem_of_find?_eq_some hex, hst, rfl⟩)
  | some ip =>
    refine .inr (.inr ⟨ip, rfl, ?_⟩)
    dsimp only
    split <;> rename_i heq <;> rw [heq]

theorem lease_commitLease (s : V4Server) (r x : Ref) (name : String) (now : Time) :
    (s.commitLease env conf r name now).lease x =
      if x = r then
        { s.lease r with hostname := committedHostname env s (s.lease r) name, expiry := now + conf.leaseTime }
      else s.lease x := by
  unfold commitLease lease
  dsimp only
  rw [Heap.get_modify]

/-- A request is answered with a lease of the list. -/
theorem mem_of_checkLease {mac : HardwareAddr} {ip : Option (BitVec 32)} {r : Ref} {b : Bool}
    (h : s.checkLease mac ip = (some r, b)) : r ∈ s.leases := by
  unfold checkLease at h
  split at h
  · cases h
  · split at h
    · cases h
    · rename_i r' hr'
      split at h
      · cases h; exact List.mem_of_find?_eq_some hr'
      · cases h

theorem mem_of_handleByRequestType {req : Request} {r : Ref} {b : Bool}
    (h : s.handleByRequestType conf req = (some r, b)) : r ∈ s.leases := by
  unfold handleByRequestType at h
  split at h
  · unfold handleSelecting at h
    split at h <;> try cases h
    split at h <;> try cases h
    split at h <;> try cases h
    split at h
    · cases h
    · rename_i hc; cases h; exact mem_of_checkLease hc
  · unfold handleInitReboot at h
    split at h <;> try cases h
    split at h <;> try cases h
    split at h <;> try cases h
    rename_i hc
    exact mem_of_checkLease hc
  · unfold handleRenew at h
    split at h <;> try cases h
    split at h <;> try cases h
    rename_i hc
    exact mem_of_checkLease hc

/-! ## Messages and static leases -/

section Rules

variable {P : V4Server → Prop}

/-- A DISCOVER changes nothing, or allocates a lease. -/
theorem discover_rule {mac : HardwareAddr} {now : Time} {probes : List Answered} (hsame : P s)
    (hnew : s.findLease mac = none → P (allocateLease conf mac now probes s).1) :
    P (s.handleDiscover conf mac now probes).1 := by
  unfold handleDiscover
  split
  · exact hsame
  · rename_i hfind
    exact hnew hfind

/-- A REQUEST changes nothing, or commits a dynamic lease. -/
theorem request_rule {req : Request} {now : Time} (hsame : P s)
    (hcommit : ∀ r b, s.handleByRequestType conf req = (some r, b) → ¬ (s.lease r).isStatic = true →
      P (s.commitLease env conf r req.hostName now)) : P (s.handleRequest env conf req now).1 := by
  unfold handleRequest
  split
  · exact hsame
  · rename_i r b hr
    split
    · exact hsame
    · rename_i hdynamic
      exact hcommit r b hr hdynamic

/-- A RELEASE changes nothing, or removes the leases on its address. -/
theorem release_rule {req : Request} (hsame : P s)
    (hloop : ∀ ip, req.ip = some ip → P (releaseLoop conf req.mac (.v4 ip) s.leases.length 0 s []).1) :
    P (s.handleRelease conf req).1 := by
  unfold handleRelease
  split
  · exact hsame
  · rename_i ip hip
    exact hloop ip hip

theorem removeStatic_rule {l : Lease} (hsame : P s) (hremove : P (s.rmLease conf l).1) :
    P (s.removeStaticLease conf l).1 := by
  unfold removeStaticLease
  split
  · exact hsame
  · split
    · exact hsame
    · exact hremove

end Rules

end AdGuardHome.Dhcpd.V4Server
