import AdGuardHome.Dhcpsvc.Server

/-!
# What the lease operations of the DHCP service can do

The state after each primitive, and one lemma for each fallible operation that says what it has checked when
it succeeds.
-/

namespace AdGuardHome.Dhcpsvc.DHCPServer

open AdGuardHome.Net AdGuardHome.Lib AdGuardHome.Dhcp

variable {toLower : GoString → GoString} {conf : ServerConf} {s : DHCPServer}

/-! ## Records and interfaces -/

/-- The interface has the lease under the key. -/
def Stored (s : DHCPServer) (i : Ref) (k : MacKey) (r : Ref) : Prop := (s.iface i).leases.get k = some r

theorem Stored.isSome {i : Ref} {k : MacKey} {r : Ref} (h : s.Stored i k r) : ((s.iface i).leases.get k).isSome := by
  unfold Stored at h
  rw [h]
  rfl

theorem not_stored_empty (i : Ref) (k : MacKey) (r : Ref) : ¬ empty.Stored i k r := by
  intro h
  have hget : (empty.iface i).leases.get k = none := GoMap.get_empty k
  rw [Stored, hget] at h
  cases h

theorem lease_modify (s : DHCPServer) (r r' : Ref) (f : Lease → Lease) :
    (s.modify r f).lease r' = if r' = r then f (s.lease r) else s.lease r' := Heap.get_modify s.heap r r' f

@[simp] theorem lease_alloc_next (s : DHCPServer) (l : Lease) : (s.alloc l).lease s.heap.next = l :=
  Heap.get_alloc_next s.heap l

theorem lease_alloc_of_lt (s : DHCPServer) {r : Ref} (hr : r < s.heap.next) (l : Lease) :
    (s.alloc l).lease r = s.lease r := Heap.get_alloc_of_lt s.heap hr l

theorem iface_modifyIface (s : DHCPServer) (i j : Ref) (f : NetInterface → NetInterface) :
    (s.modifyIface i f).iface j = if j = i then f (s.iface i) else s.iface j := Heap.get_modify s.ifaces i j f

/-- A write under a key of an interface. -/
theorem stored_modifyIface_set {i j : Ref} {key k : MacKey} {r x : Ref} {f : NetInterface → NetInterface}
    (hf : ∀ n, (f n).leases = n.leases.set key r) :
    (s.modifyIface i f).Stored j k x ↔ (j = i ∧ k = key ∧ x = r) ∨ (s.Stored j k x ∧ ¬(j = i ∧ k = key)) := by
  unfold Stored
  rw [iface_modifyIface]
  by_cases hj : j = i
  · subst hj
    rw [if_pos rfl, hf, GoMap.get_set]
    by_cases hk : k = key
    · simp [hk, eq_comm]
    · simp [hk]
  · simp [hj]

/-- Marks stay, and the one that is set is there. -/
theorem isSet_modifyIface_set {i j : Ref} {n b : BitVec 64} {f : NetInterface → NetInterface}
    (hf : ∀ n, (f n).leasedOffsets = n.leasedOffsets.set b true) :
    ((s.modifyIface i f).iface j).leasedOffsets.isSet n =
      if j = i ∧ n = b then true else (s.iface j).leasedOffsets.isSet n := by
  rw [iface_modifyIface]
  by_cases hj : j = i
  · subst hj
    rw [if_pos rfl, hf, BitSet.isSet_set]
    by_cases hn : n = b <;> simp [hn]
  · simp [hj]

/-- The state after `ifaceRemoveLease`. -/
def dropped (conf : ServerConf) (s : DHCPServer) (i : Ref) (key : MacKey) (ip : Addr) : DHCPServer :=
  s.modifyIface i fun n => { leases := n.leases.del key, leasedOffsets := n.leasedOffsets.set (bit conf i ip) false }

theorem stored_dropped {i j : Ref} {key k : MacKey} {ip : Addr} {x : Ref} :
    (s.dropped conf i key ip).Stored j k x ↔ s.Stored j k x ∧ ¬(j = i ∧ k = key) := by
  unfold Stored dropped
  rw [iface_modifyIface]
  by_cases hj : j = i
  · subst hj
    rw [if_pos rfl, GoMap.get_del]
    by_cases hk : k = key <;> simp [hk]
  · simp [hj]

theorem isSet_dropped {i j : Ref} {key : MacKey} {ip : Addr} {n : BitVec 64} :
    ((s.dropped conf i key ip).iface j).leasedOffsets.isSet n =
      if j = i ∧ n = bit conf i ip then false else (s.iface j).leasedOffsets.isSet n := by
  unfold dropped
  rw [iface_modifyIface]
  by_cases hj : j = i
  · subst hj
    rw [if_pos rfl, BitSet.isSet_set]
    by_cases hn : n = bit conf j ip <;> simp [hn]
  · simp [hj]

/-! ## Successful operations -/

theorem ifaceRemoveLease_ok {i : Ref} {l : Lease} {s' : DHCPServer} (h : s.ifaceRemoveLease conf i l = .ok s') :
    ∃ key, macToKey l.hwAddr = some key ∧ ((s.iface i).leases.get key).isSome ∧ s' = s.dropped conf i key l.ip := by
  unfold ifaceRemoveLease at h
  split at h
  · cases h
  · rename_i key hkey
    split at h
    · cases h
    · rename_i hfound
      cases h
      exact ⟨key, hkey, by simpa [Option.isSome_iff_ne_none] using hfound, rfl⟩

theorem indexRemove_ok {i : Ref} {l : Lease} {s' : DHCPServer} (h : s.indexRemove toLower conf i l = .ok s') :
    (s.byAddr.get l.ip).isSome ∧ (s.byName.get (toLower l.hostname)).isSome ∧
      ∃ key, macToKey l.hwAddr = some key ∧ ((s.iface i).leases.get key).isSome ∧
        s' = { s.dropped conf i key l.ip with
          byAddr := s.byAddr.del l.ip, byName := s.byName.del (toLower l.hostname) } := by
  unfold indexRemove at h
  dsimp only at h
  split at h
  · cases h
  rename_i haddr
  split at h
  · cases h
  rename_i hname
  cases hrm : s.ifaceRemoveLease conf i l with
  | error e => rw [hrm] at h; cases h
  | ok t =>
    rw [hrm] at h
    obtain ⟨key, hkey, hfound, rfl⟩ := ifaceRemoveLease_ok hrm
    cases h
    exact ⟨by simpa [Option.isSome_iff_ne_none] using haddr, by simpa [Option.isSome_iff_ne_none] using hname,
      key, hkey, hfound, rfl⟩

/-- A lease that the index and the interface have is removed. -/
theorem indexRemove_of_found {i : Ref} {l : Lease} {key : MacKey} (haddr : (s.byAddr.get l.ip).isSome)
    (hname : (s.byName.get (toLower l.hostname)).isSome) (hkey : macToKey l.hwAddr = some key)
    (hfound : ((s.iface i).leases.get key).isSome) :
    s.indexRemove toLower conf i l = .ok { s.dropped conf i key l.ip with
      byAddr := s.byAddr.del l.ip, byName := s.byName.del (toLower l.hostname) } := by
  have hnone : ∀ {α : Type} {o : Option α}, o.isSome = true → o.isNone = false := by
    intro α o h
    cases o with
    | none => cases h
    | some a => rfl
  unfold indexRemove ifaceRemoveLease
  simp only [hnone haddr, hnone hname, hkey, hnone hfound]
  rfl

theorem indexAdd_ok {i r : Ref} {s' : DHCPServer} (h : s.indexAdd toLower conf i r = .ok s') :
    s.byAddr.get (s.lease r).ip = none ∧ s.byName.get (toLower (s.lease r).hostname) = none ∧
      ∃ key, macToKey (s.lease r).hwAddr = some key ∧ (s.iface i).leases.get key = none ∧
        s' = { s.modifyIface i fun n =>
                { leases := n.leases.set key r
                  leasedOffsets := n.leasedOffsets.set (bit conf i (s.lease r).ip) true } with
          byAddr := s.byAddr.set (s.lease r).ip r
          byName := s.byName.set (toLower (s.lease r).hostname) r } := by
  unfold indexAdd at h
  dsimp only at h
  split at h
  · cases h
  rename_i haddr
  split at h
  · cases h
  rename_i hname
  unfold ifaceAddLease at h
  cases hkey : macToKey (s.lease r).hwAddr with
  | none => rw [hkey] at h; cases h
  | some key =>
    rw [hkey] at h
    dsimp only at h
    split at h
    · cases h
    · rename_i hheq
      split at hheq
      · cases hheq
      · rename_i hfree
        cases hheq
        cases h
        exact ⟨by simpa using haddr, by simpa using hname, key, rfl, by simpa using hfree, rfl⟩

theorem indexUpdate_ok {i r : Ref} {s' : DHCPServer} (h : s.indexUpdate toLower i r = .ok s') :
    s.takenByOther (s.lease r) (s.byAddr.get (s.lease r).ip) = false ∧
      s.takenByOther (s.lease r) (s.byName.get (toLower (s.lease r).hostname)) = false ∧
      ∃ key prev, macToKey (s.lease r).hwAddr = some key ∧ s.Stored i key prev ∧
        s' = { s.modifyIface i fun n => { n with leases := n.leases.set key r } with
          byAddr := (s.byAddr.del (s.lease prev).ip).set (s.lease r).ip r
          byName := (s.byName.del (toLower (s.lease prev).hostname)).set (toLower (s.lease r).hostname) r } := by
  unfold indexUpdate at h
  dsimp only at h
  split at h
  · cases h
  rename_i haddr
  split at h
  · cases h
  rename_i hname
  unfold ifaceUpdateLease at h
  cases hkey : macToKey (s.lease r).hwAddr with
  | none => rw [hkey] at h; cases h
  | some key =>
    rw [hkey] at h
    dsimp only at h
    cases hprev : (s.iface i).leases.get key with
    | none => rw [hprev] at h; cases h
    | some prev =>
      rw [hprev] at h
      cases h
      exact ⟨by simpa using haddr, by simpa using hname, key, prev, rfl, hprev, rfl⟩

/-! ## Rewritten leases -/

@[simp] theorem ip_setExpiry (expiry : Time) (l : Lease) : (setExpiry expiry l).ip = l.ip := by
  unfold setExpiry
  split <;> rfl

@[simp] theorem hwAddr_setExpiry (expiry : Time) (l : Lease) : (setExpiry expiry l).hwAddr = l.hwAddr := by
  unfold setExpiry
  split <;> rfl

@[simp] theorem hostname_setExpiry (expiry : Time) (l : Lease) : (setExpiry expiry l).hostname = l.hostname := by
  unfold setExpiry
  split <;> rfl

@[simp] theorem ip_requested (expiry : Time) (req : Message) (renew : Bool) (l : Lease) :
    (requested expiry req renew l).ip = l.ip := by
  unfold requested
  cases renew <;> simp

@[simp] theorem hwAddr_requested (expiry : Time) (req : Message) (renew : Bool) (l : Lease) :
    (requested expiry req renew l).hwAddr = l.hwAddr := by
  unfold requested
  cases renew <;> simp

/-! ## Lookups -/

theorem leaseByMacWithIP_some {i : Ref} {mac : HardwareAddr} {ip : Addr} {r : Ref}
    (h : s.leaseByMacWithIP i mac ip = some r) :
    ∃ key, macToKey mac = some key ∧ s.Stored i key r ∧ (s.lease r).ip = ip := by
  unfold leaseByMacWithIP at h
  split at h
  · cases h
  · rename_i key hkey
    obtain ⟨hget, hip⟩ := Option.filter_eq_some_iff.1 h
    exact ⟨key, hkey, hget, by simpa using hip⟩

theorem findExpiredLease_stored {i : Ref} {now : Time} {order : List MacKey} {r : Ref}
    (h : s.findExpiredLease i now order = some r) : ∃ k, s.Stored i k r := by
  obtain ⟨k, -, hk⟩ := List.mem_filterMap.1 (List.mem_of_find?_eq_some h)
  exact ⟨k, hk⟩

/-- The interface that is found for an address holds it. -/
theorem contains_of_ifaceForAddr {ip : Addr} {i : Ref} (h : ifaceForAddr conf ip = some i) :
    (conf.iface i).addrSpace.contains ip = true := by
  have hfound := List.find?_some h
  simpa using hfound

/-- A reset takes the leases of the configured interfaces, and nothing else. -/
theorem iface_reset (s : DHCPServer) (i : Ref) : (s.reset conf).iface i =
    if i ∈ conf.interfaces4 ++ conf.interfaces6 then { s.iface i with leases := .empty } else s.iface i := by
  have hfold (l : List Ref) (m : Heap NetInterface) :
      (l.foldl (fun m j => m.modify j fun n => { n with leases := .empty }) m).get i =
        if i ∈ l then { m.get i with leases := .empty } else m.get i := by
    induction l generalizing m with
    | nil => rfl
    | cons j l ih =>
      rw [List.foldl_cons, ih, Heap.get_modify]
      by_cases hil : i ∈ l <;> by_cases hij : i = j <;> simp [hil, hij]
  unfold iface reset
  rw [hfold]

/-- After a reset an interface has no leases or the ones from before. -/
theorem stored_reset {i : Ref} {k : MacKey} {r : Ref} (h : (s.reset conf).Stored i k r) : s.Stored i k r := by
  unfold Stored at h
  rw [iface_reset] at h
  split at h
  · rw [GoMap.get_empty] at h
    cases h
  · exact h

theorem isSet_reset (s : DHCPServer) (i : Ref) (n : BitVec 64) :
    ((s.reset conf).iface i).leasedOffsets.isSet n = (s.iface i).leasedOffsets.isSet n := by
  rw [iface_reset]
  split <;> rfl

/-! ## Messages -/

theorem blockLease_ok {i r : Ref} {now : Time} {s' : DHCPServer} (h : s.blockLease conf i r now = .ok s') :
    ∃ key, macToKey (s.lease r).hwAddr = some key ∧ s' = (s.dropped conf i key (s.lease r).ip).modify r fun l =>
      { l with
        hwAddr := blockedHardwareAddr
        hostname := ""
        expiry := now + (conf.iface i).leaseTTL
        isStatic := false } := by
  unfold blockLease at h
  split at h
  · cases h
  · rename_i t hrm
    obtain ⟨key, hkey, -, rfl⟩ := ifaceRemoveLease_ok hrm
    cases h
    exact ⟨key, hkey, rfl⟩

section Rules

variable {P : DHCPServer → Prop} {i : Ref} {req : Message} {now : Time} {order : List MacKey}

/-- What holds before an operation that may fail and after its success holds after it. -/
theorem orElse_rule {r : Except Err DHCPServer} (hsame : P s) (hok : ∀ s', r = .ok s' → P s') : P (s.orElse r) := by
  cases r with
  | error e => exact hsame
  | ok s' => exact hok s' rfl

/-- A DISCOVER renews the lease of the client, or allocates one. -/
theorem discover_rule (hsame : P s)
    (hrenew : ∀ key r, macToKey req.mac = some key → s.Stored i key r →
      P (s.modify r (setExpiry (now + (conf.iface i).leaseTTL))))
    (hnew : ∀ key s' r, macToKey req.mac = some key → (s.iface i).leases.get key = none →
      s.allocateLease toLower conf i req.mac key now order = .ok (s', r) → P s') :
    P (s.handleDiscover toLower conf i req now order) := by
  unfold handleDiscover
  cases hkey : macToKey req.mac with
  | none => exact hsame
  | some key =>
    dsimp only
    cases hget : (s.iface i).leases.get key with
    | some r => exact hrenew key r hkey hget
    | none =>
      dsimp only
      split
      · exact hsame
      · rename_i s' r hal
        exact hnew key s' r hkey hget hal

/-- A DECLINE withdraws the lease of the client with the address. -/
theorem decline_rule (hsame : P s)
    (hblock : ∀ reqIP r, req.requestedIP = some reqIP → (conf.iface i).subnet.contains (.v4 reqIP) = true →
      s.leaseByMacWithIP i req.mac (.v4 reqIP) = some r → P (s.orElse (s.blockLease conf i r now))) :
    P (s.handleDecline conf i req now) := by
  unfold handleDecline
  split
  · exact hsame
  · rename_i reqIP hip
    split
    · exact hsame
    · rename_i hsub
      split
      · exact hsame
      · rename_i r hr
        exact hblock reqIP r hip (by simpa using hsub) hr

/-- A RELEASE removes the lease of the client with the address. -/
theorem release_rule (hsame : P s)
    (hremove : ∀ ip r, req.clientIP = some ip → (conf.iface i).subnet.contains (.v4 ip) = true →
      s.leaseByMacWithIP i req.mac (.v4 ip) = some r → P (s.orElse (s.indexRemove toLower conf i (s.lease r)))) :
    P (s.handleRelease toLower conf i req) := by
  unfold handleRelease
  split
  · exact hsame
  · rename_i ip hip
    split
    · exact hsame
    · rename_i hsub
      split
      · exact hsame
      · rename_i r hr
        exact hremove ip r hip (by simpa using hsub) hr

end Rules

/-! ## Methods of the server -/

theorem addLease_ok {l : Lease} {s' : DHCPServer} (h : s.addLease toLower conf l = .ok s') :
    ∃ i, ifaceForAddr conf l.ip = some i ∧ (s.alloc l).indexAdd toLower conf i s.heap.next = .ok s' := by
  unfold addLease at h
  split at h
  · cases h
  · rename_i i hi
    exact ⟨i, hi, h⟩

theorem updateStaticLease_ok {l : Lease} {s' : DHCPServer} (h : s.updateStaticLease toLower conf l = .ok s') :
    ∃ i, ifaceForAddr conf l.ip = some i ∧ (s.alloc l).indexUpdate toLower i s.heap.next = .ok s' := by
  unfold updateStaticLease at h
  split at h
  · cases h
  · rename_i i hi
    exact ⟨i, hi, h⟩

theorem removeLease_ok {l : Lease} {s' : DHCPServer} (h : s.removeLease toLower conf l = .ok s') :
    ∃ i, ifaceForAddr conf l.ip = some i ∧ s.indexRemove toLower conf i l = .ok s' := by
  unfold removeLease at h
  split at h
  · cases h
  · rename_i i hi
    exact ⟨i, hi, h⟩

end AdGuardHome.Dhcpsvc.DHCPServer
