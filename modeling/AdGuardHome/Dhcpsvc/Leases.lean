import AdGuardHome.Dhcpsvc.Operations

/-!
# The leases of an interface

No address is leased twice on an interface, every lease is stored under its own hardware address and the
offsets of the leased addresses are marked, in every run in which no operation

* reuses an expired lease that the index does not have, which leaves it under the key of the old client,
* adds a lease on an address that is offered to a client but not in the index,
* moves a lease to an address that is not marked or that another lease of the interface has,
* removes a lease by the address of one client and the hardware address of another.
-/

namespace AdGuardHome.Dhcpsvc.DHCPServer

open AdGuardHome.Net AdGuardHome.Lib AdGuardHome.Dhcp

variable {toLower : GoString → GoString} {conf : ServerConf} {s : DHCPServer}

/-! ## The invariant -/

/-- No address of an interface is leased twice. -/
structure NoDoubleAllocation (conf : ServerConf) (s : DHCPServer) : Prop where
  distinct : ∀ i k k' r r', s.Stored i k r → s.Stored i k' r' → k ≠ k' → (s.lease r).ip ≠ (s.lease r').ip
  key : ∀ i k r, s.Stored i k r → macToKey (s.lease r).hwAddr = some k
  marked : ∀ i k r, s.Stored i k r → ∀ n, (conf.iface i).addrSpace.offset (s.lease r).ip = (n, true) →
    (s.iface i).leasedOffsets.isSet n = true
  next : ∀ i ip, s.nextIP conf i = .ok (some ip) → ∀ k r, s.Stored i k r → (s.lease r).ip ≠ ip

/-- What holds of the leases along a run. -/
structure LeasesInv (conf : ServerConf) (s : DHCPServer) : Prop where
  distinct : ∀ i k k' r r', s.Stored i k r → s.Stored i k' r' → (s.lease r).ip = (s.lease r').ip → k = k'
  key : ∀ i k r, s.Stored i k r → macToKey (s.lease r).hwAddr = some k
  /-- Leases are in the range of their interface. -/
  inRange : ∀ i k r, s.Stored i k r → (conf.iface i).addrSpace.contains (s.lease r).ip = true
  marked : ∀ i k r, s.Stored i k r → (s.iface i).leasedOffsets.isSet (bit conf i (s.lease r).ip) = true
  /-- Two interfaces do not share a lease. -/
  owner : ∀ i j k k' r, s.Stored i k r → s.Stored j k' r → i = j
  allocated : ∀ i k r, s.Stored i k r → r < s.heap.next

theorem nextIP_ok {i : Ref} {ip : Addr} (h : s.nextIP conf i = .ok (some ip)) :
    (conf.iface i).addrSpace.contains ip = true ∧ (s.iface i).leasedOffsets.isSet (bit conf i ip) = false := by
  unfold nextIP at h
  dsimp only at h
  split at h
  · rename_i ip' hfind
    split at h
    · rename_i hok
      cases h
      have hfree := List.find?_some hfind
      rw [hok] at hfree
      rw [IPRange.offset_snd] at hok
      exact ⟨hok, by unfold bit; simpa using hfree⟩
    · cases h
  · split at h <;> cases h

namespace LeasesInv

/-- The next address is not leased. -/
theorem nextIP_free (h : LeasesInv conf s) {i : Ref} {ip : Addr} (hip : s.nextIP conf i = .ok (some ip)) :
    ∀ k r, s.Stored i k r → (s.lease r).ip ≠ ip := by
  intro k r hr heq
  obtain ⟨-, hfree⟩ := nextIP_ok hip
  have hmark := h.marked i k r hr
  rw [heq, hfree] at hmark
  cases hmark

theorem noDoubleAllocation (h : LeasesInv conf s) : NoDoubleAllocation conf s where
  distinct := fun i k k' r r' hr hr' hne heq => hne (h.distinct i k k' r r' hr hr' heq)
  key := h.key
  marked := by
    intro i k r hr n hn
    have hmark := h.marked i k r hr
    rw [bit, hn] at hmark
    exact hmark
  next := fun _ _ hip => h.nextIP_free hip

/-- A lease is stored in one place. -/
theorem place_unique (h : LeasesInv conf s) {i j : Ref} {k k' : MacKey} {r : Ref} (hr : s.Stored i k r)
    (hr' : s.Stored j k' r) : i = j ∧ k = k' := by
  have hij := h.owner i j k k' r hr hr'
  subst hij
  exact ⟨rfl, h.distinct i k k' r r hr hr' rfl⟩

/-- Fewer leases, with the same records and marks. -/
theorem restrict {s' : DHCPServer} (h : LeasesInv conf s) (hst : ∀ i k r, s'.Stored i k r → s.Stored i k r)
    (hrec : ∀ i k r, s'.Stored i k r →
      (s'.lease r).ip = (s.lease r).ip ∧ (s'.lease r).hwAddr = (s.lease r).hwAddr)
    (hbit : ∀ i k r, s'.Stored i k r → (s.iface i).leasedOffsets.isSet (bit conf i (s.lease r).ip) = true →
      (s'.iface i).leasedOffsets.isSet (bit conf i (s.lease r).ip) = true)
    (hnext : s.heap.next ≤ s'.heap.next) : LeasesInv conf s' where
  distinct := by
    intro i k k' r r' hr hr'
    rw [(hrec i k r hr).1, (hrec i k' r' hr').1]
    exact h.distinct i k k' r r' (hst i k r hr) (hst i k' r' hr')
  key := by
    intro i k r hr
    rw [(hrec i k r hr).2]
    exact h.key i k r (hst i k r hr)
  inRange := by
    intro i k r hr
    rw [(hrec i k r hr).1]
    exact h.inRange i k r (hst i k r hr)
  marked := by
    intro i k r hr
    rw [(hrec i k r hr).1]
    exact hbit i k r hr (h.marked i k r (hst i k r hr))
  owner := fun i j k k' r hr hr' => h.owner i j k k' r (hst i k r hr) (hst j k' r hr')
  allocated := fun i k r hr => Nat.lt_of_lt_of_le (h.allocated i k r (hst i k r hr)) hnext

/-- One lease more, or another lease under a key. -/
theorem put {s' : DHCPServer} (h : LeasesInv conf s) {i : Ref} {key : MacKey} {r : Ref}
    (hst : ∀ j k x, s'.Stored j k x → (j = i ∧ k = key ∧ x = r) ∨ (s.Stored j k x ∧ ¬(j = i ∧ k = key)))
    (hrec : ∀ j k x, s.Stored j k x → ¬(j = i ∧ k = key) →
      (s'.lease x).ip = (s.lease x).ip ∧ (s'.lease x).hwAddr = (s.lease x).hwAddr)
    (hbit : ∀ j n, (s.iface j).leasedOffsets.isSet n = true → (s'.iface j).leasedOffsets.isSet n = true)
    (hnext : s.heap.next ≤ s'.heap.next) (hr : r < s'.heap.next) (hkey : macToKey (s'.lease r).hwAddr = some key)
    (hin : (conf.iface i).addrSpace.contains (s'.lease r).ip = true)
    (hmark : (s'.iface i).leasedOffsets.isSet (bit conf i (s'.lease r).ip) = true)
    (hnew : ∀ j k x, s.Stored j k x → ¬(j = i ∧ k = key) → x ≠ r)
    (hip : ∀ k x, s.Stored i k x → k ≠ key → (s.lease x).ip ≠ (s'.lease r).ip) : LeasesInv conf s' where
  distinct := by
    intro j k k' x x' hx hx' heq
    rcases hst j k x hx with ⟨rfl, rfl, rfl⟩ | ⟨hxs, hne⟩ <;>
      rcases hst j k' x' hx' with ⟨hj', hk', rfl⟩ | ⟨hxs', hne'⟩
    · exact hk'.symm
    · -- the other lease has another address
      have hk : k' ≠ k := fun hk => hne' ⟨rfl, hk⟩
      rw [(hrec j k' x' hxs' hne').1] at heq
      exact absurd heq.symm (hip k' x' hxs' hk)
    · have hk : k ≠ key := fun hk => hne ⟨hj', hk⟩
      rw [(hrec j k x hxs hne).1] at heq
      exact absurd heq (hip k x (hj' ▸ hxs) hk)
    · rw [(hrec j k x hxs hne).1, (hrec j k' x' hxs' hne').1] at heq
      exact h.distinct j k k' x x' hxs hxs' heq
  key := by
    intro j k x hx
    rcases hst j k x hx with ⟨rfl, rfl, rfl⟩ | ⟨hxs, hne⟩
    · exact hkey
    · rw [(hrec j k x hxs hne).2]
      exact h.key j k x hxs
  inRange := by
    intro j k x hx
    rcases hst j k x hx with ⟨rfl, rfl, rfl⟩ | ⟨hxs, hne⟩
    · exact hin
    · rw [(hrec j k x hxs hne).1]
      exact h.inRange j k x hxs
  marked := by
    intro j k x hx
    rcases hst j k x hx with ⟨rfl, rfl, rfl⟩ | ⟨hxs, hne⟩
    · exact hmark
    · rw [(hrec j k x hxs hne).1]
      exact hbit j _ (h.marked j k x hxs)
  owner := by
    intro j j' k k' x hx hx'
    rcases hst j k x hx with ⟨rfl, rfl, rfl⟩ | ⟨hxs, hne⟩ <;>
      rcases hst j' k' x hx' with ⟨hj', hk', hxr⟩ | ⟨hxs', hne'⟩
    · exact hj'.symm
    · exact absurd rfl (hnew j' k' x hxs' hne')
    · exact absurd hxr (hnew j k x hxs hne)
    · exact h.owner j j' k k' x hxs hxs'
  allocated := by
    intro j k x hx
    rcases hst j k x hx with ⟨rfl, rfl, rfl⟩ | ⟨hxs, hne⟩
    · exact hr
    · exact Nat.lt_of_lt_of_le (h.allocated j k x hxs) hnext

/-! ## Primitives -/

theorem modify (h : LeasesInv conf s) (r : Ref) {f : Lease → Lease} (hip : ∀ l, (f l).ip = l.ip)
    (hmac : ∀ l, (f l).hwAddr = l.hwAddr) : LeasesInv conf (s.modify r f) :=
  h.restrict (fun _ _ _ hx => hx)
    (fun _ _ x _ => ⟨Heap.apply_get_modify Lease.ip hip s.heap r x, Heap.apply_get_modify Lease.hwAddr hmac s.heap r x⟩)
    (fun _ _ _ _ hset => hset) le_rfl

/-- A record that no interface holds may change freely. -/
theorem modify_of_not_stored (h : LeasesInv conf s) {r : Ref} (f : Lease → Lease)
    (hr : ∀ i k, ¬ s.Stored i k r) : LeasesInv conf (s.modify r f) := by
  refine h.restrict (fun _ _ _ hx => hx) (fun i k x hx => ?_) (fun _ _ _ _ hset => hset) le_rfl
  have hxr : x ≠ r := fun hxr => hr i k (hxr ▸ hx)
  rw [lease_modify, if_neg hxr]
  exact ⟨rfl, rfl⟩

theorem alloc (h : LeasesInv conf s) (l : Lease) : LeasesInv conf (s.alloc l) :=
  h.restrict (fun _ _ _ hx => hx)
    (fun i k x hx => by rw [lease_alloc_of_lt s (h.allocated i k x hx)]; exact ⟨rfl, rfl⟩)
    (fun _ _ _ _ hset => hset) (Nat.le_succ _)

/-- Dropping the lease under a key and clearing a bit that no other lease of the interface has. -/
theorem dropped (h : LeasesInv conf s) {i : Ref} {key : MacKey} {ip : Addr}
    (hbit : ∀ k x, s.Stored i k x → k ≠ key → bit conf i (s.lease x).ip ≠ bit conf i ip) :
    LeasesInv conf (s.dropped conf i key ip) := by
  refine h.restrict (fun _ _ _ hx => (stored_dropped.1 hx).1) (fun _ _ _ _ => ⟨rfl, rfl⟩) (fun j k x hx hset => ?_)
    le_rfl
  obtain ⟨hxs, hne⟩ := stored_dropped.1 hx
  rw [isSet_dropped, if_neg]
  · exact hset
  · rintro ⟨rfl, hn⟩
    exact hbit k x hxs (fun hk => hne ⟨rfl, hk⟩) hn

/-- On an IPv4 interface the bit of a lease is that of no other. -/
theorem bit_ne (h : LeasesInv conf s) {i : Ref} (hi : i ∈ conf.interfaces4) {key : MacKey} {r : Ref}
    (hr : s.Stored i key r) :
    ∀ k x, s.Stored i k x → k ≠ key → bit conf i (s.lease x).ip ≠ bit conf i (s.lease r).ip := by
  intro k x hx hk heq
  have h4 := conf.is4 i hi
  have hinx := h.inRange i k x hx
  have hinr := h.inRange i key r hr
  exact hk (h.distinct i k key x r hx hr
    (IPRange.offset_inj (IPRange.is4_of_contains h4 hinx) (IPRange.is4_of_contains h4 hinr) hinx hinr heq))

/-- Removing a lease of an IPv4 interface from it. -/
theorem dropped_own (h : LeasesInv conf s) {i : Ref} (hi : i ∈ conf.interfaces4) {key : MacKey} {r : Ref}
    (hr : s.Stored i key r) :
    LeasesInv conf (s.dropped conf i key (s.lease r).ip) ∧
      ∀ j k, ¬ (s.dropped conf i key (s.lease r).ip).Stored j k r := by
  refine ⟨h.dropped (h.bit_ne hi hr), fun j k hx => ?_⟩
  obtain ⟨hxs, hne⟩ := stored_dropped.1 hx
  exact hne (h.place_unique hxs hr)

/-- The index is not part of the invariant. -/
theorem withIndex (h : LeasesInv conf s) (byAddr : GoMap Addr Ref) (byName : GoMap GoString Ref) :
    LeasesInv conf { s with byAddr := byAddr, byName := byName } :=
  h.restrict (fun _ _ _ hx => hx) (fun _ _ _ _ => ⟨rfl, rfl⟩) (fun _ _ _ _ hset => hset) le_rfl

end LeasesInv

/-! ## The operations -/

/-- If the DISCOVER makes the server reuse an expired lease, then the index has that lease. -/
def ReusesIndexed (toLower : GoString → GoString) (conf : ServerConf) (s : DHCPServer) (i : Ref) (req : Message)
    (now : Time) (order : List MacKey) : Prop :=
  match macToKey req.mac with
  | none => True
  | some key =>
    match (s.iface i).leases.get key, s.nextIP conf i, s.findExpiredLease i now order with
    | none, .ok none, some r =>
      (s.byAddr.get (s.lease r).ip).isSome ∧ (s.byName.get (toLower (s.lease r).hostname)).isSome
    | _, _, _ => True

/-- No lease of the interface has the address, unless the index or the interface refuses the new lease. -/
def AddsFree (toLower : GoString → GoString) (s : DHCPServer) (l : Lease) : Option Ref → Prop
  | none => True
  | some i =>
    s.byAddr.get l.ip = none → s.byName.get (toLower l.hostname) = none →
      (macToKey l.hwAddr).bind (s.iface i).leases.get = none →
        ∀ k ∈ (s.iface i).leases.keys, ∀ r ∈ (s.iface i).leases.get k, (s.lease r).ip ≠ l.ip

/-- The new address is marked and no lease of another client has it, unless the index or the interface
refuses the update.  The argument of the call is on the heap when the index compares hardware addresses. -/
def MovesMarked (toLower : GoString → GoString) (conf : ServerConf) (s : DHCPServer) (l : Lease) : Option Ref → Prop
  | none => True
  | some i =>
    (s.alloc l).takenByOther l (s.byAddr.get l.ip) = false →
      (s.alloc l).takenByOther l (s.byName.get (toLower l.hostname)) = false →
      match macToKey l.hwAddr with
      | none => True
      | some key =>
        ((s.iface i).leases.get key).isSome →
          (s.iface i).leasedOffsets.isSet (bit conf i l.ip) = true ∧
            ∀ k ∈ (s.iface i).leases.keys, k ≠ key → ∀ r ∈ (s.iface i).leases.get k, (s.lease r).ip ≠ l.ip

/-- No lease of another client has the bit of the address, unless the index refuses the removal. -/
def RemovesOwn (toLower : GoString → GoString) (conf : ServerConf) (s : DHCPServer) (l : Lease) : Option Ref → Prop
  | none => True
  | some i =>
    (s.byAddr.get l.ip).isSome → (s.byName.get (toLower l.hostname)).isSome →
      match macToKey l.hwAddr with
      | none => True
      | some key =>
        ((s.iface i).leases.get key).isSome →
          ∀ k ∈ (s.iface i).leases.keys, k ≠ key → ∀ r ∈ (s.iface i).leases.get k,
            bit conf i (s.lease r).ip ≠ bit conf i l.ip

/-- The operation takes none of the branches that break the leases. -/
def KeepsLeases (toLower : GoString → GoString) (conf : ServerConf) (s : DHCPServer) : Op → Prop
  | .discover i req now order => i ∈ conf.interfaces4 → ReusesIndexed toLower conf s i req now order
  | .addLease l => AddsFree toLower s l (ifaceForAddr conf l.ip)
  | .updateStaticLease l => MovesMarked toLower conf s l (ifaceForAddr conf l.ip)
  | .removeLease l => RemovesOwn toLower conf s l (ifaceForAddr conf l.ip)
  | _ => True

theorem mem_keys_of_stored {i : Ref} {k : MacKey} {r : Ref} (h : s.Stored i k r) : k ∈ (s.iface i).leases.keys := by
  apply AList.mem_keys.1
  apply AList.lookup_isSome.1
  rw [show AList.lookup k (s.iface i).leases = some r from h]
  rfl

namespace LeasesInv

/-- Storing a lease under a key and marking its address. -/
theorem store (h : LeasesInv conf s) {i : Ref} {key : MacKey} {r : Ref} {f : NetInterface → NetInterface}
    (hleases : ∀ n, (f n).leases = n.leases.set key r)
    (hoffsets : ∀ n, (f n).leasedOffsets = n.leasedOffsets.set (bit conf i (s.lease r).ip) true)
    (hr : r < s.heap.next) (hkey : macToKey (s.lease r).hwAddr = some key)
    (hin : (conf.iface i).addrSpace.contains (s.lease r).ip = true)
    (hnew : ∀ j k x, s.Stored j k x → ¬(j = i ∧ k = key) → x ≠ r)
    (hip : ∀ k x, s.Stored i k x → k ≠ key → (s.lease x).ip ≠ (s.lease r).ip) :
    LeasesInv conf (s.modifyIface i f) := by
  refine h.put (fun j k x hx => (stored_modifyIface_set hleases).1 hx) (fun _ _ _ _ _ => ⟨rfl, rfl⟩)
    (fun j n hn => ?_) le_rfl hr hkey hin ?_ hnew hip
  · rw [isSet_modifyIface_set hoffsets]
    split
    · rfl
    · exact hn
  · rw [isSet_modifyIface_set hoffsets]
    exact if_pos ⟨rfl, rfl⟩

/-- An expired lease is stored under the key of its new client before and after its address is checked. -/
theorem store_twice (h : LeasesInv conf s) {i : Ref} {key : MacKey} {r : Ref} (hr : r < s.heap.next)
    (hkey : macToKey (s.lease r).hwAddr = some key)
    (hin : (conf.iface i).addrSpace.contains (s.lease r).ip = true) (hnew : ∀ j k x, s.Stored j k x → x ≠ r)
    (hip : ∀ k x, s.Stored i k x → (s.lease x).ip ≠ (s.lease r).ip) :
    LeasesInv conf ((s.modifyIface i fun n => { n with leases := n.leases.set key r }).modifyIface i fun n =>
      { leases := n.leases.set key r
        leasedOffsets := n.leasedOffsets.set (bit conf i (s.lease r).ip) true }) := by
  refine h.put (i := i) (r := r) (fun j k x hx => ?_) (fun _ _ _ _ _ => ⟨rfl, rfl⟩) (fun j n hn => ?_) le_rfl
    hr hkey hin ?_ (fun j k x hx _ => hnew j k x hx) (fun k x hx _ => hip k x hx)
  · rcases (stored_modifyIface_set fun _ => rfl).1 hx with hput | ⟨hx', hne⟩
    · exact .inl hput
    · rcases (stored_modifyIface_set fun _ => rfl).1 hx' with ⟨hj, hk, -⟩ | ⟨hx'', -⟩
      · exact absurd ⟨hj, hk⟩ hne
      · exact .inr ⟨hx'', hne⟩
  · rw [isSet_modifyIface_set fun _ => rfl]
    split
    · rfl
    · rw [iface_modifyIface]
      split
      · rename_i hj; subst hj; exact hn
      · exact hn
  · rw [isSet_modifyIface_set fun _ => rfl]
    exact if_pos ⟨rfl, rfl⟩

/-- A client without a lease gets a new one or an expired one that the index has. -/
theorem allocateLease (h : LeasesInv conf s) {i : Ref} (hi : i ∈ conf.interfaces4) {mac : HardwareAddr} {key : MacKey}
    (hkey : macToKey mac = some key) {now : Time} {order : List MacKey} {s' : DHCPServer} {r' : Ref}
    (hsafe : s.nextIP conf i = .ok none → ∀ r, s.findExpiredLease i now order = some r →
      (s.byAddr.get (s.lease r).ip).isSome ∧ (s.byName.get (toLower (s.lease r).hostname)).isSome)
    (hal : s.allocateLease toLower conf i mac key now order = .ok (s', r')) : LeasesInv conf s' := by
  unfold DHCPServer.allocateLease reserveLease at hal
  dsimp only at hal
  cases hip : s.nextIP conf i with
  | error e => rw [hip] at hal; cases hal
  | ok o =>
    rw [hip] at hal
    cases o with
    | some ip =>
      -- a new lease on a free address
      cases hal
      have hlt : ∀ j k x, s.Stored j k x → x < s.heap.next := h.allocated
      refine (h.alloc _).store (fun _ => rfl) (fun _ => rfl) (Nat.lt_succ_self _) ?_ ?_ ?_ ?_
      · rw [lease_alloc_next]; exact hkey
      · rw [lease_alloc_next]; exact (nextIP_ok hip).1
      · exact fun j k x hx _ => Nat.ne_of_lt (hlt j k x hx)
      · intro k x hx _
        rw [lease_alloc_next, lease_alloc_of_lt s (hlt i k x hx)]
        exact h.nextIP_free hip k x hx
    | none =>
      dsimp only at hal
      cases hex : s.findExpiredLease i now order with
      | none => rw [hex] at hal; cases hal
      | some r =>
        rw [hex] at hal
        obtain ⟨haddr, hname⟩ := hsafe hip r hex
        obtain ⟨k₀, hr⟩ := findExpiredLease_stored hex
        dsimp only at hal
        rw [indexRemove_of_found haddr hname (h.key i k₀ r hr) hr.isSome] at hal
        rw [Except.ok.injEq, Prod.mk.injEq] at hal
        obtain ⟨rfl, -⟩ := hal
        -- the expired lease is taken out, rewritten and stored under the key of the new client
        obtain ⟨hdrop, hout⟩ := h.dropped_own hi hr
        have hfree := (hdrop.withIndex (s.byAddr.del (s.lease r).ip) (s.byName.del (toLower (s.lease r).hostname)))
          |>.modify_of_not_stored (fun l =>
            { l with hwAddr := mac, hostname := "", isStatic := false, expiry := now + (conf.iface i).leaseTTL }) hout
        have hlease : ∀ j k x, (s.dropped conf i k₀ (s.lease r).ip).Stored j k x → x ≠ r := by
          rintro j k x hx rfl
          exact hout j k hx
        refine hfree.store_twice (h.allocated i k₀ r hr) ?_ ?_ (fun j k x hx => hlease j k x hx) (fun k x hx => ?_)
        · rw [lease_modify, if_pos rfl]
          exact hkey
        · rw [lease_modify, if_pos rfl]
          exact h.inRange i k₀ r hr
        · obtain ⟨hxs, hne⟩ := stored_dropped.1 hx
          rw [lease_modify, if_neg (hlease i k x hx), lease_modify, if_pos rfl]
          exact fun heq => hne ⟨rfl, h.distinct i k k₀ x r hxs hr heq⟩

theorem discover (h : LeasesInv conf s) {i : Ref} (hi : i ∈ conf.interfaces4) {req : Message} {now : Time}
    {order : List MacKey} (hsafe : ReusesIndexed toLower conf s i req now order) :
    LeasesInv conf (s.handleDiscover toLower conf i req now order) := by
  refine discover_rule h (fun _ r _ _ => h.modify r (ip_setExpiry _) (hwAddr_setExpiry _)) ?_
  intro key s' r' hkey hget hal
  refine h.allocateLease hi hkey (fun hip r hr => ?_) hal
  unfold ReusesIndexed at hsafe
  rw [hkey] at hsafe
  simp only [hget, hip, hr] at hsafe
  exact hsafe

theorem request (h : LeasesInv conf s) (i : Ref) (req : Message) (now : Time) :
    LeasesInv conf (s.handleRequest toLower conf i req now) := by
  unfold handleRequest
  split
  · exact h
  · rename_i ip renew _
    split
    · exact h
    · rename_i r hr
      obtain ⟨key, -, hst, -⟩ := leaseByMacWithIP_some hr
      have hst' : (s.modify r (requested (now + (conf.iface i).leaseTTL) req renew)).Stored i key r := hst
      have hreq := h.modify r (ip_requested (now + (conf.iface i).leaseTTL) req renew) (hwAddr_requested _ req renew)
      dsimp only
      generalize s.modify r (requested (now + (conf.iface i).leaseTTL) req renew) = t at hreq hst' ⊢
      cases hup : t.indexUpdate toLower i r with
      | error e => exact hreq
      | ok s'' =>
        obtain ⟨-, -, key', prev, hkey', hprev, rfl⟩ := indexUpdate_ok hup
        -- the lease is put back where it was
        have hkeys : key' = key := by
          have hk := hreq.key i key r hst'
          rw [hkey', Option.some_inj] at hk
          exact hk
        subst hkeys
        have hput : LeasesInv conf (t.modifyIface i fun n => { n with leases := n.leases.set key' r }) := by
          refine hreq.restrict (fun j k x hx => ?_) (fun _ _ _ _ => ⟨rfl, rfl⟩) (fun j k x _ hset => ?_) le_rfl
          · rcases (stored_modifyIface_set fun _ => rfl).1 hx with ⟨rfl, rfl, rfl⟩ | ⟨hx', -⟩
            · exact hst'
            · exact hx'
          · rw [iface_modifyIface]
            split
            · rename_i hj; subst hj; exact hset
            · exact hset
        exact hput.withIndex _ _

/-- Removing a lease that an IPv4 interface has under its own hardware address. -/
theorem removeOwn (h : LeasesInv conf s) {i : Ref} (hi : i ∈ conf.interfaces4) {key key' : MacKey} {r : Ref}
    (hr : s.Stored i key r) (hkey : macToKey (s.lease r).hwAddr = some key') :
    LeasesInv conf (s.dropped conf i key' (s.lease r).ip) ∧
      ∀ j k, ¬ (s.dropped conf i key' (s.lease r).ip).Stored j k r := by
  rw [h.key i key r hr, Option.some_inj] at hkey
  rw [← hkey]
  exact h.dropped_own hi hr

theorem decline (h : LeasesInv conf s) {i : Ref} (hi : i ∈ conf.interfaces4) (req : Message) (now : Time) :
    LeasesInv conf (s.handleDecline conf i req now) := by
  refine decline_rule h fun reqIP r _ _ hr => orElse_rule h fun s' hblock => ?_
  obtain ⟨key, -, hst, -⟩ := leaseByMacWithIP_some hr
  obtain ⟨key', hkey', rfl⟩ := blockLease_ok hblock
  obtain ⟨hdrop, hout⟩ := h.removeOwn hi hst hkey'
  exact hdrop.modify_of_not_stored _ hout

theorem release (h : LeasesInv conf s) {i : Ref} (hi : i ∈ conf.interfaces4) (req : Message) :
    LeasesInv conf (s.handleRelease toLower conf i req) := by
  refine release_rule h fun ip r _ _ hr => orElse_rule h fun s' hrm => ?_
  obtain ⟨key, -, hst, -⟩ := leaseByMacWithIP_some hr
  obtain ⟨-, -, key', hkey', -, rfl⟩ := indexRemove_ok hrm
  exact (h.removeOwn hi hst hkey').1.withIndex _ _

theorem addLease (h : LeasesInv conf s) {l : Lease} (hsafe : AddsFree toLower s l (ifaceForAddr conf l.ip)) :
    LeasesInv conf (s.orElse (s.addLease toLower conf l)) := by
  refine orElse_rule h fun s' hs' => ?_
  obtain ⟨i, hi, hadd⟩ := addLease_ok hs'
  rw [hi] at hsafe
  obtain ⟨haddr, hname, key, hkey, hfree, rfl⟩ := indexAdd_ok hadd
  rw [lease_alloc_next] at haddr hname hkey
  refine LeasesInv.withIndex ((h.alloc l).store (fun _ => rfl) (fun _ => rfl) (Nat.lt_succ_self _) ?_ ?_ ?_ ?_) _ _
  · rw [lease_alloc_next]; exact hkey
  · rw [lease_alloc_next]; exact contains_of_ifaceForAddr hi
  · exact fun j k x hx _ => Nat.ne_of_lt (h.allocated j k x hx)
  · intro k x hx _
    rw [lease_alloc_next, lease_alloc_of_lt s (h.allocated i k x hx)]
    exact hsafe haddr hname (by rw [hkey]; exact hfree) k (mem_keys_of_stored hx) x hx

theorem updateStaticLease (h : LeasesInv conf s) {l : Lease}
    (hsafe : MovesMarked toLower conf s l (ifaceForAddr conf l.ip)) :
    LeasesInv conf (s.orElse (s.updateStaticLease toLower conf l)) := by
  refine orElse_rule h fun s' hs' => ?_
  obtain ⟨i, hi, hup⟩ := updateStaticLease_ok hs'
  rw [hi] at hsafe
  obtain ⟨haddr, hname, key, prev, hkey, hprev, rfl⟩ := indexUpdate_ok hup
  rw [lease_alloc_next] at haddr hname hkey
  have hmoves := hsafe haddr hname
  rw [hkey] at hmoves
  obtain ⟨hmark, hfree⟩ := hmoves hprev.isSome
  have hput : LeasesInv conf ((s.alloc l).modifyIface i fun n =>
      { n with leases := n.leases.set key s.heap.next }) := by
    refine (h.alloc l).put (fun j k x hx => (stored_modifyIface_set fun _ => rfl).1 hx)
      (fun _ _ _ _ _ => ⟨rfl, rfl⟩) (fun j n hn => ?_) le_rfl (Nat.lt_succ_self _) ?_ ?_ ?_
      (fun j k x hx _ => Nat.ne_of_lt (h.allocated j k x hx)) (fun k x hx hk => ?_)
    · rw [iface_modifyIface]
      split
      · rename_i hj; subst hj; exact hn
      · exact hn
    · show macToKey ((s.alloc l).lease s.heap.next).hwAddr = some key
      rw [lease_alloc_next]; exact hkey
    · show (conf.iface i).addrSpace.contains ((s.alloc l).lease s.heap.next).ip = true
      rw [lease_alloc_next]; exact contains_of_ifaceForAddr hi
    · rw [iface_modifyIface, if_pos rfl]
      show (s.iface i).leasedOffsets.isSet (bit conf i ((s.alloc l).lease s.heap.next).ip) = true
      rw [lease_alloc_next]; exact hmark
    · show ((s.alloc l).lease x).ip ≠ ((s.alloc l).lease s.heap.next).ip
      rw [lease_alloc_next, lease_alloc_of_lt s (h.allocated i k x hx)]
      exact hfree k (mem_keys_of_stored hx) hk x hx
  exact hput.withIndex _ _

theorem removeLease (h : LeasesInv conf s) {l : Lease}
    (hsafe : RemovesOwn toLower conf s l (ifaceForAddr conf l.ip)) :
    LeasesInv conf (s.orElse (s.removeLease toLower conf l)) := by
  refine orElse_rule h fun s' hs' => ?_
  obtain ⟨i, hi, hrm⟩ := removeLease_ok hs'
  rw [hi] at hsafe
  obtain ⟨haddr, hname, key, hkey, hfound, rfl⟩ := indexRemove_ok hrm
  have hown := hsafe haddr hname
  rw [hkey] at hown
  refine (h.dropped fun k x hx hk => ?_).withIndex _ _
  exact hown hfound k (mem_keys_of_stored hx) hk x hx

theorem reset (h : LeasesInv conf s) : LeasesInv conf (s.reset conf) :=
  h.restrict (fun _ _ _ hx => stored_reset hx) (fun _ _ _ _ => ⟨rfl, rfl⟩)
    (fun i _ _ _ hset => by rw [isSet_reset]; exact hset) le_rfl

/-- Every operation that takes none of the bad branches keeps the invariant. -/
theorem step (h : LeasesInv conf s) {op : Op} (hsafe : KeepsLeases toLower conf s op) :
    LeasesInv conf (s.step toLower conf op) := by
  cases op with
  | discover i req now order =>
    exact iteInduction (motive := LeasesInv conf) (fun hi => h.discover hi (hsafe hi)) fun _ => h
  | request i req now => exact iteInduction (motive := LeasesInv conf) (fun _ => h.request i req now) fun _ => h
  | decline i req now => exact iteInduction (motive := LeasesInv conf) (fun hi => h.decline hi req now) fun _ => h
  | release i req => exact iteInduction (motive := LeasesInv conf) (fun hi => h.release hi req) fun _ => h
  | addLease l => exact h.addLease hsafe
  | updateStaticLease l => exact h.updateStaticLease hsafe
  | removeLease l => exact h.removeLease hsafe
  | reset => exact h.reset

theorem empty : LeasesInv conf empty :=
  ⟨fun i k _ r _ hr => absurd hr (not_stored_empty i k r), fun i k r hr => absurd hr (not_stored_empty i k r),
    fun i k r hr => absurd hr (not_stored_empty i k r), fun i k r hr => absurd hr (not_stored_empty i k r),
    fun i _ k _ r hr => absurd hr (not_stored_empty i k r), fun i k r hr => absurd hr (not_stored_empty i k r)⟩

/-- A lease that is added is indexed, as the others are. -/
theorem indexed_addLease (h : LeasesInv conf s) (hidx : ∀ i k r, s.Stored i k r → (s.byAddr.get (s.lease r).ip).isSome)
    (l : Lease) (i : Ref) (k : MacKey) (r : Ref) :
    (s.orElse (s.addLease toLower conf l)).Stored i k r →
      ((s.orElse (s.addLease toLower conf l)).byAddr.get ((s.orElse (s.addLease toLower conf l)).lease r).ip).isSome := by
  refine orElse_rule (P := fun t => t.Stored i k r → (t.byAddr.get (t.lease r).ip).isSome) (hidx i k r) fun s' hs' => ?_
  obtain ⟨j, -, hadd⟩ := addLease_ok hs'
  obtain ⟨-, -, key, -, -, rfl⟩ := indexAdd_ok hadd
  intro hr
  replace hr : ((s.alloc l).modifyIface j fun n =>
      { leases := n.leases.set key s.heap.next
        leasedOffsets := n.leasedOffsets.set (bit conf j ((s.alloc l).lease s.heap.next).ip) true }).Stored i k r := hr
  show (((s.alloc l).byAddr.set ((s.alloc l).lease s.heap.next).ip s.heap.next).get ((s.alloc l).lease r).ip).isSome
  rw [GoMap.get_set]
  split
  · rfl
  · rename_i hne
    rcases (stored_modifyIface_set fun _ => rfl).1 hr with ⟨-, -, rfl⟩ | ⟨hr', -⟩
    · exact absurd rfl hne
    · rw [lease_alloc_of_lt s (h.allocated i k r hr')]
      exact hidx i k r hr'

/-- While the database is loaded, the index has every lease, so no address is added twice. -/
theorem new (toLower : GoString → GoString) (conf : ServerConf) (db : List Lease) :
    LeasesInv conf (new toLower conf db) := by
  suffices hload : ∀ (db : List Lease) (s : DHCPServer), LeasesInv conf s →
      (∀ i k r, s.Stored i k r → (s.byAddr.get (s.lease r).ip).isSome) →
      LeasesInv conf (db.foldl (fun s l => s.orElse (s.addLease toLower conf l)) s) by
    exact hload db _ LeasesInv.empty fun i k r hr => absurd hr (not_stored_empty i k r)
  intro db
  induction db with
  | nil => exact fun s h _ => h
  | cons l db ih =>
    intro s h hidx
    rw [List.foldl_cons]
    refine ih _ (h.addLease ?_) ?_
    · unfold AddsFree
      split
      · trivial
      · rename_i i _
        intro hnone _ _ k _ r hr heq
        have hsome := hidx i k r hr
        rw [heq, hnone] at hsome
        cases hsome
    · exact h.indexed_addLease hidx l

end LeasesInv

/-! ## Whole runs -/

/-- From a server with any database, no address is leased twice after every run whose operations take none of
the branches that break the leases. -/
theorem noDoubleAllocation_of_keepsLeases (toLower : GoString → GoString) (conf : ServerConf) (db : List Lease)
    (ops : List Op) (hkeep : Meets (step toLower conf) (KeepsLeases toLower conf) (new toLower conf db) ops) :
    NoDoubleAllocation conf (run (step toLower conf) (new toLower conf db) ops) :=
  (run_invariant_of_meets (I := LeasesInv conf) (fun _ _ h hsafe => h.step hsafe) (LeasesInv.new toLower conf db)
    hkeep).noDoubleAllocation

/-! ### Runs on a small network -/

/-- One interface on the network `192.168.10.0/24` with the range from `.100` to `.102`. -/
def lanConf : ServerConf where
  iface _ :=
    { addrSpace := ⟨.v4 0xc0a80a64, .v4 0xc0a80a66, rfl, rfl, by decide, by decide⟩
      leaseTTL := 100
      subnet := ⟨.v4 0xc0a80a01, 25⟩ }
  interfaces4 := [0]
  interfaces6 := []
  is4 := by decide
  is6 := by decide

/-- `strings.ToLower` on ASCII strings. -/
def asciiLower (s : GoString) : GoString := ⟨s.bytes.map fun b => if 65 ≤ b ∧ b ≤ 90 then b + 32 else b⟩

def printer (ip : BitVec 32) : Lease where
  ip := .v4 ip
  expiry := 0
  hostname := "printer"
  hwAddr := [2, 0, 0, 0, 0, 2]
  isStatic := true

instance (s : DHCPServer) (i : Ref) (req : Message) (now : Time) (order : List MacKey) :
    Decidable (ReusesIndexed toLower conf s i req now order) := by
  unfold ReusesIndexed
  split
  · infer_instance
  · split <;> infer_instance

instance (s : DHCPServer) (l : Lease) : ∀ i, Decidable (AddsFree toLower s l i)
  | none => inferInstanceAs (Decidable True)
  | some _ => inferInstanceAs (Decidable (_ → _))

instance (s : DHCPServer) (l : Lease) : ∀ i, Decidable (RemovesOwn toLower conf s l i)
  | none => inferInstanceAs (Decidable True)
  | some i => by
    unfold RemovesOwn
    dsimp only
    split <;> infer_instance

instance (s : DHCPServer) (l : Lease) : ∀ i, Decidable (MovesMarked toLower conf s l i)
  | none => inferInstanceAs (Decidable True)
  | some i => by
    unfold MovesMarked
    dsimp only
    split <;> infer_instance

instance (s : DHCPServer) : ∀ op, Decidable (KeepsLeases toLower conf s op)
  | .discover i req now order => inferInstanceAs (Decidable (_ → ReusesIndexed toLower conf s i req now order))
  | .addLease l => inferInstanceAs (Decidable (AddsFree toLower s l (ifaceForAddr conf l.ip)))
  | .updateStaticLease l => inferInstanceAs (Decidable (MovesMarked toLower conf s l (ifaceForAddr conf l.ip)))
  | .removeLease l => inferInstanceAs (Decidable (RemovesOwn toLower conf s l (ifaceForAddr conf l.ip)))
  | .request .. => inferInstanceAs (Decidable True)
  | .decline .. => inferInstanceAs (Decidable True)
  | .release .. => inferInstanceAs (Decidable True)
  | .reset => inferInstanceAs (Decidable True)

/-- A message of a client on the interface of `lanConf`. -/
def lanMessage (mac : HardwareAddr) (ip : Option (BitVec 32)) (hostname : GoString) : Message where
  mac := mac
  requestedIP := ip
  clientIP := none
  serverID := ip.map fun _ => 0xc0a80a01
  hostname := hostname
  deviceAddrs := [.v4 0xc0a80a01]

/-- A static lease is renamed, a client gets an address next to it and the static lease is removed. -/
def keptRun : List Op :=
  [.updateStaticLease { printer 0xc0a80a64 with hostname := "scanner" },
    .discover 0 (lanMessage [2, 0, 0, 0, 0, 1] none "") 1 [],
    .request 0 (lanMessage [2, 0, 0, 0, 0, 1] (some 0xc0a80a65) "laptop") 2,
    .removeLease { printer 0xc0a80a64 with hostname := "scanner" }]

theorem noDoubleAllocation_keptRun :
    Meets (step asciiLower lanConf) (KeepsLeases asciiLower lanConf)
        (new asciiLower lanConf [printer 0xc0a80a64]) keptRun ∧
      NoDoubleAllocation lanConf (run (step asciiLower lanConf) (new asciiLower lanConf [printer 0xc0a80a64]) keptRun) :=
  have hkeep : Meets (step asciiLower lanConf) (KeepsLeases asciiLower lanConf)
      (new asciiLower lanConf [printer 0xc0a80a64]) keptRun := by decide +kernel
  ⟨hkeep, noDoubleAllocation_of_keepsLeases asciiLower lanConf [printer 0xc0a80a64] keptRun hkeep⟩

/-- A static lease is moved from `.100` to `.101`, which is not marked then. -/
theorem not_noDoubleAllocation_movedRun :
    ¬ NoDoubleAllocation lanConf (run (step asciiLower lanConf) (new asciiLower lanConf [])
      [.addLease (printer 0xc0a80a64), .updateStaticLease (printer 0xc0a80a65)]) := fun h =>
  absurd (h.marked 0 ⟨[2, 0, 0, 0, 0, 2], rfl⟩ 1 (by unfold Stored; decide +kernel) 1 (by decide +kernel))
    (by decide +kernel)

end AdGuardHome.Dhcpsvc.DHCPServer
