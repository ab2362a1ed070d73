import AdGuardHome.Dhcpsvc.Leases

/-!
# Where the leases of an interface are

Leases of an interface are on the heap and in the range of the interface, and those of the index have a hardware
address with a key and an interface for their address, whatever the operations are.
-/

namespace AdGuardHome.Dhcpsvc.DHCPServer

open AdGuardHome.Net AdGuardHome.Lib AdGuardHome.Dhcp

variable {toLower : GoString → GoString} {conf : ServerConf} {s : DHCPServer}

/-- The record is allocated, its hardware address has a key and its address an interface. -/
structure Indexable (conf : ServerConf) (s : DHCPServer) (r : Ref) : Prop where
  allocated : r < s.heap.next
  mac : (macToKey (s.lease r).hwAddr).isSome
  iface : (ifaceForAddr conf (s.lease r).ip).isSome

/-- The pointers of the interfaces and of the index are to allocated records, the leases of an interface are in its
range and those of the index can be indexed again. -/
structure Placed (conf : ServerConf) (s : DHCPServer) : Prop where
  allocated : ∀ i k r, s.Stored i k r → r < s.heap.next
  inRange : ∀ i k r, s.Stored i k r → (conf.iface i).addrSpace.contains (s.lease r).ip = true
  indexed : ∀ a r, s.byAddr.get a = some r → Indexable conf s r

/-- An address in the range of an IPv4 interface has an interface. -/
theorem ifaceForAddr_isSome {i : Ref} (hi : i ∈ conf.interfaces4) {ip : Addr}
    (hin : (conf.iface i).addrSpace.contains ip = true) : (ifaceForAddr conf ip).isSome := by
  unfold ifaceForAddr
  rw [if_pos (IPRange.is4_of_contains (conf.is4 i hi) hin), List.find?_isSome]
  exact ⟨i, hi, hin⟩

/-- An address in the range of an IPv6 interface has an interface. -/
theorem ifaceForAddr_isSome6 {i : Ref} (hi : i ∈ conf.interfaces6) {ip : Addr}
    (hin : (conf.iface i).addrSpace.contains ip = true) : (ifaceForAddr conf ip).isSome := by
  have h6 : ip.is4 = false := by
    have hfamily := hin
    unfold IPRange.contains at hfamily
    rw [conf.is6 i hi] at hfamily
    cases hip : ip.is4 with
    | false => rfl
    | true => simp [hip] at hfamily
  unfold ifaceForAddr
  rw [h6, if_neg Bool.false_ne_true, List.find?_isSome]
  exact ⟨i, hi, hin⟩

/-- The state after `reserveLease` makes a lease on a free address. -/
def offered (conf : ServerConf) (s : DHCPServer) (i : Ref) (mac : HardwareAddr) (now : Time) (ip : Addr) : DHCPServer :=
  s.alloc { (default : Lease) with hwAddr := mac, ip := ip, expiry := now + (conf.iface i).leaseTTL }

@[simp] theorem lease_offered_next {i : Ref} {mac : HardwareAddr} {now : Time} {ip : Addr} :
    (s.offered conf i mac now ip).lease s.heap.next = ⟨ip, now + (conf.iface i).leaseTTL, "", mac, false⟩ :=
  lease_alloc_next s _

/-- The state after `reserveLease` reuses the expired lease `r`. -/
def recycled (toLower : GoString → GoString) (conf : ServerConf) (s : DHCPServer) (i r : Ref) (mac : HardwareAddr)
    (key : MacKey) (now : Time) : DHCPServer :=
  ((s.orElse (s.indexRemove toLower conf i (s.lease r))).modify r fun l =>
      { l with hwAddr := mac, hostname := "", isStatic := false, expiry := now + (conf.iface i).leaseTTL }).modifyIface i
    fun n => { n with leases := n.leases.set key r }

/-- The state after `allocateLease` has found the address of `r` available. -/
def accepted (conf : ServerConf) (s : DHCPServer) (i : Ref) (key : MacKey) (r : Ref) : DHCPServer :=
  s.modifyIface i fun n =>
    { leases := n.leases.set key r, leasedOffsets := n.leasedOffsets.set (bit conf i (s.lease r).ip) true }

theorem allocateLease_eq (i : Ref) (mac : HardwareAddr) (key : MacKey) (now : Time) (order : List MacKey) :
    s.allocateLease toLower conf i mac key now order =
      match s.reserveLease toLower conf i mac key now order with
      | .error e => .error e
      | .ok (s', r) => .ok (s'.accepted conf i key r, r) := rfl

/-- A reservation fails, is on a free address, or reuses an expired lease. -/
theorem reserveLease_cases (toLower : GoString → GoString) (conf : ServerConf) (s : DHCPServer) (i : Ref)
    (mac : HardwareAddr) (key : MacKey) (now : Time) (order : List MacKey) :
    (∃ e, s.reserveLease toLower conf i mac key now order = .error e ∧
        (s.nextIP conf i = .error e ∨ (s.nextIP conf i = .ok none ∧ s.findExpiredLease i now order = none))) ∨
      (∃ ip, s.nextIP conf i = .ok (some ip) ∧ s.reserveLease toLower conf i mac key now order =
        .ok (s.offered conf i mac now ip, s.heap.next)) ∨
      ∃ r, s.nextIP conf i = .ok none ∧ s.findExpiredLease i now order = some r ∧
        s.reserveLease toLower conf i mac key now order = .ok (s.recycled toLower conf i r mac key now, r) := by
  unfold reserveLease
  dsimp only
  cases hip : s.nextIP conf i with
  | error e => exact .inl ⟨e, rfl, .inl rfl⟩
  | ok o =>
    cases o with
    | some ip => exact .inr (.inl ⟨ip, rfl, rfl⟩)
    | none =>
      cases hex : s.findExpiredLease i now order with
      | none => exact .inl ⟨_, rfl, .inr ⟨rfl, rfl⟩⟩
      | some r => exact .inr (.inr ⟨r, rfl, rfl, rfl⟩)

/-- The lease that `allocateLease` stores under the key of the client. -/
theorem stored_accepted {i : Ref} {key : MacKey} {r : Ref} : (s.accepted conf i key r).Stored i key r :=
  (stored_modifyIface_set fun _ => rfl).2 (.inl ⟨rfl, rfl, rfl⟩)

/-! ## The state after an expired lease is reused -/

/-- Removing a lease from the index takes entries out and changes nothing else. -/
theorem orElse_indexRemove (s : DHCPServer) (i : Ref) (l : Lease) :
    (s.orElse (s.indexRemove toLower conf i l)).heap = s.heap ∧
      (∀ j k x, (s.orElse (s.indexRemove toLower conf i l)).Stored j k x → s.Stored j k x) ∧
      ∀ a x, (s.orElse (s.indexRemove toLower conf i l)).byAddr.get a = some x → s.byAddr.get a = some x := by
  cases hrm : s.indexRemove toLower conf i l with
  | error e => exact ⟨rfl, fun _ _ _ h => h, fun _ _ h => h⟩
  | ok t =>
    obtain ⟨-, -, key, -, -, rfl⟩ := indexRemove_ok hrm
    refine ⟨rfl, fun j k x h => (stored_dropped.1 h).1, fun a x h => ?_⟩
    change (s.byAddr.del l.ip).get a = some x at h
    rw [GoMap.get_del] at h
    split at h
    · cases h
    · exact h

section Recycled

variable {i r : Ref} {mac : HardwareAddr} {key : MacKey} {now : Time}

theorem next_recycled : (s.recycled toLower conf i r mac key now).heap.next = s.heap.next := by
  show (s.orElse (s.indexRemove toLower conf i (s.lease r))).heap.next = s.heap.next
  rw [(orElse_indexRemove s i (s.lease r)).1]

theorem lease_recycled (x : Ref) : (s.recycled toLower conf i r mac key now).lease x =
    if x = r then ⟨(s.lease r).ip, now + (conf.iface i).leaseTTL, "", mac, false⟩ else s.lease x := by
  have hheap : ∀ y, (s.orElse (s.indexRemove toLower conf i (s.lease r))).lease y = s.lease y := fun y =>
    congrArg (fun h : Heap Lease => h.get y) (orElse_indexRemove s i (s.lease r)).1
  have hmod := lease_modify (s.orElse (s.indexRemove toLower conf i (s.lease r))) r x fun l =>
    { l with hwAddr := mac, hostname := "", isStatic := false, expiry := now + (conf.iface i).leaseTTL }
  rw [hheap, hheap] at hmod
  exact hmod

theorem stored_recycled {j : Ref} {k : MacKey} {x : Ref}
    (h : (s.recycled toLower conf i r mac key now).Stored j k x) :
    (j = i ∧ k = key ∧ x = r) ∨ (s.Stored j k x ∧ ¬(j = i ∧ k = key)) := by
  rcases (stored_modifyIface_set fun _ => rfl).1 h with hput | ⟨hx, hne⟩
  · exact .inl hput
  · exact .inr ⟨(orElse_indexRemove s i (s.lease r)).2.1 j k x hx, hne⟩

theorem stored_recycled_self : (s.recycled toLower conf i r mac key now).Stored i key r :=
  (stored_modifyIface_set fun _ => rfl).2 (.inl ⟨rfl, rfl, rfl⟩)

theorem byAddr_recycled {a : Addr} {x : Ref}
    (h : (s.recycled toLower conf i r mac key now).byAddr.get a = some x) : s.byAddr.get a = some x :=
  (orElse_indexRemove s i (s.lease r)).2.2 a x h

end Recycled

/-! ## The operations -/

namespace Placed

theorem empty : Placed conf empty where
  allocated := fun i k r h => absurd h (not_stored_empty i k r)
  inRange := fun i k r h => absurd h (not_stored_empty i k r)
  indexed := fun a r h => by
    rw [show DHCPServer.empty.byAddr.get a = none from GoMap.get_empty a] at h
    cases h

/-- Leases may be added if they are allocated and in the range, and no address changes. -/
theorem extend {s' : DHCPServer} (h : Placed conf s) (hnext : s.heap.next ≤ s'.heap.next)
    (hip : ∀ r < s.heap.next, (s'.lease r).ip = (s.lease r).ip)
    (hmac : ∀ r < s.heap.next, (macToKey (s.lease r).hwAddr).isSome → (macToKey (s'.lease r).hwAddr).isSome)
    (hst : ∀ i k r, s'.Stored i k r → s.Stored i k r ∨
      (r < s'.heap.next ∧ (conf.iface i).addrSpace.contains (s'.lease r).ip = true))
    (haddr : ∀ a r, s'.byAddr.get a = some r → s.byAddr.get a = some r ∨ Indexable conf s' r) : Placed conf s' where
  allocated := by
    intro i k r hr
    rcases hst i k r hr with hold | hnew
    · exact Nat.lt_of_lt_of_le (h.allocated i k r hold) hnext
    · exact hnew.1
  inRange := by
    intro i k r hr
    rcases hst i k r hr with hold | hnew
    · rw [hip r (h.allocated i k r hold)]
      exact h.inRange i k r hold
    · exact hnew.2
  indexed := by
    intro a r hr
    rcases haddr a r hr with hold | hnew
    · obtain ⟨hlt, hkey, hiface⟩ := h.indexed a r hold
      exact ⟨Nat.lt_of_lt_of_le hlt hnext, hmac r hlt hkey, by rwa [hip r hlt]⟩
    · exact hnew

/-- Fewer leases with the same addresses. -/
theorem restrict {s' : DHCPServer} (h : Placed conf s) (hnext : s'.heap.next = s.heap.next)
    (hip : ∀ r, (s'.lease r).ip = (s.lease r).ip)
    (hmac : ∀ r, (macToKey (s.lease r).hwAddr).isSome → (macToKey (s'.lease r).hwAddr).isSome)
    (hst : ∀ i k r, s'.Stored i k r → s.Stored i k r)
    (haddr : ∀ a r, s'.byAddr.get a = some r → s.byAddr.get a = some r) : Placed conf s' :=
  h.extend hnext.ge (fun r _ => hip r) (fun r _ => hmac r) (fun i k r hr => .inl (hst i k r hr))
    fun a r hr => .inl (haddr a r hr)

theorem modify (h : Placed conf s) (r : Ref) {f : Lease → Lease} (hip : ∀ l, (f l).ip = l.ip)
    (hmac : ∀ l, (macToKey l.hwAddr).isSome → (macToKey (f l).hwAddr).isSome) : Placed conf (s.modify r f) := by
  refine h.restrict rfl (fun x => Heap.apply_get_modify Lease.ip hip s.heap r x) (fun x hx => ?_)
    (fun _ _ _ hx => hx) fun _ _ hx => hx
  rw [lease_modify]
  split
  · rename_i hxr
    exact hmac _ (hxr ▸ hx)
  · exact hx

theorem alloc (h : Placed conf s) (l : Lease) : Placed conf (s.alloc l) :=
  h.extend (Nat.le_succ _) (fun r hr => by rw [lease_alloc_of_lt s hr])
    (fun r hr hx => by rwa [lease_alloc_of_lt s hr]) (fun _ _ _ hx => .inl hx) fun _ _ hx => .inl hx

theorem dropped (h : Placed conf s) (i : Ref) (key : MacKey) (ip : Addr) : Placed conf (s.dropped conf i key ip) :=
  h.restrict rfl (fun _ => rfl) (fun _ hx => hx) (fun _ _ _ hx => (stored_dropped.1 hx).1) fun _ _ hx => hx

/-- Storing an allocated lease whose address is in the range. -/
theorem put (h : Placed conf s) {i r : Ref} {key : MacKey} {f : NetInterface → NetInterface}
    (hf : ∀ n, (f n).leases = n.leases.set key r) (hr : r < s.heap.next)
    (hin : (conf.iface i).addrSpace.contains (s.lease r).ip = true) : Placed conf (s.modifyIface i f) := by
  refine h.extend le_rfl (fun _ _ => rfl) (fun _ _ hx => hx) (fun j k x hx => ?_) fun _ _ hx => .inl hx
  rcases (stored_modifyIface_set hf).1 hx with ⟨rfl, rfl, rfl⟩ | ⟨hx, -⟩
  · exact .inr ⟨hr, hin⟩
  · exact .inl hx

/-- The index after a lease is removed or moved. -/
theorem withIndex (h : Placed conf s) {byAddr : GoMap Addr Ref} (byName : GoMap GoString Ref)
    (haddr : ∀ a r, byAddr.get a = some r → s.byAddr.get a = some r ∨ Indexable conf s r) :
    Placed conf { s with byAddr := byAddr, byName := byName } :=
  h.extend le_rfl (fun _ _ => rfl) (fun _ _ hx => hx) (fun _ _ _ hx => .inl hx) fun a r hr =>
    (haddr a r hr).imp_right fun ⟨hlt, hmac, hiface⟩ => ⟨hlt, hmac, hiface⟩

theorem indexRemove (h : Placed conf s) (i : Ref) (l : Lease) :
    Placed conf (s.orElse (s.indexRemove toLower conf i l)) := by
  obtain ⟨hheap, hst, haddr⟩ := @orElse_indexRemove toLower conf s i l
  have hlease : ∀ r, (s.orElse (s.indexRemove toLower conf i l)).lease r = s.lease r := fun r =>
    congrArg (fun m : Heap Lease => m.get r) hheap
  exact h.restrict (congrArg Heap.next hheap) (fun r => by rw [hlease]) (fun r hr => by rwa [hlease]) hst haddr

theorem indexAdd (h : Placed conf s) {i r : Ref} (hr : r < s.heap.next)
    (hin : (conf.iface i).addrSpace.contains (s.lease r).ip = true)
    (hiface : (ifaceForAddr conf (s.lease r).ip).isSome) {s' : DHCPServer}
    (hadd : s.indexAdd toLower conf i r = .ok s') : Placed conf s' := by
  obtain ⟨-, -, key, hkey, -, rfl⟩ := indexAdd_ok hadd
  refine (h.put (fun _ => rfl) hr hin).withIndex _ fun a x hx => ?_
  rw [GoMap.get_set] at hx
  split at hx
  · cases hx
    exact .inr ⟨hr, Option.isSome_iff_exists.2 ⟨key, hkey⟩, hiface⟩
  · exact .inl hx

theorem indexUpdate (h : Placed conf s) {i r : Ref} (hr : r < s.heap.next)
    (hin : (conf.iface i).addrSpace.contains (s.lease r).ip = true)
    (hiface : (ifaceForAddr conf (s.lease r).ip).isSome) {s' : DHCPServer}
    (hup : s.indexUpdate toLower i r = .ok s') : Placed conf s' := by
  obtain ⟨-, -, key, prev, hkey, -, rfl⟩ := indexUpdate_ok hup
  refine (h.put (fun _ => rfl) hr hin).withIndex _ fun a x hx => ?_
  rw [GoMap.get_set] at hx
  split at hx
  · cases hx
    exact .inr ⟨hr, Option.isSome_iff_exists.2 ⟨key, hkey⟩, hiface⟩
  · rw [GoMap.get_del] at hx
    split at hx
    · cases hx
    · exact .inl hx

/-- A reserved lease is allocated and in the range. -/
theorem reserveLease (h : Placed conf s) {i : Ref} {mac : HardwareAddr} {key : MacKey}
    (hkey : macToKey mac = some key) {now : Time} {order : List MacKey} {s' : DHCPServer} {r : Ref}
    (hres : s.reserveLease toLower conf i mac key now order = .ok (s', r)) :
    Placed conf s' ∧ r < s'.heap.next ∧ (conf.iface i).addrSpace.contains (s'.lease r).ip = true := by
  rcases reserveLease_cases toLower conf s i mac key now order with ⟨e, herr, -⟩ | ⟨ip, hip, hok⟩ |
    ⟨x, -, hexp, hok⟩
  · rw [herr] at hres
    cases hres
  · rw [hok] at hres
    cases hres
    refine ⟨h.alloc _, Nat.lt_succ_self _, ?_⟩
    rw [lease_offered_next]
    exact (nextIP_ok hip).1
  · rw [hok] at hres
    cases hres
    obtain ⟨k, hx⟩ := findExpiredLease_stored hexp
    have hlt := h.allocated i k r hx
    have hip : ∀ y, ((s.recycled toLower conf i r mac key now).lease y).ip = (s.lease y).ip := by
      intro y
      rw [lease_recycled]
      split
      · rename_i hy
        rw [hy]
      · rfl
    have hin : (conf.iface i).addrSpace.contains ((s.recycled toLower conf i r mac key now).lease r).ip = true := by
      rw [hip]
      exact h.inRange i k r hx
    refine ⟨h.extend next_recycled.ge (fun y _ => hip y) (fun y _ hy => ?_) (fun j k y hy => ?_)
      (fun a y hy => .inl (byAddr_recycled hy)), next_recycled.symm ▸ hlt, hin⟩
    · rw [lease_recycled]
      split
      · exact Option.isSome_iff_exists.2 ⟨key, hkey⟩
      · exact hy
    · rcases stored_recycled hy with ⟨rfl, rfl, rfl⟩ | ⟨hy, -⟩
      · exact .inr ⟨next_recycled.symm ▸ hlt, hin⟩
      · exact .inl hy

theorem accepted (h : Placed conf s) {i r : Ref} (key : MacKey) (hr : r < s.heap.next)
    (hin : (conf.iface i).addrSpace.contains (s.lease r).ip = true) : Placed conf (s.accepted conf i key r) :=
  h.put (fun _ => rfl) hr hin

theorem discover (h : Placed conf s) (i : Ref) (req : Message) (now : Time) (order : List MacKey) :
    Placed conf (s.handleDiscover toLower conf i req now order) := by
  refine discover_rule h (fun _ r _ _ => h.modify r (ip_setExpiry _) fun l hl => by rwa [hwAddr_setExpiry]) ?_
  intro key s' r hkey _ hal
  rw [allocateLease_eq] at hal
  split at hal
  · cases hal
  · rename_i t x hres
    cases hal
    obtain ⟨ht, hr, hin⟩ := h.reserveLease hkey hres
    exact ht.accepted _ hr hin

theorem request (h : Placed conf s) {i : Ref} (hi : i ∈ conf.interfaces4) (req : Message) (now : Time) :
    Placed conf (s.handleRequest toLower conf i req now) := by
  unfold handleRequest
  split
  · exact h
  · rename_i ip renew _
    split
    · exact h
    · rename_i r hr
      obtain ⟨key, -, hst, -⟩ := leaseByMacWithIP_some hr
      have hst' : (s.modify r (requested (now + (conf.iface i).leaseTTL) req renew)).Stored i key r := hst
      have hreq := h.modify r (ip_requested (now + (conf.iface i).leaseTTL) req renew)
        fun l hl => by rwa [hwAddr_requested]
      dsimp only
      generalize s.modify r (requested (now + (conf.iface i).leaseTTL) req renew) = t at hreq hst' ⊢
      have hin := hreq.inRange i key r hst'
      cases hup : t.indexUpdate toLower i r with
      | error e => exact hreq
      | ok s'' => exact hreq.indexUpdate (hreq.allocated i key r hst') hin (ifaceForAddr_isSome hi hin) hup

theorem blockLease (h : Placed conf s) {i r : Ref} {now : Time} {s' : DHCPServer}
    (hblock : s.blockLease conf i r now = .ok s') : Placed conf s' := by
  obtain ⟨key, -, rfl⟩ := blockLease_ok hblock
  exact (h.dropped i key _).modify r (fun _ => rfl) fun _ _ => rfl

theorem decline (h : Placed conf s) (i : Ref) (req : Message) (now : Time) :
    Placed conf (s.handleDecline conf i req now) :=
  decline_rule h fun _ _ _ _ _ => orElse_rule h fun _ hblock => h.blockLease hblock

theorem release (h : Placed conf s) (i : Ref) (req : Message) :
    Placed conf (s.handleRelease toLower conf i req) := release_rule h fun _ _ _ _ _ => h.indexRemove i _

theorem addLease (h : Placed conf s) (l : Lease) : Placed conf (s.orElse (s.addLease toLower conf l)) := by
  refine orElse_rule h fun s' hs' => ?_
  obtain ⟨i, hi, hadd⟩ := addLease_ok hs'
  refine (h.alloc l).indexAdd (Nat.lt_succ_self _) ?_ ?_ hadd <;> rw [lease_alloc_next]
  · exact contains_of_ifaceForAddr hi
  · exact Option.isSome_iff_exists.2 ⟨i, hi⟩

/-- Every operation keeps the leases in place. -/
theorem step (h : Placed conf s) (op : Op) : Placed conf (s.step toLower conf op) := by
  cases op with
  | discover i req now order =>
    exact iteInduction (motive := Placed conf) (fun _ => h.discover i req now order) fun _ => h
  | request i req now => exact iteInduction (motive := Placed conf) (fun hi => h.request hi req now) fun _ => h
  | decline i req now => exact iteInduction (motive := Placed conf) (fun _ => h.decline i req now) fun _ => h
  | release i req => exact iteInduction (motive := Placed conf) (fun _ => h.release i req) fun _ => h
  | addLease l => exact h.addLease l
  | updateStaticLease l =>
    refine orElse_rule h fun s' hs' => ?_
    obtain ⟨i, hi, hup⟩ := updateStaticLease_ok hs'
    refine (h.alloc l).indexUpdate (Nat.lt_succ_self _) ?_ ?_ hup <;> rw [lease_alloc_next]
    · exact contains_of_ifaceForAddr hi
    · exact Option.isSome_iff_exists.2 ⟨i, hi⟩
  | removeLease l =>
    refine orElse_rule h fun s' hs' => ?_
    obtain ⟨i, -, hrm⟩ := removeLease_ok hs'
    have hremoved : Placed conf (s.orElse (s.indexRemove toLower conf i l)) := h.indexRemove i l
    rwa [hrm] at hremoved
  | reset =>
    refine h.restrict rfl (fun _ => rfl) (fun _ hr => hr) (fun i k r hr => stored_reset hr) fun a r hr => ?_
    exact absurd ((GoMap.get_empty a).symm.trans hr) (by simp)

theorem new (toLower : GoString → GoString) (conf : ServerConf) (db : List Lease) :
    Placed conf (new toLower conf db) := by
  suffices hload : ∀ (db : List Lease) (s : DHCPServer), Placed conf s →
      Placed conf (db.foldl (fun s l => s.orElse (s.addLease toLower conf l)) s) from hload db _ Placed.empty
  intro db
  induction db with
  | nil => exact fun s h => h
  | cons l db ih => exact fun s h => ih _ (h.addLease l)

end Placed

end AdGuardHome.Dhcpsvc.DHCPServer
