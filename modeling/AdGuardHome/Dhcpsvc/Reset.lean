import AdGuardHome.Dhcpsvc.Availability
import AdGuardHome.Lib.BigEndian

/-!
# The range of an interface after a reset

A reset drops the leases and leaves the marks of their addresses, which nothing clears but the removal of a lease.
So an address that was marked is never allocated again, and the whole range can be allocated exactly when nothing of
it was marked.
-/

namespace AdGuardHome.Dhcpsvc

open AdGuardHome.Net AdGuardHome.Lib AdGuardHome.Dhcp

namespace DHCPServer

variable {toLower : GoString → GoString} {conf : ServerConf} {s : DHCPServer} {i : Ref}

/-! ## Allocations by new clients -/

/-- A client that asks for a lease at a time, with the order of the map of leases then. -/
structure Client where
  key : MacKey
  now : Time
  order : List MacKey

/-- The state and the addresses after the clients are given leases one after another. -/
def allocations (toLower : GoString → GoString) (conf : ServerConf) (i : Ref) :
    DHCPServer → List Client → Except Err (DHCPServer × List Addr)
  | s, [] => .ok (s, [])
  | s, c :: cs =>
    match s.allocateLease toLower conf i c.key.bytes c.key c.now c.order with
    | .error e => .error e
    | .ok (s', r) =>
      match allocations toLower conf i s' cs with
      | .error e => .error e
      | .ok (t, ips) => .ok (t, (s'.lease r).ip :: ips)

/-- The clients are different and have no lease on the interface. -/
def NewClients (s : DHCPServer) (i : Ref) (cs : List Client) : Prop :=
  (cs.map Client.key).Nodup ∧ ∀ c ∈ cs, (s.iface i).leases.get c.key = none

/-- New clients can be given every address of the range, and as many of them as the range has addresses can be given
different ones. -/
structure FreesRange (toLower : GoString → GoString) (conf : ServerConf) (s : DHCPServer) (i : Ref) : Prop where
  each : ∀ ip ∈ (conf.iface i).addrSpace.addrs, ∃ cs t ips, NewClients s i cs ∧
    allocations toLower conf i s cs = .ok (t, ips) ∧ ip ∈ ips
  all : ∃ cs t ips, NewClients s i cs ∧ allocations toLower conf i s cs = .ok (t, ips) ∧
    ips.length = (conf.iface i).addrSpace.addrs.length ∧ ips.Nodup

/-- No address of the range is marked. -/
def Unmarked (conf : ServerConf) (s : DHCPServer) (i : Ref) : Prop :=
  ∀ ip ∈ (conf.iface i).addrSpace.addrs, (s.iface i).leasedOffsets.isSet (bit conf i ip) = false

instance : Decidable (Unmarked conf s i) := inferInstanceAs (Decidable (∀ ip ∈ _, _))

/-! ## Marks that stay -/

theorem leases_reset (hi : i ∈ conf.ifaces) : ((s.reset conf).iface i).leases = .empty := by
  rw [iface_reset, if_pos (show i ∈ conf.interfaces4 ++ conf.interfaces6 from hi)]

/-- What holds of the interface while clients are given leases: the index is empty, the marks of `s` are there, and
the leases are on addresses that `s` has not marked. -/
structure Follows (conf : ServerConf) (i : Ref) (s t : DHCPServer) : Prop where
  index : t.byAddr = .empty
  marks : ∀ n, (s.iface i).leasedOffsets.isSet n = true → (t.iface i).leasedOffsets.isSet n = true
  leases : ∀ k x, t.Stored i k x → x < t.heap.next ∧
    (s.iface i).leasedOffsets.isSet (bit conf i (t.lease x).ip) = false

/-- A new lease gets an address that is not marked, and so not one that was. -/
theorem Follows.offered {t : DHCPServer} (h : Follows conf i s t) {mac : HardwareAddr} {key : MacKey} {now : Time}
    {ip : Addr} (hip : t.nextIP conf i = .ok (some ip)) :
    Follows conf i s ((t.offered conf i mac now ip).accepted conf i key t.heap.next) ∧
      (s.iface i).leasedOffsets.isSet
        (bit conf i (((t.offered conf i mac now ip).accepted conf i key t.heap.next).lease t.heap.next).ip) = false := by
  have hfree : (s.iface i).leasedOffsets.isSet (bit conf i ip) = false := by
    by_contra hset
    rw [Bool.not_eq_false] at hset
    have hmark := h.marks _ hset
    rw [(nextIP_ok hip).2] at hmark
    cases hmark
  have hlease : ((t.offered conf i mac now ip).accepted conf i key t.heap.next).lease t.heap.next =
    ⟨ip, now + (conf.iface i).leaseTTL, "", mac, false⟩ := lease_offered_next
  refine ⟨⟨h.index, fun n hn => ?_, fun k x hx => ?_⟩, by rw [hlease]; exact hfree⟩
  · unfold accepted
    rw [isSet_modifyIface_set fun _ => rfl]
    split
    · rfl
    · exact h.marks n hn
  · rcases (stored_modifyIface_set fun _ => rfl).1 hx with ⟨-, -, rfl⟩ | ⟨hx, -⟩
    · exact ⟨Nat.lt_succ_self _, by rw [hlease]; exact hfree⟩
    · obtain ⟨hlt, hbit⟩ := h.leases k x hx
      refine ⟨Nat.lt_succ_of_lt hlt, ?_⟩
      rw [show ((t.offered conf i mac now ip).accepted conf i key t.heap.next).lease x = t.lease x from
        lease_alloc_of_lt t hlt _]
      exact hbit

/-- An expired lease that is used again keeps its address.  The index is empty, so that it is not found in it, and its
mark stays. -/
theorem Follows.recycled {t : DHCPServer} (h : Follows conf i s t) {mac : HardwareAddr} {key k : MacKey} {now : Time}
    {r : Ref} (hr : t.Stored i k r) :
    Follows conf i s ((t.recycled toLower conf i r mac key now).accepted conf i key r) ∧
      (s.iface i).leasedOffsets.isSet
        (bit conf i (((t.recycled toLower conf i r mac key now).accepted conf i key r).lease r).ip) = false := by
  have hnone : t.indexRemove toLower conf i (t.lease r) = .error .noIP := by
    unfold indexRemove
    rw [h.index, GoMap.get_empty]
    rfl
  have hip : ∀ y, ((t.recycled toLower conf i r mac key now).lease y).ip = (t.lease y).ip := by
    intro y
    rw [lease_recycled]
    split
    · rename_i hy
      rw [hy]
    · rfl
  have hmarks : ((t.recycled toLower conf i r mac key now).iface i).leasedOffsets = (t.iface i).leasedOffsets := by
    unfold DHCPServer.recycled
    rw [hnone, iface_modifyIface, if_pos rfl]
    rfl
  refine ⟨⟨?_, fun n hn => ?_, fun k' y hy => ?_⟩, ?_⟩
  · show (t.orElse (t.indexRemove toLower conf i (t.lease r))).byAddr = .empty
    rw [hnone]
    exact h.index
  · unfold accepted
    rw [isSet_modifyIface_set fun _ => rfl, hmarks]
    split
    · rfl
    · exact h.marks n hn
  · show y < (t.recycled toLower conf i r mac key now).heap.next ∧ (s.iface i).leasedOffsets.isSet
      (bit conf i ((t.recycled toLower conf i r mac key now).lease y).ip) = false
    rw [next_recycled, hip]
    rcases (stored_modifyIface_set fun _ => rfl).1 hy with ⟨-, -, rfl⟩ | ⟨hy, -⟩
    · exact h.leases k y hr
    · rcases stored_recycled hy with ⟨-, -, rfl⟩ | ⟨hy, -⟩
      · exact h.leases k y hr
      · exact h.leases k' y hy
  · show (s.iface i).leasedOffsets.isSet (bit conf i ((t.recycled toLower conf i r mac key now).lease r).ip) = false
    rw [hip]
    exact (h.leases k r hr).2

/-- An address that is given is not one that was marked. -/
theorem Follows.allocateLease {t t' : DHCPServer} (h : Follows conf i s t) {mac : HardwareAddr} {key : MacKey}
    {now : Time} {order : List MacKey} {r : Ref}
    (hal : t.allocateLease toLower conf i mac key now order = .ok (t', r)) :
    Follows conf i s t' ∧ (s.iface i).leasedOffsets.isSet (bit conf i (t'.lease r).ip) = false := by
  rw [allocateLease_eq] at hal
  rcases reserveLease_cases toLower conf t i mac key now order with ⟨e, herr, -⟩ | ⟨ip, hip, hok⟩ | ⟨x, -, hexp, hok⟩
  · rw [herr] at hal
    cases hal
  · rw [hok] at hal
    cases hal
    exact h.offered hip
  · rw [hok] at hal
    cases hal
    obtain ⟨k, hx⟩ := findExpiredLease_stored hexp
    exact h.recycled hx

theorem Follows.allocations {t u : DHCPServer} (h : Follows conf i s t) {cs : List Client} {ips : List Addr}
    (hrun : allocations toLower conf i t cs = .ok (u, ips)) :
    ∀ ip ∈ ips, (s.iface i).leasedOffsets.isSet (bit conf i ip) = false := by
  induction cs generalizing t ips with
  | nil =>
    cases hrun
    simp
  | cons c cs ih =>
    unfold DHCPServer.allocations at hrun
    cases hal : t.allocateLease toLower conf i c.key.bytes c.key c.now c.order with
    | error e =>
      rw [hal] at hrun
      cases hrun
    | ok res =>
      obtain ⟨t', r⟩ := res
      obtain ⟨h', hfree⟩ := h.allocateLease hal
      rw [hal] at hrun
      dsimp only at hrun
      cases hrest : DHCPServer.allocations toLower conf i t' cs with
      | error e =>
        rw [hrest] at hrun
        cases hrun
      | ok res =>
        obtain ⟨u', ips'⟩ := res
        rw [hrest] at hrun
        cases hrun
        intro ip hip
        rcases List.mem_cons.1 hip with rfl | hip
        · exact hfree
        · exact ih h' hrest ip hip

theorem follows_reset (hi : i ∈ conf.ifaces) : Follows conf i s (s.reset conf) where
  index := rfl
  marks := fun n hn => by rwa [isSet_reset]
  leases := fun k x hx => by
    rw [Stored, leases_reset hi, GoMap.get_empty] at hx
    cases hx

/-- An address that was marked is not given to anyone after a reset. -/
theorem unmarked_of_freesRange (hi : i ∈ conf.ifaces) (h : FreesRange toLower conf (s.reset conf) i) :
    Unmarked conf s i := by
  intro ip hip
  obtain ⟨cs, t, ips, -, hrun, hmem⟩ := h.each ip hip
  exact (follows_reset hi).allocations hrun ip hmem

/-! ## All addresses one after another -/

theorem nextIP_of_marks {t : DHCPServer} {done rest : List Addr} {ip : Addr}
    (hsplit : (conf.iface i).addrSpace.addrs = done ++ ip :: rest)
    (hmarks : ∀ x ∈ (conf.iface i).addrSpace.addrs, (t.iface i).leasedOffsets.isSet (bit conf i x) = true ↔ x ∈ done) :
    t.nextIP conf i = .ok (some ip) := by
  rw [nextIP_eq]
  have hmem : ip ∈ (conf.iface i).addrSpace.addrs := by
    rw [hsplit]
    simp
  have hnodup := (conf.iface i).addrSpace.nodup_addrs
  have hip : ip ∉ done := by
    rw [hsplit] at hnodup
    exact fun h => (List.nodup_append.1 hnodup).2.2 ip h ip List.mem_cons_self rfl
  have hfind : ((conf.iface i).addrSpace.addrs.find? fun x => !(t.iface i).leasedOffsets.isSet (bit conf i x)) =
      some ip := by
    rw [List.find?_eq_some_iff_append]
    refine ⟨?_, done, rest, hsplit, fun x hx => ?_⟩
    · rw [Bool.eq_false_iff.2 fun h => hip ((hmarks ip hmem).1 h), Bool.not_false]
    · have hxmem : x ∈ (conf.iface i).addrSpace.addrs := by
        rw [hsplit]
        exact List.mem_append_left _ hx
      rw [(hmarks x hxmem).2 hx]
      rfl
  rw [hfind]
  rfl

/-- The marks after a free address is given. -/
theorem isSet_assigned {t : DHCPServer} {mac : HardwareAddr} {key : MacKey} {now : Time} {ip : Addr} (n : BitVec 64) :
    ((t.assigned conf i mac key now ip).iface i).leasedOffsets.isSet n =
      if n = bit conf i ip then true else (t.iface i).leasedOffsets.isSet n := by
  unfold assigned accepted
  rw [isSet_modifyIface_set fun _ => rfl, lease_offered_next]
  by_cases hn : n = bit conf i ip <;> simp [hn]
  rfl

/-- If exactly the addresses `done` are marked, any clients get the rest in the order of the range. -/
theorem allocations_rest {t : DHCPServer} {done rest : List Addr} {cs : List Client}
    (hsplit : (conf.iface i).addrSpace.addrs = done ++ rest) (hlen : cs.length = rest.length)
    (hmarks : ∀ x ∈ (conf.iface i).addrSpace.addrs, (t.iface i).leasedOffsets.isSet (bit conf i x) = true ↔ x ∈ done) :
    ∃ u, allocations toLower conf i t cs = .ok (u, rest) := by
  induction rest generalizing t done cs with
  | nil =>
    obtain rfl : cs = [] := List.eq_nil_of_length_eq_zero hlen
    exact ⟨t, rfl⟩
  | cons ip rest ih =>
    obtain ⟨c, cs, rfl⟩ := List.exists_cons_of_length_eq_add_one hlen
    have hal : t.allocateLease toLower conf i c.key.bytes c.key c.now c.order =
      .ok (t.assigned conf i c.key.bytes c.key c.now ip, t.heap.next) :=
      allocateLease_of_nextIP (nextIP_of_marks hsplit hmarks)
    have hmem : ip ∈ (conf.iface i).addrSpace.addrs := by
      rw [hsplit]
      simp
    -- the address is marked now and no other one is
    have hmarks' : ∀ x ∈ (conf.iface i).addrSpace.addrs,
        ((t.assigned conf i c.key.bytes c.key c.now ip).iface i).leasedOffsets.isSet (bit conf i x) = true ↔
          x ∈ done ++ [ip] := by
      intro x hx
      rw [isSet_assigned, List.mem_append, List.mem_singleton, ← hmarks x hx]
      by_cases hxip : x = ip
      · simp [hxip]
      · have hbit : bit conf i x ≠ bit conf i ip := fun h => hxip (IPRange.offset_inj_addrs hx hmem h)
        simp [hbit, hxip]
    obtain ⟨u, hu⟩ := ih (by rw [hsplit, List.append_assoc, List.singleton_append])
      (Nat.succ.inj hlen) hmarks'
    refine ⟨u, ?_⟩
    unfold allocations
    rw [hal]
    dsimp only
    rw [hu, lease_assigned]

/-- The clients with the keys of eight bytes from zero on. -/
def clients (n : ℕ) : List Client :=
  (List.range n).map fun m => ⟨⟨toBigEndian 8 m, by rw [length_toBigEndian]; rfl⟩, 0, []⟩

theorem nodup_clients {n : ℕ} (h : n ≤ 256 ^ 8) : ((clients n).map Client.key).Nodup := by
  unfold clients
  rw [List.map_map]
  refine List.Nodup.map_on (fun j hj k hk hjk => ?_) List.nodup_range
  rw [List.mem_range] at hj hk
  have hbytes : toBigEndian 8 j = toBigEndian 8 k := congrArg MacKey.bytes hjk
  calc j = ofBigEndian (toBigEndian 8 j) := (ofBigEndian_toBigEndian (by omega)).symm
    _ = ofBigEndian (toBigEndian 8 k) := by rw [hbytes]
    _ = k := ofBigEndian_toBigEndian (by omega)

/-- If nothing of the range was marked, new clients get all of it after a reset. -/
theorem freesRange_of_unmarked (hi : i ∈ conf.ifaces) (h : Unmarked conf s i) :
    FreesRange toLower conf (s.reset conf) i := by
  have hsize : (conf.iface i).addrSpace.addrs.length ≤ 256 ^ 8 := by
    obtain ⟨m, hm, heq, -⟩ := (conf.iface i).addrSpace.addrs_eq
    have hmax := (conf.iface i).addrSpace.len_le
    unfold maxRangeLen at hmax
    rw [heq, List.length_map, List.length_range]
    omega
  have hnew : NewClients (s.reset conf) i (clients (conf.iface i).addrSpace.addrs.length) :=
    ⟨nodup_clients hsize, fun c _ => by rw [leases_reset hi, GoMap.get_empty]⟩
  have hmarks : ∀ x ∈ (conf.iface i).addrSpace.addrs,
      ((s.reset conf).iface i).leasedOffsets.isSet (bit conf i x) = true ↔ x ∈ ([] : List Addr) := fun x hx => by
    rw [isSet_reset, h x hx]
    simp
  obtain ⟨u, hu⟩ : ∃ u, allocations toLower conf i (s.reset conf) (clients (conf.iface i).addrSpace.addrs.length) =
    .ok (u, (conf.iface i).addrSpace.addrs) := allocations_rest rfl (by simp [clients]) hmarks
  exact ⟨fun ip hip => ⟨_, u, _, hnew, hu, hip⟩,
    _, u, _, hnew, hu, rfl, (conf.iface i).addrSpace.nodup_addrs⟩

/-- After a reset the whole range of an interface can be given to new clients if and only if no address of it was
marked before. -/
theorem freesRange_reset_iff (hi : i ∈ conf.ifaces) :
    FreesRange toLower conf (s.reset conf) i ↔ Unmarked conf s i :=
  ⟨unmarked_of_freesRange hi, freesRange_of_unmarked hi⟩

/-- A lease on `.100` is added and removed before the reset. -/
theorem freesRange_reset_removed :
    let l : Lease := ⟨.v4 0xc0a80a64, 0, "laptop", [2, 0, 0, 0, 0, 1], true⟩
    let s := ((new asciiLower lanConf []).step asciiLower lanConf (.addLease l)).step asciiLower lanConf (.removeLease l)
    FreesRange asciiLower lanConf (s.reset lanConf) 0 :=
  (freesRange_reset_iff (by decide)).2 (by decide +kernel)

/-- A client is offered `.100` before the reset, and the range has only two addresses for others after it. -/
theorem not_freesRange_reset_offered :
    ¬ ∀ (env : Env6) (conf : ServerConf) (s : DHCPServer), Reachable env conf s →
      ∀ i ∈ conf.ifaces, FreesRange env.toLower conf (s.reset conf) i := by
  intro h
  have hunmarked := unmarked_of_freesRange (by decide) (h asciiEnv6 lanConf _
    (.event (.op (.discover 0 (lanMessage [2, 0, 0, 0, 0, 1] none "") 1 [])) (.new [])) 0 (by decide))
  exact absurd hunmarked (by decide +kernel)

end DHCPServer

end AdGuardHome.Dhcpsvc
