import AdGuardHome.Dhcpsvc.Leases
import AdGuardHome.Lib.TwinIndex

/-!
# The lease index

The index by hostname and the index by address have the same leases, in every run in which no operation

* changes the hostname of an indexed lease in place, as a DHCPREQUEST with another hostname and a DHCPDECLINE do,
* deletes the address of one lease and the hostname of another,
* writes over an entry by address and not over the entry of the same lease by hostname, or the other way round.
-/

namespace AdGuardHome.Dhcpsvc.DHCPServer

open AdGuardHome.Net AdGuardHome.Lib AdGuardHome.Dhcp

variable {toLower : GoString → GoString} {conf : ServerConf} {s : DHCPServer}

/-! ## The invariant -/

/-- The index by hostname has a lease exactly under its lower-cased hostname, and exactly if the index by address
has it. -/
structure IndexCoherent (toLower : GoString → GoString) (s : DHCPServer) : Prop where
  index : ∀ k r, s.byName.get k = some r ↔
    s.byAddr.get (s.lease r).ip = some r ∧ k = toLower (s.lease r).hostname
  /-- Another hostname, such as one from before a renewal, does not resolve to the lease. -/
  renamed : ∀ k r, k ≠ toLower (s.lease r).hostname → s.byName.get k ≠ some r

/-- What holds of the index along a run. -/
structure IndexInv (toLower : GoString → GoString) (s : DHCPServer) : Prop where
  twin : Twin s.byAddr s.byName (fun r => (s.lease r).ip) (fun r => toLower (s.lease r).hostname)
  allocated : ∀ a r, s.byAddr.get a = some r → r < s.heap.next
  storedAllocated : ∀ i k r, s.Stored i k r → r < s.heap.next

theorem IndexInv.coherent (h : IndexInv toLower s) : IndexCoherent toLower s where
  index := h.twin.iff
  renamed := fun k r hne hget => hne ((h.twin.iff k r).1 hget).2

namespace IndexInv

theorem empty : IndexInv toLower empty where
  twin := Twin.empty
  allocated := by simp [DHCPServer.empty]
  storedAllocated := fun i k r hr => absurd hr (not_stored_empty i k r)

/-- Rewriting a record in place, if its lower-cased hostname stays or it is not indexed. -/
theorem modify (h : IndexInv toLower s) {r : Ref} {f : Lease → Lease} (hip : ∀ l, (f l).ip = l.ip)
    (hname : s.byAddr.get (s.lease r).ip = some r →
      toLower (f (s.lease r)).hostname = toLower (s.lease r).hostname) : IndexInv toLower (s.modify r f) where
  twin := by
    refine h.twin.congr_keys fun a v hv => ?_
    rw [lease_modify]
    split
    · rename_i hvr
      subst hvr
      refine ⟨hip _, hname ?_⟩
      rw [h.twin.key a v hv]
      exact hv
    · exact ⟨rfl, rfl⟩
  allocated := h.allocated
  storedAllocated := h.storedAllocated

theorem alloc (h : IndexInv toLower s) (l : Lease) : IndexInv toLower (s.alloc l) where
  twin := by
    refine h.twin.congr_keys fun a v hv => ?_
    rw [lease_alloc_of_lt s (h.allocated a v hv)]
    exact ⟨rfl, rfl⟩
  allocated := fun a r hr => Nat.lt_succ_of_lt (h.allocated a r hr)
  storedAllocated := fun i k r hr => Nat.lt_succ_of_lt (h.storedAllocated i k r hr)

/-- The interfaces may change as long as they hold allocated leases. -/
theorem modifyIface (h : IndexInv toLower s) {i : Ref} {f : NetInterface → NetInterface}
    (hst : ∀ j k x, (s.modifyIface i f).Stored j k x → x < s.heap.next) : IndexInv toLower (s.modifyIface i f) :=
  ⟨h.twin, h.allocated, hst⟩

theorem modifyIface_set (h : IndexInv toLower s) {i : Ref} {key : MacKey} {r : Ref} {f : NetInterface → NetInterface}
    (hf : ∀ n, (f n).leases = n.leases.set key r) (hr : r < s.heap.next) : IndexInv toLower (s.modifyIface i f) := by
  refine h.modifyIface fun j k x hx => ?_
  rcases (stored_modifyIface_set hf).1 hx with ⟨-, -, rfl⟩ | ⟨hx', -⟩
  · exact hr
  · exact h.storedAllocated j k x hx'

theorem dropped (h : IndexInv toLower s) (i : Ref) (key : MacKey) (ip : Addr) :
    IndexInv toLower (s.dropped conf i key ip) :=
  h.modifyIface fun j k x hx => h.storedAllocated j k x (stored_dropped.1 hx).1

/-- A removal from both indexes. -/
theorem delIndex (h : IndexInv toLower s) {ip : Addr} {name : GoString} (hpair : s.byAddr.get ip = s.byName.get name) :
    IndexInv toLower { s with byAddr := s.byAddr.del ip, byName := s.byName.del name } where
  twin := h.twin.del hpair
  allocated := by
    intro a r hr
    refine h.allocated a r ?_
    change (s.byAddr.del ip).get a = some r at hr
    rw [GoMap.get_del] at hr
    split at hr
    · cases hr
    · exact hr
  storedAllocated := h.storedAllocated

/-- A write to both indexes. -/
theorem setIndex (h : IndexInv toLower s) {r : Ref} (hr : r < s.heap.next)
    (hpair : s.byAddr.get (s.lease r).ip = s.byName.get (toLower (s.lease r).hostname)) :
    IndexInv toLower { s with
      byAddr := s.byAddr.set (s.lease r).ip r, byName := s.byName.set (toLower (s.lease r).hostname) r } where
  twin := h.twin.set (v := r) hpair
  allocated := by
    intro a x hx
    change (s.byAddr.set (s.lease r).ip r).get a = some x at hx
    rw [GoMap.get_set] at hx
    split at hx
    · cases hx; exact hr
    · exact h.allocated a x hx
  storedAllocated := h.storedAllocated

end IndexInv

/-! ## The operations -/

/-- A removal of a lease deletes one lease from both indexes, unless it is refused. -/
def RemovesPair (toLower : GoString → GoString) (conf : ServerConf) (s : DHCPServer) (i : Ref) (l : Lease) : Prop :=
  match s.indexRemove toLower conf i l with
  | .error _ => True
  | .ok _ => s.byAddr.get l.ip = s.byName.get (toLower l.hostname)

/-- An update deletes one lease from both indexes and writes over one lease in both, or none, unless it is
refused. -/
def UpdatesPairs (toLower : GoString → GoString) (s : DHCPServer) (i r : Ref) : Prop :=
  match s.ifaceUpdateLease i r, s.indexUpdate toLower i r with
  | .ok (prev, _), .ok _ =>
    s.byAddr.get (s.lease prev).ip = s.byName.get (toLower (s.lease prev).hostname) ∧
      (s.byAddr.del (s.lease prev).ip).get (s.lease r).ip =
        (s.byName.del (toLower (s.lease prev).hostname)).get (toLower (s.lease r).hostname)
  | _, _ => True

/-- An expired lease that the DISCOVER makes the server reuse is removed from both indexes, or it is in none. -/
def ReusesPair (toLower : GoString → GoString) (conf : ServerConf) (s : DHCPServer) (i : Ref) (req : Message)
    (now : Time) (order : List MacKey) : Prop :=
  match macToKey req.mac with
  | none => True
  | some key =>
    match (s.iface i).leases.get key, s.nextIP conf i, s.findExpiredLease i now order with
    | none, .ok none, some r =>
      match s.indexRemove toLower conf i (s.lease r) with
      | .error _ => s.byAddr.get (s.lease r).ip ≠ some r
      | .ok _ => s.byAddr.get (s.lease r).ip = s.byName.get (toLower (s.lease r).hostname)
    | _, _, _ => True

/-- The hostname that the DHCPREQUEST brings is that of the lease, up to case, if the lease is indexed; the update
is of one lease in both indexes. -/
def RequestKeeps (toLower : GoString → GoString) (conf : ServerConf) (s : DHCPServer) (i : Ref) (req : Message)
    (now : Time) : Prop :=
  match requestTarget conf i req with
  | none => True
  | some (ip, renew) =>
    match s.leaseByMacWithIP i req.mac ip with
    | none => True
    | some r =>
      let f := requested (now + (conf.iface i).leaseTTL) req renew
      (s.byAddr.get (s.lease r).ip = some r → toLower (f (s.lease r)).hostname = toLower (s.lease r).hostname) ∧
        UpdatesPairs toLower (s.modify r f) i r

/-- The declined lease is not indexed or has no hostname. -/
def DeclineKeeps (toLower : GoString → GoString) (conf : ServerConf) (s : DHCPServer) (i : Ref) (req : Message) : Prop :=
  match req.requestedIP with
  | none => True
  | some reqIP =>
    match s.leaseByMacWithIP i req.mac (.v4 reqIP) with
    | none => True
    | some r =>
      (conf.iface i).subnet.contains (.v4 reqIP) = true → s.byAddr.get (s.lease r).ip = some r →
        toLower "" = toLower (s.lease r).hostname

/-- The released lease is one lease in both indexes. -/
def ReleaseKeeps (toLower : GoString → GoString) (conf : ServerConf) (s : DHCPServer) (i : Ref) (req : Message) : Prop :=
  match req.clientIP with
  | none => True
  | some ip =>
    match s.leaseByMacWithIP i req.mac (.v4 ip) with
    | none => True
    | some r => (conf.iface i).subnet.contains (.v4 ip) = true → RemovesPair toLower conf s i (s.lease r)

/-- The operation takes none of the branches that break the index. -/
def KeepsIndex (toLower : GoString → GoString) (conf : ServerConf) (s : DHCPServer) : Op → Prop
  | .discover i req now order => i ∈ conf.interfaces4 → ReusesPair toLower conf s i req now order
  | .request i req now => i ∈ conf.interfaces4 → RequestKeeps toLower conf s i req now
  | .decline i req _ => i ∈ conf.interfaces4 → DeclineKeeps toLower conf s i req
  | .release i req => i ∈ conf.interfaces4 → ReleaseKeeps toLower conf s i req
  | .updateStaticLease l =>
    match ifaceForAddr conf l.ip with
    | none => True
    | some i => UpdatesPairs toLower (s.alloc l) i s.heap.next
  | .removeLease l =>
    match ifaceForAddr conf l.ip with
    | none => True
    | some i => RemovesPair toLower conf s i l
  | _ => True

namespace IndexInv

theorem indexRemove (h : IndexInv toLower s) {i : Ref} {l : Lease} {s' : DHCPServer}
    (hrm : s.indexRemove toLower conf i l = .ok s') (hpair : s.byAddr.get l.ip = s.byName.get (toLower l.hostname)) :
    IndexInv toLower s' := by
  obtain ⟨-, -, key, -, -, rfl⟩ := indexRemove_ok hrm
  exact (h.dropped i key l.ip).delIndex hpair

theorem indexUpdate (h : IndexInv toLower s) {i r : Ref} (hr : r < s.heap.next) {s' : DHCPServer}
    (hup : s.indexUpdate toLower i r = .ok s') (hpairs : UpdatesPairs toLower s i r) : IndexInv toLower s' := by
  obtain ⟨-, -, key, prev, hkey, hprev, rfl⟩ := indexUpdate_ok hup
  unfold UpdatesPairs at hpairs
  have hiface : s.ifaceUpdateLease i r =
      .ok (prev, s.modifyIface i fun n => { n with leases := n.leases.set key r }) := by
    unfold ifaceUpdateLease
    simp only [hkey, show (s.iface i).leases.get key = some prev from hprev]
  rw [hiface, hup] at hpairs
  have hput : IndexInv toLower (s.modifyIface i fun n => { n with leases := n.leases.set key r }) :=
    h.modifyIface_set (fun _ => rfl) hr
  exact (hput.delIndex hpairs.1).setIndex hr hpairs.2

theorem indexAdd (h : IndexInv toLower s) {i r : Ref} (hr : r < s.heap.next) {s' : DHCPServer}
    (hadd : s.indexAdd toLower conf i r = .ok s') : IndexInv toLower s' := by
  obtain ⟨haddr, hname, key, -, -, rfl⟩ := indexAdd_ok hadd
  have hput : IndexInv toLower (s.modifyIface i fun n =>
      { leases := n.leases.set key r
        leasedOffsets := n.leasedOffsets.set (bit conf i (s.lease r).ip) true }) :=
    h.modifyIface_set (fun _ => rfl) hr
  exact hput.setIndex hr (haddr.trans hname.symm)

/-- A client without a lease gets a new one or an expired one, which is taken out of the index. -/
theorem allocateLease (h : IndexInv toLower s) {i : Ref} {mac : HardwareAddr} {key : MacKey} {now : Time}
    {order : List MacKey} {s' : DHCPServer} {r' : Ref}
    (hsafe : s.nextIP conf i = .ok none → ∀ r, s.findExpiredLease i now order = some r →
      match s.indexRemove toLower conf i (s.lease r) with
      | .error _ => s.byAddr.get (s.lease r).ip ≠ some r
      | .ok _ => s.byAddr.get (s.lease r).ip = s.byName.get (toLower (s.lease r).hostname))
    (hal : s.allocateLease toLower conf i mac key now order = .ok (s', r')) : IndexInv toLower s' := by
  unfold DHCPServer.allocateLease reserveLease at hal
  dsimp only at hal
  cases hip : s.nextIP conf i with
  | error e => rw [hip] at hal; cases hal
  | ok o =>
    rw [hip] at hal
    cases o with
    | some ip =>
      cases hal
      exact (h.alloc _).modifyIface_set (fun _ => rfl) (Nat.lt_succ_self _)
    | none =>
      dsimp only at hal
      cases hex : s.findExpiredLease i now order with
      | none => rw [hex] at hal; cases hal
      | some r =>
        rw [hex] at hal
        have hreuse := hsafe hip r hex
        obtain ⟨k₀, hr⟩ := findExpiredLease_stored hex
        have hlt := h.storedAllocated i k₀ r hr
        -- the state in which the lease is rewritten: it is in neither index
        obtain ⟨t, hrm, ht, htlt, htout⟩ : ∃ t, s.orElse (s.indexRemove toLower conf i (s.lease r)) = t ∧
            IndexInv toLower t ∧ r < t.heap.next ∧ t.byAddr.get (t.lease r).ip ≠ some r := by
          cases hrm : s.indexRemove toLower conf i (s.lease r) with
          | error e =>
            rw [hrm] at hreuse
            exact ⟨s, rfl, h, hlt, hreuse⟩
          | ok t =>
            rw [hrm] at hreuse
            refine ⟨t, rfl, h.indexRemove hrm hreuse, ?_⟩
            obtain ⟨-, -, key', -, -, rfl⟩ := indexRemove_ok hrm
            refine ⟨hlt, ?_⟩
            show (s.byAddr.del (s.lease r).ip).get (s.lease r).ip ≠ some r
            rw [GoMap.get_del_self]
            exact fun hne => by cases hne
        dsimp only at hal
        rw [hrm] at hal
        rw [Except.ok.injEq, Prod.mk.injEq] at hal
        obtain ⟨rfl, -⟩ := hal
        have hmod : IndexInv toLower (t.modify r fun l =>
            { l with hwAddr := mac, hostname := "", isStatic := false, expiry := now + (conf.iface i).leaseTTL }) :=
          ht.modify (fun _ => rfl) fun hidx => absurd hidx htout
        have hput : IndexInv toLower ((t.modify r fun l =>
            { l with hwAddr := mac, hostname := "", isStatic := false, expiry := now + (conf.iface i).leaseTTL }).modifyIface
              i fun n => { n with leases := n.leases.set key r }) := hmod.modifyIface_set (fun _ => rfl) htlt
        exact hput.modifyIface_set (fun _ => rfl) htlt

theorem discover (h : IndexInv toLower s) {i : Ref} {req : Message} {now : Time} {order : List MacKey}
    (hsafe : ReusesPair toLower conf s i req now order) :
    IndexInv toLower (s.handleDiscover toLower conf i req now order) := by
  refine discover_rule h (fun _ r _ _ => h.modify (ip_setExpiry _) fun _ => by rw [hostname_setExpiry]) ?_
  intro key s' r' hkey hget hal
  refine h.allocateLease (fun hip r hr => ?_) hal
  unfold ReusesPair at hsafe
  rw [hkey] at hsafe
  simp only [hget, hip, hr] at hsafe
  exact hsafe

theorem request (h : IndexInv toLower s) {i : Ref} {req : Message} {now : Time}
    (hsafe : RequestKeeps toLower conf s i req now) :
    IndexInv toLower (s.handleRequest toLower conf i req now) := by
  unfold handleRequest
  unfold RequestKeeps at hsafe
  split
  · exact h
  · rename_i ip renew htarget
    rw [htarget] at hsafe
    dsimp only at hsafe
    split
    · exact h
    · rename_i r hr
      rw [hr] at hsafe
      obtain ⟨hname, hpairs⟩ := hsafe
      obtain ⟨key, -, hst, -⟩ := leaseByMacWithIP_some hr
      have hreq := h.modify (ip_requested (now + (conf.iface i).leaseTTL) req renew) hname
      dsimp only
      cases hup : (s.modify r (requested (now + (conf.iface i).leaseTTL) req renew)).indexUpdate toLower i r with
      | error e => exact hreq
      | ok s'' => exact hreq.indexUpdate (h.storedAllocated i key r hst) hup hpairs

theorem decline (h : IndexInv toLower s) {i : Ref} {req : Message} (now : Time)
    (hsafe : DeclineKeeps toLower conf s i req) : IndexInv toLower (s.handleDecline conf i req now) := by
  refine decline_rule h fun reqIP r hip hsub hr => orElse_rule h fun s' hblock => ?_
  obtain ⟨key, -, rfl⟩ := blockLease_ok hblock
  unfold DeclineKeeps at hsafe
  simp only [hip, hr] at hsafe
  exact (h.dropped i key _).modify (fun _ => rfl) (hsafe hsub)

theorem release (h : IndexInv toLower s) {i : Ref} {req : Message} (hsafe : ReleaseKeeps toLower conf s i req) :
    IndexInv toLower (s.handleRelease toLower conf i req) := by
  refine release_rule h fun ip r hip hsub hr => orElse_rule h fun s' hrm => ?_
  unfold ReleaseKeeps at hsafe
  simp only [hip, hr] at hsafe
  replace hsafe := hsafe hsub
  dsimp only [RemovesPair] at hsafe
  rw [hrm] at hsafe
  exact h.indexRemove hrm hsafe

theorem addLease (h : IndexInv toLower s) (l : Lease) :
    IndexInv toLower (s.orElse (s.addLease toLower conf l)) := by
  refine orElse_rule h fun s' hs' => ?_
  obtain ⟨i, -, hadd⟩ := addLease_ok hs'
  exact (h.alloc l).indexAdd (Nat.lt_succ_self _) hadd

/-- Every operation that takes none of the bad branches keeps the invariant. -/
theorem step (h : IndexInv toLower s) {op : Op} (hsafe : KeepsIndex toLower conf s op) :
    IndexInv toLower (s.step toLower conf op) := by
  cases op with
  | discover i req now order =>
    exact iteInduction (motive := IndexInv toLower) (fun hi => h.discover (hsafe hi)) fun _ => h
  | request i req now => exact iteInduction (motive := IndexInv toLower) (fun hi => h.request (hsafe hi)) fun _ => h
  | decline i req now =>
    exact iteInduction (motive := IndexInv toLower) (fun hi => h.decline now (hsafe hi)) fun _ => h
  | release i req => exact iteInduction (motive := IndexInv toLower) (fun hi => h.release (hsafe hi)) fun _ => h
  | addLease l => exact h.addLease l
  | updateStaticLease l =>
    refine orElse_rule h fun s' hs' => ?_
    obtain ⟨i, hi, hup⟩ := updateStaticLease_ok hs'
    rw [KeepsIndex, hi] at hsafe
    exact (h.alloc l).indexUpdate (Nat.lt_succ_self _) hup hsafe
  | removeLease l =>
    refine orElse_rule h fun s' hs' => ?_
    obtain ⟨i, hi, hrm⟩ := removeLease_ok hs'
    rw [KeepsIndex, hi] at hsafe
    dsimp only [RemovesPair] at hsafe
    rw [hrm] at hsafe
    exact h.indexRemove hrm hsafe
  | reset =>
    refine ⟨Twin.empty, fun a r hr => ?_, fun i k r hr => h.storedAllocated i k r (stored_reset hr)⟩
    exact absurd ((GoMap.get_empty a).symm.trans hr) (by simp)

theorem new (toLower : GoString → GoString) (conf : ServerConf) (db : List Lease) :
    IndexInv toLower (new toLower conf db) := by
  suffices hload : ∀ (db : List Lease) (s : DHCPServer), IndexInv toLower s →
      IndexInv toLower (db.foldl (fun s l => s.orElse (s.addLease toLower conf l)) s) from
    hload db _ IndexInv.empty
  intro db
  induction db with
  | nil => exact fun s h => h
  | cons l db ih =>
    intro s h
    rw [List.foldl_cons]
    exact ih _ (h.addLease l)

end IndexInv

/-! ## Whole runs -/

/-- From a server with any database, the index is coherent after every run whose operations take none of the
branches that break it. -/
theorem indexCoherent_of_keepsIndex (toLower : GoString → GoString) (conf : ServerConf) (db : List Lease)
    (ops : List Op) (hkeep : Meets (step toLower conf) (KeepsIndex toLower conf) (new toLower conf db) ops) :
    IndexCoherent toLower (run (step toLower conf) (new toLower conf db) ops) :=
  (run_invariant_of_meets (I := IndexInv toLower) (fun _ _ h hsafe => h.step hsafe) (IndexInv.new toLower conf db)
    hkeep).coherent

/-- A client gets an address under the hostname `laptop`. -/
def laptopRun : List Op :=
  [.discover 0 (lanMessage [2, 0, 0, 0, 0, 1] none "") 1 [],
    .request 0 (lanMessage [2, 0, 0, 0, 0, 1] (some 0xc0a80a64) "laptop") 2]

/-- After a request under another hostname, the old one still resolves to the lease. -/
theorem not_indexCoherent_renamedRun :
    ¬ IndexCoherent asciiLower (run (step asciiLower lanConf) (new asciiLower lanConf [])
      (laptopRun ++ [.request 0 (lanMessage [2, 0, 0, 0, 0, 1] (some 0xc0a80a64) "tablet") 3])) := fun h =>
  absurd (by decide +kernel) (h.renamed "laptop" 0 (by decide +kernel))

instance (s : DHCPServer) (i r : Ref) : Decidable (UpdatesPairs toLower s i r) := by
  unfold UpdatesPairs
  split <;> infer_instance

theorem reusesPair_iff (s : DHCPServer) (i : Ref) (req : Message) (now : Time) (order : List MacKey) :
    ReusesPair toLower conf s i req now order ↔
      ∀ key ∈ macToKey req.mac, ∀ r ∈ s.findExpiredLease i now order,
        (s.iface i).leases.get key = none → (s.nextIP conf i).toOption = some none →
          if (s.indexRemove toLower conf i (s.lease r)).isOk then
            s.byAddr.get (s.lease r).ip = s.byName.get (toLower (s.lease r).hostname)
          else s.byAddr.get (s.lease r).ip ≠ some r := by
  unfold ReusesPair
  cases macToKey req.mac with
  | none => simp
  | some key =>
    cases hget : (s.iface i).leases.get key with
    | some _ => simp [hget]
    | none =>
      rcases s.nextIP conf i with _ | (_ | _)
      · simp [Except.toOption]
      · cases s.findExpiredLease i now order with
        | none => simp
        | some r =>
          cases hremove : s.indexRemove toLower conf i (s.lease r) <;>
            simp [hget, hremove, Except.toOption, Except.isOk, Except.toBool]
      · simp [Except.toOption]

instance (s : DHCPServer) (i : Ref) (req : Message) (now : Time) (order : List MacKey) :
    Decidable (ReusesPair toLower conf s i req now order) := decidable_of_iff _ (reusesPair_iff s i req now order).symm

instance (s : DHCPServer) (i : Ref) (req : Message) (now : Time) :
    Decidable (RequestKeeps toLower conf s i req now) := by
  unfold RequestKeeps
  split
  · infer_instance
  · split <;> infer_instance

/-- The client keeps its hostname up to case, and a static lease is added. -/
def recasedRun : List Op :=
  laptopRun ++ [.request 0 (lanMessage [2, 0, 0, 0, 0, 1] (some 0xc0a80a64) "Laptop") 3, .addLease (printer 0xc0a80a65)]

theorem indexCoherent_recasedRun :
    Meets (step asciiLower lanConf) (KeepsIndex asciiLower lanConf) (new asciiLower lanConf []) recasedRun ∧
      IndexCoherent asciiLower (run (step asciiLower lanConf) (new asciiLower lanConf []) recasedRun) := by
  have hkeep : Meets (step asciiLower lanConf) (KeepsIndex asciiLower lanConf) (new asciiLower lanConf [])
      recasedRun := by
    refine ⟨fun _ => ?_, fun _ => ?_, fun _ => ?_, trivial, trivial⟩ <;> decide +kernel
  exact ⟨hkeep, indexCoherent_of_keepsIndex asciiLower lanConf [] recasedRun hkeep⟩

end AdGuardHome.Dhcpsvc.DHCPServer
