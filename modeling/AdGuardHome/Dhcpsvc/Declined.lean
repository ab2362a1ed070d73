import AdGuardHome.Dhcpsvc.Packets

/-!
# Declined addresses

An address that its client has declined is leased on no interface any more, and stays so until a client without a
lease is handed it out as the next free address, since blocking a lease clears the mark of its address.  The index
still has the blocked lease, so an address that was committed before can be offered but not committed again.
-/

namespace AdGuardHome.Dhcpsvc.DHCPServer

open AdGuardHome.Net AdGuardHome.Lib AdGuardHome.Dhcp

variable {env : Env6} {conf : ServerConf} {s : DHCPServer}

/-! ## Runs -/

/-- What happens to a server: an operation or a packet. -/
inductive Event
  | op (o : Op)
  | packet (p : Packet)

def evolve (env : Env6) (conf : ServerConf) (s : DHCPServer) : Event → DHCPServer
  | .op o => s.step env.toLower conf o
  | .packet p => (s.serve env conf p).1

/-- The state after a packet. -/
def serveState (env : Env6) (conf : ServerConf) (s : DHCPServer) (p : Packet) : DHCPServer := (s.serve env conf p).1

/-- The lease that a DHCPDECLINE or DECLINE message is about. -/
def declinedLease (env : Env6) (conf : ServerConf) (s : DHCPServer) (p : Packet) : Option Ref :=
  match p.content with
  | .v4 .decline req =>
    if p.iface ∈ conf.interfaces4 then
      req.requestedIP.bind fun reqIP =>
        if (conf.iface p.iface).subnet.contains (.v4 reqIP) then s.leaseByMacWithIP p.iface req.mac (.v4 reqIP) else none
    else none
  | .v6 .decline req =>
    if p.iface ∈ conf.interfaces6 ∧ clientIDMatchingServer env req.options req.duidData = true then
      (s.leaseForIANAAddr p.iface req).bind Prod.snd
    else none
  | _ => none

/-- No lease but the one under the key of `r` on the interface is on its address. -/
def OnlyLease (conf : ServerConf) (s : DHCPServer) (i r : Ref) : Prop :=
  ∀ j ∈ conf.ifaces, ∀ k x, s.Stored j k x → (s.lease x).ip = (s.lease r).ip →
    j = i ∧ macToKey (s.lease r).hwAddr = some k

/-- The lease that `commit` makes of a new one. -/
def newLease (env : Env6) (conf : ServerConf) (i : Ref) (mac : HardwareAddr) (a : Addr) (req : Message6) (now : Time) :
    Lease := committedLease env conf i req now ⟨a, now + (conf.iface i).leaseTTL, "", mac, false⟩

/-- The index has no lease of another client on the address or under the name of the new lease, and the database takes
the leases. -/
structure Takes (env : Env6) (s : DHCPServer) (l : Lease) (stored : Bool) : Prop where
  addr : s.takenByOther l (s.byAddr.get l.ip) = false
  name : s.takenByOther l (s.byName.get (env.toLower l.hostname)) = false
  stored : stored = true

/-- A client without a lease asks for one when the address is the next that is not marked, and the lease can be
committed if it is to be. -/
def HandsOut (env : Env6) (conf : ServerConf) (a : Addr) (s : DHCPServer) (p : Packet) : Prop :=
  ∃ q, asks env conf p = some q ∧ (s.iface p.iface).leases.get q.key = none ∧ s.nextIP conf p.iface = .ok (some a) ∧
    ∀ req, q.commits = some req → Takes env s (newLease env conf p.iface q.mac a req p.now) p.stored

/-! ## The state after the lease is declined -/

theorem declinedLease_spec {p : Packet} {r : Ref} (h : declinedLease env conf s p = some r) :
    p.iface ∈ conf.ifaces ∧ (∃ key, s.Stored p.iface key r) ∧
      serveState env conf s p = s.orElse (s.blockLease conf p.iface r p.now) := by
  obtain ⟨i, now, order, stored, content⟩ := p
  unfold declinedLease at h
  split at h
  · rename_i req hcontent
    dsimp only at hcontent h
    subst hcontent
    split at h
    · rename_i hi
      obtain ⟨reqIP, hip, h⟩ := Option.bind_eq_some_iff.1 h
      split at h
      · rename_i hsub
        obtain ⟨key, -, hst, -⟩ := leaseByMacWithIP_some h
        refine ⟨mem_ifaces4 hi, ⟨key, hst⟩, ?_⟩
        unfold serveState serve handleDHCPv4 handleDecline
        dsimp only
        rw [if_pos hi, hip]
        dsimp only
        rw [if_neg (by simp [hsub]), h]
      · cases h
    · cases h
  · rename_i req hcontent
    dsimp only at hcontent h
    subst hcontent
    split at h
    · rename_i hcond
      obtain ⟨hi, hid⟩ := hcond
      obtain ⟨⟨iaid, lease⟩, hlease, h⟩ := Option.bind_eq_some_iff.1 h
      dsimp only at h
      subst h
      obtain ⟨⟨iaid', ip⟩, -, heq⟩ := Option.map_eq_some_iff.1 hlease
      obtain ⟨-, hfound⟩ := Prod.mk.inj heq
      refine ⟨mem_ifaces6 hi, ⟨req.key, (Option.filter_eq_some_iff.1 hfound).1⟩, ?_⟩
      unfold serveState serve handleDHCPv6 handleDecline6
      dsimp only
      rw [if_pos hi, if_neg (by simp [hid]), hlease]
      dsimp only
      cases s.blockLease conf i r now with
      | error e => cases e <;> rfl
      | ok t => rfl
    · cases h
  · cases h

/-- A lease that is blocked is on no interface any more. -/
theorem not_leased_blockLease {i r : Ref} {now : Time} (honly : OnlyLease conf s i r) (hi : i ∈ conf.ifaces)
    {key : MacKey} (hst : s.Stored i key r) :
    ¬ Leased conf (s.orElse (s.blockLease conf i r now)) (s.lease r).ip := by
  obtain ⟨-, hkey⟩ := honly i hi key r hst rfl
  have hdrop : s.ifaceRemoveLease conf i (s.lease r) = .ok (s.dropped conf i key (s.lease r).ip) := by
    unfold ifaceRemoveLease
    rw [hkey]
    dsimp only
    rw [if_neg (by rw [show (s.iface i).leases.get key = some r from hst]; simp)]
    rfl
  unfold blockLease
  rw [hdrop]
  intro h
  have hmod : Leased conf ((s.dropped conf i key (s.lease r).ip).modify r fun l =>
      { l with
        hwAddr := blockedHardwareAddr
        hostname := ""
        expiry := now + (conf.iface i).leaseTTL
        isStatic := false }) (s.lease r).ip := h
  obtain ⟨j, hj, k, x, hx, hxip⟩ := hmod.of_modify fun _ => by rfl
  obtain ⟨hold, hne⟩ := stored_dropped.1 hx
  obtain ⟨hji, hk⟩ := honly j hj k x hold hxip
  rw [hkey, Option.some_inj] at hk
  exact hne ⟨hji, hk.symm⟩

/-! ## Committing a new lease -/

theorem macToKey_of_indexUpdate_fault {i r : Ref} {toLower : GoString → GoString}
    (h : s.indexUpdate toLower i r = .error .fault) : macToKey (s.lease r).hwAddr = none := by
  unfold indexUpdate at h
  dsimp only at h
  split at h
  · cases h
  split at h
  · cases h
  unfold ifaceUpdateLease at h
  cases hkey : macToKey (s.lease r).hwAddr with
  | none => rfl
  | some key =>
    rw [hkey] at h
    dsimp only at h
    cases hprev : (s.iface i).leases.get key <;> rw [hprev] at h <;> cases h

section Commit

variable {i : Ref} {mac : HardwareAddr} {key : MacKey} {now : Time} {ip : Addr} {req : Message6} {stored : Bool}

/-- The state in which the index is asked to take a new lease. -/
def committing (env : Env6) (conf : ServerConf) (s : DHCPServer) (i : Ref) (mac : HardwareAddr) (key : MacKey)
    (now : Time) (ip : Addr) (req : Message6) : DHCPServer :=
  (s.assigned conf i mac key now ip).modify s.heap.next (committedLease env conf i req now)

theorem lease_committing_next : (s.committing env conf i mac key now ip req).lease s.heap.next =
    newLease env conf i mac ip req now := by
  unfold committing newLease
  rw [lease_modify, if_pos rfl, lease_assigned]

theorem lease_committing_of_lt {x : Ref} (hx : x < s.heap.next) :
    (s.committing env conf i mac key now ip req).lease x = s.lease x := by
  unfold committing
  rw [lease_modify, if_neg (Nat.ne_of_lt hx)]
  exact lease_alloc_of_lt s hx _

theorem stored_committing {j : Ref} {k : MacKey} {x : Ref} :
    (s.committing env conf i mac key now ip req).Stored j k x ↔
      (j = i ∧ k = key ∧ x = s.heap.next) ∨ (s.Stored j k x ∧ ¬(j = i ∧ k = key)) := by
  show ((s.offered conf i mac now ip).accepted conf i key s.heap.next).Stored j k x ↔ _
  unfold accepted
  exact stored_modifyIface_set fun _ => rfl

theorem hwAddr_newLease : (newLease env conf i mac ip req now).hwAddr = mac := hwAddr_committedLease i req now _

theorem ip_newLease : (newLease env conf i mac ip req now).ip = ip := ip_committedLease i req now _

/-- Whose the leases of the index are does not change by a new lease. -/
theorem takenByOther_committing {l : Lease} {o : Option Ref} (ho : ∀ x, o = some x → x < s.heap.next) :
    (s.committing env conf i mac key now ip req).takenByOther l o = s.takenByOther l o := by
  cases o with
  | none => rfl
  | some x =>
    show (l.hwAddr != ((s.committing env conf i mac key now ip req).lease x).hwAddr) = (l.hwAddr != (s.lease x).hwAddr)
    rw [lease_committing_of_lt (ho x rfl)]

/-- The index takes a new lease on the address. -/
theorem indexUpdate_committing_iff (env : Env6) (conf : ServerConf) (i : Ref) (now : Time) (ip : Addr) (req : Message6)
    (stored : Bool) (hheap : OnHeap s) (hkey : macToKey mac = some key) :
    ((∃ u, (s.committing env conf i mac key now ip req).indexUpdate env.toLower i s.heap.next = .ok u) ∧
        stored = true) ↔
      Takes env s (newLease env conf i mac ip req now) stored := by
  have haddr : ∀ x, s.byAddr.get ip = some x → x < s.heap.next := fun x hx => hheap x (.inr (.inl ⟨ip, hx⟩))
  have hname : ∀ n x, s.byName.get n = some x → x < s.heap.next := fun n x hx => hheap x (.inr (.inr ⟨n, hx⟩))
  constructor
  · rintro ⟨⟨u, hup⟩, hstored⟩
    obtain ⟨ha, hn, -⟩ := indexUpdate_ok hup
    rw [lease_committing_next] at ha hn
    refine ⟨?_, ?_, hstored⟩
    · rw [ip_newLease] at ha ⊢
      exact (takenByOther_committing haddr).symm.trans ha
    · exact (takenByOther_committing (hname _)).symm.trans hn
  · rintro ⟨ha, hn, hstored⟩
    have hself : (s.committing env conf i mac key now ip req).Stored i key s.heap.next :=
      stored_committing.2 (.inl ⟨rfl, rfl, rfl⟩)
    refine ⟨indexUpdate_of_free ?_ ?_ ?_ hself, hstored⟩
    · rw [lease_committing_next, ip_newLease]
      rw [ip_newLease] at ha
      exact (takenByOther_committing haddr).trans ha
    · rw [lease_committing_next]
      exact (takenByOther_committing (hname _)).trans hn
    · rw [lease_committing_next, hwAddr_newLease]
      exact hkey

theorem uncommit_snd_ne_ok (s : DHCPServer) (i r : Ref) : (s.uncommit conf i r).2 ≠ .ok := by
  unfold uncommit
  cases s.ifaceRemoveLease conf i (s.lease r) with
  | error e => cases e <;> simp
  | ok t => simp

/-- A new lease that cannot be committed is taken away again. -/
theorem not_leased_uncommit {t : DHCPServer} {r : Ref} (hkey : macToKey (t.lease r).hwAddr = some key)
    (hr : t.Stored i key r) (hst : ∀ j k x, t.Stored j k x → s.Stored j k x ∨ (j = i ∧ k = key))
    (hip : ∀ j k x, s.Stored j k x → (t.lease x).ip = (s.lease x).ip) {a : Addr}
    (h : Leased conf (t.uncommit conf i r).1 a) : Leased conf s a := by
  have hdrop : (t.uncommit conf i r).1 = t.dropped conf i key (t.lease r).ip := by
    unfold uncommit ifaceRemoveLease
    rw [hkey]
    dsimp only
    rw [if_neg (by rw [show (t.iface i).leases.get key = some r from hr]; simp)]
    rfl
  rw [hdrop] at h
  obtain ⟨j, hj, k, x, hx, hxa⟩ := h
  obtain ⟨hx, hne⟩ := stored_dropped.1 hx
  rcases hst j k x hx with hold | hnew
  · exact ⟨j, hj, k, x, hold, by rw [← hip j k x hold]; exact hxa⟩
  · exact absurd hnew hne

theorem lease_orElse_committing (env : Env6) (conf : ServerConf) (s : DHCPServer) (i : Ref) (mac : HardwareAddr)
    (key : MacKey) (now : Time) (ip : Addr) (req : Message6) (x : Ref) :
    (((s.committing env conf i mac key now ip req).orElse
      ((s.committing env conf i mac key now ip req).indexUpdate env.toLower i s.heap.next)).lease x) =
      (s.committing env conf i mac key now ip req).lease x := lease_orElse_indexUpdate env.toLower _ i s.heap.next x

/-- The index puts the new lease where it is. -/
theorem stored_orElse_committing (hkey : macToKey mac = some key) {j : Ref} {k : MacKey} {x : Ref} :
    ((s.committing env conf i mac key now ip req).orElse
      ((s.committing env conf i mac key now ip req).indexUpdate env.toLower i s.heap.next)).Stored j k x ↔
      (s.committing env conf i mac key now ip req).Stored j k x := by
  have hself : (s.committing env conf i mac key now ip req).Stored i key s.heap.next :=
    stored_committing.2 (.inl ⟨rfl, rfl, rfl⟩)
  have hmac : macToKey ((s.committing env conf i mac key now ip req).lease s.heap.next).hwAddr = some key := by
    rw [lease_committing_next, hwAddr_newLease]
    exact hkey
  generalize s.committing env conf i mac key now ip req = t at hself hmac ⊢
  cases hup : t.indexUpdate env.toLower i s.heap.next with
  | error e => rfl
  | ok u =>
    obtain ⟨-, -, key', prev, hkey', -, rfl⟩ := indexUpdate_ok hup
    rw [hmac, Option.some_inj] at hkey'
    subst hkey'
    show (t.modifyIface i fun n => { n with leases := n.leases.set key s.heap.next }).Stored j k x ↔ t.Stored j k x
    rw [stored_modifyIface_set fun _ => rfl]
    constructor
    · rintro (⟨rfl, rfl, rfl⟩ | ⟨hx, -⟩)
      · exact hself
      · exact hx
    · intro hx
      by_cases hat : j = i ∧ k = key
      · obtain ⟨rfl, rfl⟩ := hat
        exact .inl ⟨rfl, rfl, Option.some.inj (hx.symm.trans hself)⟩
      · exact .inr ⟨hx, hat⟩

/-- A new lease is committed if the index and the database take it, and else no more addresses are leased than
before. -/
theorem commit_assigned (env : Env6) (conf : ServerConf) (i : Ref) (now : Time) (ip : Addr) (req : Message6)
    (stored : Bool) (hheap : OnHeap s) (hkey : macToKey mac = some key) :
    (((s.assigned conf i mac key now ip).commit env conf i s.heap.next req now stored).2 = .ok ↔
        Takes env s (newLease env conf i mac ip req now) stored) ∧
      (¬ Takes env s (newLease env conf i mac ip req now) stored → ∀ a,
        Leased conf ((s.assigned conf i mac key now ip).commit env conf i s.heap.next req now stored).1 a →
          Leased conf s a) := by
  have hiff := indexUpdate_committing_iff env conf i now ip req stored hheap hkey
  rcases (s.assigned conf i mac key now ip).commit_cases env conf i s.heap.next req now stored with
    ⟨heq, hup, hstored⟩ | ⟨heq, hfault⟩ | ⟨heq, hnot⟩
  · have htakes := hiff.1 ⟨hup, hstored⟩
    rw [heq]
    exact ⟨⟨fun _ => htakes, fun _ => rfl⟩, fun h => absurd htakes h⟩
  · have hnone := macToKey_of_indexUpdate_fault
      (show (s.committing env conf i mac key now ip req).indexUpdate env.toLower i s.heap.next = .error .fault
        from hfault)
    rw [lease_committing_next, hwAddr_newLease, hkey] at hnone
    cases hnone
  · have hnot' := fun h => hnot (hiff.2 h)
    rw [heq]
    refine ⟨⟨fun h => ?_, fun h => absurd h hnot'⟩, fun _ a ha => ?_⟩
    · exact absurd h (uncommit_snd_ne_ok _ i s.heap.next)
    · have hself : ((s.committing env conf i mac key now ip req).orElse
          ((s.committing env conf i mac key now ip req).indexUpdate env.toLower i s.heap.next)).Stored i key s.heap.next :=
        (stored_orElse_committing hkey).2 (stored_committing.2 (.inl ⟨rfl, rfl, rfl⟩))
      refine not_leased_uncommit ?_ hself ?_ ?_ ha
      · have hlease := congrArg Lease.hwAddr
          ((s.lease_orElse_committing env conf i mac key now ip req s.heap.next).trans lease_committing_next)
        rw [hwAddr_newLease] at hlease
        exact (congrArg macToKey hlease).trans hkey
      · intro j k x hx
        rcases stored_committing.1 ((stored_orElse_committing hkey).1 hx) with ⟨hj, hk, -⟩ | ⟨hx, -⟩
        · exact .inr ⟨hj, hk⟩
        · exact .inl hx
      · intro j k x hx
        have hlt : x < s.heap.next := hheap x (.inl ⟨j, k, hx⟩)
        exact congrArg Lease.ip
          ((s.lease_orElse_committing env conf i mac key now ip req x).trans (lease_committing_of_lt hlt))

end Commit

/-! ## Steps and runs -/

/-- No interface has a lease on the address. -/
structure Off (conf : ServerConf) (a : Addr) (s : DHCPServer) : Prop where
  heap : OnHeap s
  free : ¬ Leased conf s a

/-- A client without a lease asks for one while the interface has a free address. -/
def Assigns (env : Env6) (conf : ServerConf) (s : DHCPServer) (p : Packet) (q : Ask) (ip : Addr) : Prop :=
  asks env conf p = some q ∧ (s.iface p.iface).leases.get q.key = none ∧ s.nextIP conf p.iface = .ok (some ip)

theorem serve_quiet_of_not_assigns {p : Packet} (h : ¬ ∃ q ip, Assigns env conf s p q ip) :
    Quiet conf s (s.serve env conf p) :=
  serve_quiet fun q hq hget ip hip => h ⟨q, ip, hq, hget, hip⟩

theorem handsOut_iff_of_assigns {p : Packet} {q : Ask} {ip a : Addr} (h : Assigns env conf s p q ip) :
    HandsOut env conf a s p ↔
      ip = a ∧ ∀ req, q.commits = some req → Takes env s (newLease env conf p.iface q.mac a req p.now) p.stored := by
  obtain ⟨hq, hget, hip⟩ := h
  constructor
  · rintro ⟨q', hq', -, hip', htakes⟩
    rw [hq, Option.some_inj] at hq'
    subst hq'
    rw [hip] at hip'
    exact ⟨Option.some.inj (Except.ok.inj hip'), htakes⟩
  · rintro ⟨rfl, htakes⟩
    exact ⟨q, hq, hget, hip, htakes⟩

/-- An address that is leased nowhere is sent exactly when it is handed out. -/
theorem sends_iff_handsOut {a : Addr} (h : Off conf a s) (p : Packet) :
    Sends (s.serve env conf p).2 a ↔ HandsOut env conf a s p := by
  by_cases hnew : ∃ q ip, Assigns env conf s p q ip
  · obtain ⟨q, ip, hassigns⟩ := hnew
    rw [handsOut_iff_of_assigns hassigns]
    obtain ⟨hq, hget, hip⟩ := hassigns
    rw [(serve_gets hq hget hip).sends a]
    cases hc : q.commits with
    | none => simp [finish]
    | some req =>
      obtain ⟨hok, -⟩ := commit_assigned env conf p.iface p.now ip req p.stored h.heap (macToKey_of_asks hq)
      simp only [finish, beq_iff_eq, hok]
      constructor
      · rintro ⟨htakes, rfl⟩
        refine ⟨rfl, fun req' hreq' => ?_⟩
        cases hreq'
        exact htakes
      · rintro ⟨rfl, htakes⟩
        exact ⟨htakes req rfl, rfl⟩
  · refine iff_of_false (fun hsends => h.free ((serve_quiet_of_not_assigns hnew).sends a hsends)) ?_
    rintro ⟨q, hq, hget, hip, -⟩
    exact hnew ⟨q, a, hq, hget, hip⟩

theorem allocateLease_of_assigns {p : Packet} {q : Ask} {ip : Addr} (h : Assigns env conf s p q ip) :
    s.allocateLease env.toLower conf p.iface q.mac q.key p.now p.order =
      .ok (s.assigned conf p.iface q.mac q.key p.now ip, s.heap.next) := allocateLease_of_nextIP h.2.2

theorem grows_serveState (s : DHCPServer) (p : Packet) : Grows s (serveState env conf s p) := by
  by_cases hnew : ∃ q ip, Assigns env conf s p q ip
  · obtain ⟨q, ip, hassigns⟩ := hnew
    have hal := allocateLease_of_assigns hassigns
    obtain ⟨hq, hget, hip⟩ := hassigns
    rw [show serveState env conf s p = _ from (serve_gets hq hget hip).state]
    cases q.commits with
    | none => exact .allocateLease hal
    | some req => exact (Grows.allocateLease hal).trans (.commit (.inl (held_of_allocateLease hal)))
  · exact (serve_quiet_of_not_assigns hnew).grows

/-- An address that is leased nowhere stays so until it is handed out. -/
theorem Off.serve {a : Addr} (h : Off conf a s) {p : Packet} (hp : ¬ HandsOut env conf a s p) :
    Off conf a (serveState env conf s p) := by
  refine ⟨h.heap.grow (grows_serveState s p), fun hl => ?_⟩
  by_cases hnew : ∃ q ip, Assigns env conf s p q ip
  · obtain ⟨q, ip, hassigns⟩ := hnew
    rw [handsOut_iff_of_assigns hassigns] at hp
    obtain ⟨hq, hget, hip⟩ := hassigns
    rw [show serveState env conf s p = _ from (serve_gets hq hget hip).state] at hl
    have hassigned : ip ≠ a → ¬ Leased conf (s.assigned conf p.iface q.mac q.key p.now ip) a := by
      intro hne hl
      rcases hl.of_assigned h.heap with hl | hl
      · exact h.free hl
      · exact hne hl
    cases hc : q.commits with
    | none =>
      rw [hc] at hl
      exact hassigned (fun heq => hp ⟨heq, fun req hreq => by rw [hc] at hreq; cases hreq⟩) hl
    | some req =>
      rw [hc] at hl
      by_cases heq : ip = a
      · subst heq
        refine h.free ((commit_assigned env conf p.iface p.now ip req p.stored h.heap (macToKey_of_asks hq)).2
          (fun htakes => hp ⟨rfl, ?_⟩) _ hl)
        intro req' hreq'
        rw [hc] at hreq'
        cases hreq'
        exact htakes
      · rcases Leased.of_commit hl with hl | hl
        · exact hassigned heq hl
        · rw [lease_assigned] at hl
          exact heq hl
  · exact h.free ((serve_quiet_of_not_assigns hnew).leased a hl)

/-- In a run of packets, an address that is leased nowhere is in no answer exactly when no packet has it handed
out. -/
theorem Off.meets_iff {a : Addr} (h : Off conf a s) (later : List Packet) :
    Meets (serveState env conf) (fun s p => ¬ Sends (s.serve env conf p).2 a) s later ↔
      Meets (serveState env conf) (fun s p => ¬ HandsOut env conf a s p) s later := by
  have hiff : ∀ s p, Off conf a s → (¬ Sends (s.serve env conf p).2 a ↔ ¬ HandsOut env conf a s p) :=
    fun s p h => not_congr (sends_iff_handsOut h p)
  exact meets_iff_meets hiff (fun _ _ h hp => h.serve hp) h later

theorem onHeap_new (toLower : GoString → GoString) (conf : ServerConf) (db : List Lease) :
    OnHeap (new toLower conf db) := by
  have hload : ∀ (db : List Lease) (s : DHCPServer), OnHeap s →
      OnHeap (db.foldl (fun s l => s.orElse (s.addLease toLower conf l)) s) := by
    intro db
    induction db with
    | nil => exact fun s h => h
    | cons l db ih => exact fun s h => ih _ (h.grow (Grows.step s (.addLease l)))
  refine hload db DHCPServer.empty fun r hr => ?_
  rcases hr with ⟨i, k, hr⟩ | ⟨a, hr⟩ | ⟨n, hr⟩
  · exact absurd hr (not_stored_empty i k r)
  · exact absurd ((GoMap.get_empty a).symm.trans hr) (by simp)
  · exact absurd ((GoMap.get_empty n).symm.trans hr) (by simp)

theorem OnHeap.run (h : OnHeap s) (env : Env6) (conf : ServerConf) (events : List Event) :
    OnHeap (run (evolve env conf) s events) := by
  refine run_invariant (I := OnHeap) (fun s e h => ?_) h events
  cases e with
  | op o => exact h.grow (.step s o)
  | packet p => exact h.grow (grows_serveState s p)

/-- The packets that come until the clock reaches the instant. -/
def before (expiry : Time) (later : List Packet) : List Packet := later.takeWhile fun q => q.now < expiry

/-- After any history, and a message that declines a lease which is the only one on its address, no answer has the
address until the blocked lease expires exactly when no packet has it handed out until then. -/
theorem declined_iff (env : Env6) (conf : ServerConf) (db : List Lease) (history : List Event) (p : Packet) (r : Ref)
    (later : List Packet)
    (hr : declinedLease env conf (run (evolve env conf) (new env.toLower conf db) history) p = some r)
    (honly : OnlyLease conf (run (evolve env conf) (new env.toLower conf db) history) p.iface r) :
    let s := run (evolve env conf) (new env.toLower conf db) history
    let ip := (s.lease r).ip
    let later := before (p.now + (conf.iface p.iface).leaseTTL) later
    Meets (serveState env conf) (fun s q => ¬ Sends (s.serve env conf q).2 ip) (serveState env conf s p) later ↔
      Meets (serveState env conf) (fun s q => ¬ HandsOut env conf ip s q) (serveState env conf s p) later := by
  have hheap := (onHeap_new env.toLower conf db).run env conf history
  dsimp only
  generalize run (evolve env conf) (new env.toLower conf db) history = s at hr honly hheap ⊢
  obtain ⟨hi, ⟨key, hst⟩, hstate⟩ := declinedLease_spec hr
  refine Off.meets_iff ⟨hheap.grow (grows_serveState s p), ?_⟩ _
  rw [hstate]
  exact not_leased_blockLease honly hi hst

/-! ### Runs on a small network -/

def asciiEnv6 : Env6 := ⟨asciiLower, fun name => name ≠ "", fun data => 2 ≤ data.length⟩

/-- A packet of a client on the interface of `lanConf`. -/
def lanPacket (typ : MsgType4) (client : UInt8) (ip : Option (BitVec 32)) (now : Time) : Packet :=
  ⟨0, now, [], true, .v4 typ (lanMessage [2, 0, 0, 0, 0, client] ip "")⟩

/-- Two clients are offered `.100` and `.101`. -/
def twoOffers : List Event := [.packet (lanPacket .discover 1 none 1), .packet (lanPacket .discover 2 none 2)]

theorem onlyLease_of_keys {i r : Ref} (h : ∀ j ∈ conf.ifaces, ∀ k ∈ (s.iface j).leases.keys,
    ∀ x ∈ (s.iface j).leases.get k, (s.lease x).ip = (s.lease r).ip → j = i ∧ macToKey (s.lease r).hwAddr = some k) :
    OnlyLease conf s i r :=
  fun j hj k x hx => h j hj k (mem_keys_of_stored hx) x hx

/-- The second client declines its address, and the first one asks for its own. -/
theorem declined_iff_twoOffers :
    let s := run (evolve asciiEnv6 lanConf) (new asciiLower lanConf []) twoOffers
    let decline := lanPacket .decline 2 (some 0xc0a80a65) 3
    let ip := (s.lease 1).ip
    Meets (serveState asciiEnv6 lanConf) (fun s q => ¬ Sends (s.serve asciiEnv6 lanConf q).2 ip)
      (serveState asciiEnv6 lanConf s decline) (before (3 + 100) [lanPacket .request 1 (some 0xc0a80a64) 4]) := by
  have hiff := declined_iff asciiEnv6 lanConf [] twoOffers (lanPacket .decline 2 (some 0xc0a80a65) 3) 1
    [lanPacket .request 1 (some 0xc0a80a64) 4] (by decide +kernel) (onlyLease_of_keys (by decide +kernel))
  refine hiff.2 ⟨?_, trivial⟩
  rintro ⟨q, hq, -⟩
  cases hq

/-- The first client declines its address, and the next one is offered it. -/
theorem not_declined_kept :
    ¬ ∀ (db : List Lease) (history : List Event) (p : Packet) (r : Ref) (later : List Packet),
      let s := run (evolve asciiEnv6 lanConf) (new asciiLower lanConf db) history
      declinedLease asciiEnv6 lanConf s p = some r →
        Meets (serveState asciiEnv6 lanConf) (fun t q => ¬ Sends (t.serve asciiEnv6 lanConf q).2 (s.lease r).ip)
          (serveState asciiEnv6 lanConf s p) (before (p.now + (lanConf.iface p.iface).leaseTTL) later) := by
  intro h
  have hkept := h [] [.packet (lanPacket .discover 1 none 1)] (lanPacket .decline 1 (some 0xc0a80a64) 2) 0
    [lanPacket .discover 2 none 3] (by decide +kernel)
  refine hkept.1 ⟨.v4 (.offer ⟨.v4 0xc0a80a64, 103, "", [2, 0, 0, 0, 0, 2], false⟩), by decide +kernel, rfl⟩

end AdGuardHome.Dhcpsvc.DHCPServer
