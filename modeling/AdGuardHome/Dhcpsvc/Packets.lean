import AdGuardHome.Dhcpsvc.Pointers

/-!
# What a packet does to the leased addresses

A packet that does not get its client a new address leaves the interfaces with addresses that they had, and is
answered with one of these or with none.  A packet that does is one of a client without a lease that asks for one,
while the interface has a free address.
-/

namespace AdGuardHome.Dhcpsvc

open AdGuardHome.Net AdGuardHome.Lib AdGuardHome.Dhcp

/-- All interfaces. -/
def ServerConf.ifaces (conf : ServerConf) : List Ref := conf.interfaces4 ++ conf.interfaces6

/-- The option has the address. -/
def RespIANA.Carries (a : Addr) : RespIANA → Prop
  | .absent => False
  | .status _ _ => False
  | .encoded opt => ∃ ia ∈ opt.nested, ia.addr = a

namespace DHCPServer

/-- The message is a DHCPOFFER or a DHCPACK of the address. -/
def Reply4.Carries (a : Addr) : Reply4 → Prop
  | .offer l => l.ip = a
  | .ack l => l.ip = a
  | .nak => False

/-- The message gives the address to the client. -/
def Reply.Carries (a : Addr) : Reply → Prop
  | .v4 r => r.Carries a
  | .v6 r => r.iana.Carries a

variable {toLower : GoString → GoString} {env : Env6} {conf : ServerConf} {s s' : DHCPServer}

/-- A lease of an interface is on the address. -/
def Leased (conf : ServerConf) (s : DHCPServer) (a : Addr) : Prop :=
  ∃ j ∈ conf.ifaces, ∃ k x, s.Stored j k x ∧ (s.lease x).ip = a

/-! ## Leased addresses -/

namespace Leased

variable {a : Addr}

/-- A lease whose place and address are from before. -/
theorem of_stored (hst : ∀ j ∈ conf.ifaces, ∀ k x, s'.Stored j k x → s.Stored j k x)
    (hip : ∀ x, (s'.lease x).ip = (s.lease x).ip) (h : Leased conf s' a) : Leased conf s a := by
  obtain ⟨j, hj, k, x, hx, hxa⟩ := h
  exact ⟨j, hj, k, x, hst j hj k x hx, by rw [← hip, hxa]⟩

theorem of_modify {r : Ref} {f : Lease → Lease} (hf : ∀ l, (f l).ip = l.ip) (h : Leased conf (s.modify r f) a) :
    Leased conf s a := by
  have hst : ∀ j ∈ conf.ifaces, ∀ k x, (s.modify r f).Stored j k x → s.Stored j k x := fun _ _ _ _ hx => hx
  exact of_stored hst (fun x => Heap.apply_get_modify Lease.ip hf s.heap r x) h

theorem of_dropped {i : Ref} {key : MacKey} {ip : Addr} (h : Leased conf (s.dropped conf i key ip) a) :
    Leased conf s a :=
  h.of_stored (fun _ _ _ _ hx => (stored_dropped.1 hx).1) fun _ => rfl

theorem of_store {i r : Ref} {key : MacKey} {f : NetInterface → NetInterface}
    (hf : ∀ n, (f n).leases = n.leases.set key r) (h : Leased conf (s.modifyIface i f) a) :
    Leased conf s a ∨ (s.lease r).ip = a := by
  obtain ⟨j, hj, k, x, hx, hxa⟩ := h
  rcases (stored_modifyIface_set hf).1 hx with ⟨-, -, rfl⟩ | ⟨hx, -⟩
  · exact .inr hxa
  · exact .inl ⟨j, hj, k, x, hx, hxa⟩

theorem of_indexRemove {i : Ref} {l : Lease} (h : Leased conf (s.orElse (s.indexRemove toLower conf i l)) a) :
    Leased conf s a := by
  obtain ⟨hheap, hst, -⟩ := @orElse_indexRemove toLower conf s i l
  exact h.of_stored (fun j _ k x hx => hst j k x hx) fun x => congrArg (fun m : Heap Lease => (m.get x).ip) hheap

theorem of_blockLease {i r : Ref} {now : Time} (h : Leased conf (s.orElse (s.blockLease conf i r now)) a) :
    Leased conf s a := by
  unfold blockLease at h
  cases hrm : s.ifaceRemoveLease conf i (s.lease r) with
  | error e =>
    rw [hrm] at h
    exact h
  | ok t =>
    rw [hrm] at h
    obtain ⟨key, -, -, rfl⟩ := ifaceRemoveLease_ok hrm
    have hmod : Leased conf ((s.dropped conf i key (s.lease r).ip).modify r fun l =>
        { l with
          hwAddr := blockedHardwareAddr
          hostname := ""
          expiry := now + (conf.iface i).leaseTTL
          isStatic := false }) a := h
    exact (of_modify (fun _ => by rfl) hmod).of_dropped

theorem of_indexUpdate {i r : Ref} (h : Leased conf (s.orElse (s.indexUpdate toLower i r)) a) :
    Leased conf s a ∨ (s.lease r).ip = a := by
  cases hup : s.indexUpdate toLower i r with
  | error e =>
    rw [hup] at h
    exact .inl h
  | ok t =>
    rw [hup] at h
    obtain ⟨-, -, key, prev, -, -, rfl⟩ := indexUpdate_ok hup
    have hput : Leased conf (s.modifyIface i fun n => { n with leases := n.leases.set key r }) a := h
    exact hput.of_store fun _ => rfl

theorem of_uncommit {i r : Ref} (h : Leased conf (s.uncommit conf i r).1 a) : Leased conf s a := by
  unfold uncommit at h
  cases hrm : s.ifaceRemoveLease conf i (s.lease r) with
  | error e =>
    rw [hrm] at h
    cases e <;> exact h
  | ok t =>
    rw [hrm] at h
    obtain ⟨key, -, -, rfl⟩ := ifaceRemoveLease_ok hrm
    exact h.of_dropped

end Leased

theorem ip_committedLease (i : Ref) (req : Message6) (now : Time) (l : Lease) :
    (committedLease env conf i req now l).ip = l.ip := by
  unfold committedLease
  exact ip_setExpiry _ _

theorem hwAddr_committedLease (i : Ref) (req : Message6) (now : Time) (l : Lease) :
    (committedLease env conf i req now l).hwAddr = l.hwAddr := by
  unfold committedLease
  exact hwAddr_setExpiry _ _

/-- The states that a `commit` ends in. -/
theorem commit_cases (env : Env6) (conf : ServerConf) (s : DHCPServer) (i r : Ref) (req : Message6) (now : Time)
    (stored : Bool) :
    let t := s.modify r (committedLease env conf i req now)
    let t' := t.orElse (t.indexUpdate env.toLower i r)
    (s.commit env conf i r req now stored = (t', .ok) ∧ (∃ u, t.indexUpdate env.toLower i r = .ok u) ∧ stored = true) ∨
      s.commit env conf i r req now stored = (t', .fault) ∧ t.indexUpdate env.toLower i r = .error .fault ∨
      s.commit env conf i r req now stored = t'.uncommit conf i r ∧
        ¬ ((∃ u, t.indexUpdate env.toLower i r = .ok u) ∧ stored = true) := by
  dsimp only
  unfold commit
  generalize s.modify r (committedLease env conf i req now) = t
  dsimp only
  cases hup : t.indexUpdate env.toLower i r with
  | error e =>
    cases e with
    | fault => exact .inr (.inl ⟨rfl, rfl⟩)
    | ipExists | nameExists | macExists | noIP | noName | noMAC | noInterface | noAddresses =>
      exact .inr (.inr ⟨rfl, by simp⟩)
  | ok u =>
    cases stored with
    | true => exact .inl ⟨rfl, ⟨u, rfl⟩, rfl⟩
    | false => exact .inr (.inr ⟨rfl, by simp⟩)

theorem Leased.of_commit {a : Addr} {i r : Ref} {req : Message6} {now : Time} {stored : Bool}
    (h : Leased conf (s.commit env conf i r req now stored).1 a) : Leased conf s a ∨ (s.lease r).ip = a := by
  have hmod : ∀ x, ((s.modify r (committedLease env conf i req now)).lease x).ip = (s.lease x).ip := fun x =>
    Heap.apply_get_modify Lease.ip (ip_committedLease i req now) s.heap r x
  have hupd : Leased conf ((s.modify r (committedLease env conf i req now)).orElse
      ((s.modify r (committedLease env conf i req now)).indexUpdate env.toLower i r)) a →
      Leased conf s a ∨ (s.lease r).ip = a := by
    intro hl
    rcases hl.of_indexUpdate with hl | hl
    · exact .inl (hl.of_modify (ip_committedLease i req now))
    · exact .inr (by rw [← hmod, hl])
  rcases s.commit_cases env conf i r req now stored with ⟨heq, -⟩ | ⟨heq, -⟩ | ⟨heq, -⟩ <;> rw [heq] at h
  · exact hupd h
  · exact hupd h
  · exact hupd h.of_uncommit

theorem heap_uncommit (s : DHCPServer) (i r : Ref) : (s.uncommit conf i r).1.heap = s.heap := by
  unfold uncommit
  cases hrm : s.ifaceRemoveLease conf i (s.lease r) with
  | error e => cases e <;> rfl
  | ok t =>
    obtain ⟨key, -, -, rfl⟩ := ifaceRemoveLease_ok hrm
    rfl

/-- A commit keeps the addresses of all leases. -/
theorem ip_lease_commit (env : Env6) (conf : ServerConf) (s : DHCPServer) (i r : Ref) (req : Message6) (now : Time)
    (stored : Bool) (x : Ref) :
    ((s.commit env conf i r req now stored).1.lease x).ip = (s.lease x).ip := by
  have hupd : (((s.modify r (committedLease env conf i req now)).orElse
      ((s.modify r (committedLease env conf i req now)).indexUpdate env.toLower i r)).lease x).ip = (s.lease x).ip := by
    rw [lease_orElse_indexUpdate]
    exact Heap.apply_get_modify Lease.ip (ip_committedLease i req now) s.heap r x
  rcases s.commit_cases env conf i r req now stored with ⟨heq, -⟩ | ⟨heq, -⟩ | ⟨heq, -⟩ <;> rw [heq]
  · exact hupd
  · exact hupd
  · exact (congrArg (fun m : Heap Lease => (m.get x).ip) (heap_uncommit _ i r)).trans hupd

/-! ## Allocation -/

section Allocation

variable {i : Ref} {mac : HardwareAddr} {key : MacKey} {now : Time} {order : List MacKey} {ip : Addr}

/-- The state after a client gets a new address. -/
def assigned (conf : ServerConf) (s : DHCPServer) (i : Ref) (mac : HardwareAddr) (key : MacKey) (now : Time)
    (ip : Addr) : DHCPServer := (s.offered conf i mac now ip).accepted conf i key s.heap.next

theorem allocateLease_of_nextIP (h : s.nextIP conf i = .ok (some ip)) :
    s.allocateLease toLower conf i mac key now order = .ok (s.assigned conf i mac key now ip, s.heap.next) := by
  rw [allocateLease_eq]
  unfold reserveLease
  rw [h]
  rfl

@[simp] theorem lease_assigned : (s.assigned conf i mac key now ip).lease s.heap.next =
    ⟨ip, now + (conf.iface i).leaseTTL, "", mac, false⟩ := lease_offered_next

theorem Leased.of_assigned {a : Addr} (hheap : OnHeap s) (h : Leased conf (s.assigned conf i mac key now ip) a) :
    Leased conf s a ∨ ip = a := by
  obtain ⟨j, hj, k, x, hx, hxa⟩ := h
  rcases (stored_modifyIface_set fun _ => rfl).1 hx with ⟨-, -, rfl⟩ | ⟨hx, -⟩
  · rw [lease_assigned] at hxa
    exact .inr hxa
  · have hlt : x < s.heap.next := hheap x (.inl ⟨j, k, hx⟩)
    have hold : (s.assigned conf i mac key now ip).lease x = s.lease x := lease_alloc_of_lt s hlt _
    rw [hold] at hxa
    exact .inl ⟨j, hj, k, x, hx, hxa⟩

/-- Without a free address a client gets that of an expired lease. -/
theorem leased_of_allocateLease {a : Addr} {r : Ref} (hi : i ∈ conf.ifaces)
    (hnone : ∀ ip, s.nextIP conf i ≠ .ok (some ip))
    (h : s.allocateLease toLower conf i mac key now order = .ok (s', r)) :
    Leased conf s (s'.lease r).ip ∧ (Leased conf s' a → Leased conf s a) := by
  rw [allocateLease_eq] at h
  rcases reserveLease_cases toLower conf s i mac key now order with ⟨e, herr, -⟩ | ⟨ip, hip, -⟩ | ⟨x, -, hexp, hok⟩
  · rw [herr] at h
    cases h
  · exact absurd hip (hnone ip)
  · rw [hok] at h
    cases h
    obtain ⟨k, hx⟩ := findExpiredLease_stored hexp
    have hip : ∀ y, ((s.recycled toLower conf i r mac key now).lease y).ip = (s.lease y).ip := by
      intro y
      rw [lease_recycled]
      split
      · rename_i hy
        rw [hy]
      · rfl
    refine ⟨⟨i, hi, k, r, hx, (hip r).symm⟩, ?_⟩
    rintro ⟨j, hj, k', y, hy, hya⟩
    have hya' : (s.lease y).ip = a := (hip y).symm.trans hya
    rcases (stored_modifyIface_set fun _ => rfl).1 hy with ⟨-, -, rfl⟩ | ⟨hy, -⟩
    · exact ⟨i, hi, k, y, hx, hya'⟩
    · rcases stored_recycled hy with ⟨-, -, rfl⟩ | ⟨hy, -⟩
      · exact ⟨i, hi, k, y, hx, hya'⟩
      · exact ⟨j, hj, k', y, hy, hya'⟩

end Allocation

/-! ## Answers -/

/-- The answer gives the address to the client. -/
def Sends (reply : Option Reply) (a : Addr) : Prop := ∃ r, reply = some r ∧ r.Carries a

theorem not_sends_none (a : Addr) : ¬ Sends none a := fun ⟨_, h, _⟩ => by cases h

theorem sends_some {r : Reply} {a : Addr} : Sends (some r) a ↔ r.Carries a :=
  ⟨fun ⟨_, h, hr⟩ => Option.some.inj h ▸ hr, fun h => ⟨r, rfl, h⟩⟩

/-- No client gets an address that was not leased. -/
structure Quiet (conf : ServerConf) (s : DHCPServer) (res : DHCPServer × Option Reply) : Prop where
  grows : Grows s res.1
  leased : ∀ a, Leased conf res.1 a → Leased conf s a
  sends : ∀ a, Sends res.2 a → Leased conf s a

/-- What is left to do for a lease that is found or allocated, and whether the client gets it: a lease is offered, or
committed for a message. -/
def finish (env : Env6) (conf : ServerConf) (s : DHCPServer) (i r : Ref) (commits : Option Message6) (now : Time)
    (stored : Bool) : DHCPServer × Bool :=
  match commits with
  | none => (s, true)
  | some req => ((s.commit env conf i r req now stored).1, (s.commit env conf i r req now stored).2 == .ok)

/-- The client gets the address if the lease could be finished. -/
structure Gets (ip : Addr) (fin : DHCPServer × Bool) (res : DHCPServer × Option Reply) : Prop where
  state : res.1 = fin.1
  sends : ∀ a, Sends res.2 a ↔ fin.2 = true ∧ ip = a

theorem Quiet.idle {reply : Option Reply} (h : ∀ a, ¬ Sends reply a) : Quiet conf s (s, reply) :=
  ⟨.refl s, fun _ ha => ha, fun a ha => absurd ha (h a)⟩

/-- A lease that is finished on an address that was leased. -/
theorem Gets.quiet {t : DHCPServer} {i r : Ref} {commits : Option Message6} {now : Time} {stored : Bool}
    {res : DHCPServer × Option Reply} (h : Gets (t.lease r).ip (t.finish env conf i r commits now stored) res)
    (hgrows : Grows s t) (hleased : ∀ a, Leased conf t a → Leased conf s a) (hr : Leased conf s (t.lease r).ip)
    (hheld : t.Held r ∨ r < t.heap.next) : Quiet conf s res := by
  have hsends : ∀ a, Sends res.2 a → Leased conf s a := fun a ha => ((h.sends a).1 ha).2 ▸ hr
  cases commits with
  | none =>
    refine ⟨h.state ▸ hgrows, fun a ha => ?_, hsends⟩
    rw [h.state] at ha
    exact hleased a ha
  | some req =>
    refine ⟨h.state ▸ hgrows.trans (.commit hheld), fun a ha => ?_, hsends⟩
    rw [h.state] at ha
    rcases ha.of_commit with ha | rfl
    · exact hleased a ha
    · exact hr

theorem carries_iaNAFromLease {i : Ref} {l : Lease} {iaid : UInt32} {a : Addr} :
    (iaNAFromLease conf i (some l) iaid).Carries a ↔ l.ip = a := by
  simp [iaNAFromLease, RespIANA.Carries]

theorem not_carries_iaNAFromLease_none {i : Ref} {iaid : UInt32} {a : Addr} :
    ¬ (iaNAFromLease conf i none iaid).Carries a := id

/-! ## DHCPv6 messages that ask for a lease -/

section Ask

variable {i : Ref} {req : Message6} {now : Time} {order : List MacKey} {stored : Bool} {iaid : UInt32}

/-- The answer as one of a packet. -/
def reply6 (res : DHCPServer × Option Reply6) : DHCPServer × Option Reply := (res.1, res.2.map .v6)

/-- How `handleSolicit` goes on with the lease. -/
def answerSolicit (env : Env6) (conf : ServerConf) (s : DHCPServer) (i : Ref) (req : Message6) (iaid : UInt32)
    (now : Time) (stored : Bool) : Option Ref → DHCPServer × Option Reply6
  | none => (s, some ⟨true, iaNAFromLease conf i none iaid, false, none⟩)
  | some r =>
    if (findOption6 req.options optRapidCommit).isNone then
      (s, some ⟨true, iaNAFromLease conf i (s.lease r) iaid, false, none⟩)
    else match s.commit env conf i r req now stored with
      | (s, .ok) => (s, some ⟨false, iaNAFromLease conf i (s.lease r) iaid, true, none⟩)
      | (s, .failed) => (s, some ⟨true, iaNAFromLease conf i none iaid, false, none⟩)
      | (s, .fault) => (s, none)

/-- How `handleRequest` goes on with the lease. -/
def answerRequest (env : Env6) (conf : ServerConf) (s : DHCPServer) (i : Ref) (req : Message6) (iaid : UInt32)
    (now : Time) (stored : Bool) : Option Ref → DHCPServer × Option Reply6
  | none => (s, some (.reply (.status iaid .noAddrsAvail)))
  | some r =>
    ((s.commitIANA env conf i r req iaid now stored).1,
      (s.commitIANA env conf i r req iaid now stored).2.map Reply6.reply)

theorem gets_answerSolicit (env : Env6) (conf : ServerConf) (s : DHCPServer) (i : Ref) (req : Message6) (iaid : UInt32)
    (now : Time) (stored : Bool) (r : Ref) :
    Gets (s.lease r).ip
      (s.finish env conf i r (if (findOption6 req.options optRapidCommit).isSome then some req else none) now stored)
      (reply6 (s.answerSolicit env conf i req iaid now stored (some r))) := by
  unfold answerSolicit
  cases findOption6 req.options optRapidCommit with
  | none => exact ⟨rfl, fun a => by simp [reply6, sends_some, Reply.Carries, carries_iaNAFromLease, finish]⟩
  | some data =>
    have hip := s.ip_lease_commit env conf i r req now stored r
    simp only [Option.isNone_some, Option.isSome_some, Bool.false_eq_true, if_false, if_true, finish]
    cases hc : s.commit env conf i r req now stored with
    | mk t c =>
      rw [hc] at hip
      cases c with
      | ok => exact ⟨rfl, fun a => by simp [reply6, sends_some, Reply.Carries, carries_iaNAFromLease, hip]⟩
      | failed => exact ⟨rfl, fun a => by simp [reply6, sends_some, Reply.Carries, not_carries_iaNAFromLease_none]⟩
      | fault => exact ⟨rfl, fun a => by simp [reply6, not_sends_none]⟩

theorem gets_answerRequest (env : Env6) (conf : ServerConf) (s : DHCPServer) (i : Ref) (req : Message6) (iaid : UInt32)
    (now : Time) (stored : Bool) (r : Ref) :
    Gets (s.lease r).ip (s.finish env conf i r (some req) now stored)
      (reply6 (s.answerRequest env conf i req iaid now stored (some r))) := by
  have hip := s.ip_lease_commit env conf i r req now stored r
  simp only [answerRequest, commitIANA, finish]
  cases hc : s.commit env conf i r req now stored with
  | mk t c =>
    rw [hc] at hip
    cases c with
    | ok =>
      exact ⟨rfl, fun a => by simp [reply6, sends_some, Reply.Carries, Reply6.reply, carries_iaNAFromLease, hip]⟩
    | failed => exact ⟨rfl, fun a => by simp [reply6, sends_some, Reply.Carries, Reply6.reply, RespIANA.Carries]⟩
    | fault => exact ⟨rfl, fun a => by simp [reply6, not_sends_none]⟩

theorem handleSolicit_eq {iana : IANAOption} (hid : clientIDNoServer env req.options = true)
    (hiana : firstIANA req = some iana) :
    s.handleSolicit env conf i req now order stored =
      match s.allocateForSolicit env conf i req now order with
      | .error _ => (s, none)
      | .ok (t, lease) => t.answerSolicit env conf i req iana.id now stored lease := by
  unfold handleSolicit
  rw [if_neg (by simp [hid]), hiana]
  dsimp only
  cases s.allocateForSolicit env conf i req now order with
  | error e => rfl
  | ok res =>
    obtain ⟨t, lease⟩ := res
    cases lease <;> rfl

theorem handleRequest6_eq {iana : IANAOption} (hid : clientIDMatchingServer env req.options req.duidData = true)
    (hiana : firstIANA req = some iana)
    (hlink : (iana.requestedAddr.any fun reqIP => !(conf.iface i).subnet.contains reqIP) = false) :
    s.handleRequest6 env conf i req now order stored =
      match s.allocateForSolicit env conf i req now order with
      | .error _ => (s, none)
      | .ok (t, lease) => t.answerRequest env conf i req iana.id now stored lease := by
  unfold handleRequest6
  rw [if_neg (by simp [hid]), hiana]
  dsimp only
  rw [if_neg (by simp [hlink])]
  unfold ianaForRequest allocateForSolicit
  cases (s.iface i).leases.get req.key with
  | some r => rfl
  | none =>
    dsimp only
    cases s.allocateLease env.toLower conf i req.srcMAC req.key now order with
    | error e => cases e <;> rfl
    | ok res => rfl

end Ask

/-! ## Packets that bring no new address -/

section QuietPackets

variable {i : Ref} {now : Time} {order : List MacKey} {stored : Bool}

theorem leased_of_get (hi : i ∈ conf.ifaces) {k : MacKey} {r : Ref} (h : (s.iface i).leases.get k = some r) :
    Leased conf s (s.lease r).ip := ⟨i, hi, k, r, h, rfl⟩

theorem held_of_get {k : MacKey} {r : Ref} (h : (s.iface i).leases.get k = some r) : s.Held r := .inl ⟨i, k, h⟩

theorem held_of_allocateLease {mac : HardwareAddr} {key : MacKey} {r : Ref}
    (h : s.allocateLease toLower conf i mac key now order = .ok (s', r)) : s'.Held r := by
  rw [allocateLease_eq] at h
  cases hres : s.reserveLease toLower conf i mac key now order with
  | error e =>
    rw [hres] at h
    cases h
  | ok res =>
    rw [hres] at h
    cases h
    exact .inl ⟨i, key, (stored_modifyIface_set fun _ => rfl).2 (.inl ⟨rfl, rfl, rfl⟩)⟩

/-- A client that has a lease, or gets that of an expired one. -/
theorem allocateForSolicit_quiet {req : Message6} {lease : Option Ref} (hi : i ∈ conf.ifaces)
    (hold : (s.iface i).leases.get req.key = none → ∀ ip, s.nextIP conf i ≠ .ok (some ip))
    (h : s.allocateForSolicit env conf i req now order = .ok (s', lease)) :
    Grows s s' ∧ (∀ a, Leased conf s' a → Leased conf s a) ∧
      ∀ r, lease = some r → Leased conf s (s'.lease r).ip ∧ s'.Held r := by
  unfold allocateForSolicit at h
  cases hget : (s.iface i).leases.get req.key with
  | some r =>
    rw [hget] at h
    cases h
    refine ⟨.refl s, fun _ ha => ha, fun x hx => ?_⟩
    cases hx
    exact ⟨leased_of_get hi hget, held_of_get hget⟩
  | none =>
    rw [hget] at h
    dsimp only at h
    cases hal : s.allocateLease env.toLower conf i req.srcMAC req.key now order with
    | error e =>
      rw [hal] at h
      have hs : s = s' ∧ none = lease := by
        cases e <;> cases h <;> exact ⟨rfl, rfl⟩
      obtain ⟨rfl, rfl⟩ := hs
      exact ⟨.refl s, fun _ ha => ha, fun x hx => by cases hx⟩
    | ok res =>
      obtain ⟨t, r⟩ := res
      rw [hal] at h
      cases h
      refine ⟨.allocateLease hal, fun a => (leased_of_allocateLease hi (hold hget) hal).2, fun x hx => ?_⟩
      cases hx
      exact ⟨(leased_of_allocateLease (a := .invalid) hi (hold hget) hal).1, held_of_allocateLease hal⟩

theorem quiet_solicit (hi : i ∈ conf.ifaces) (req : Message6)
    (hold : clientIDNoServer env req.options = true → (firstIANA req).isSome = true →
      (s.iface i).leases.get req.key = none → ∀ ip, s.nextIP conf i ≠ .ok (some ip)) :
    Quiet conf s (reply6 (s.handleSolicit env conf i req now order stored)) := by
  by_cases hid : clientIDNoServer env req.options = true
  · cases hiana : firstIANA req with
    | none =>
      unfold handleSolicit
      rw [hiana, if_neg (by simp [hid])]
      exact .idle not_sends_none
    | some iana =>
      rw [handleSolicit_eq hid hiana]
      cases hal : s.allocateForSolicit env conf i req now order with
      | error e => exact .idle not_sends_none
      | ok res =>
        obtain ⟨t, lease⟩ := res
        obtain ⟨hgrows, hleased, hlease⟩ := allocateForSolicit_quiet hi (hold hid (by simp [hiana])) hal
        cases lease with
        | none =>
          exact ⟨hgrows, hleased, fun a ha => ((sends_some.1 ha : RespIANA.Carries a (.status _ _))).elim⟩
        | some r =>
          exact (gets_answerSolicit env conf _ i req _ now stored r).quiet hgrows hleased (hlease r rfl).1
            (.inl (hlease r rfl).2)
  · unfold handleSolicit
    rw [if_pos (by simpa using hid)]
    exact .idle not_sends_none

/-- The message asks for a lease, on the link or on no address in particular. -/
def onLink (conf : ServerConf) (i : Ref) (req : Message6) : Bool :=
  (firstIANA req).any fun iana => !(iana.requestedAddr.any fun reqIP => !(conf.iface i).subnet.contains reqIP)

theorem quiet_request6 (hi : i ∈ conf.ifaces) (req : Message6)
    (hold : clientIDMatchingServer env req.options req.duidData = true → onLink conf i req = true →
      (s.iface i).leases.get req.key = none → ∀ ip, s.nextIP conf i ≠ .ok (some ip)) :
    Quiet conf s (reply6 (s.handleRequest6 env conf i req now order stored)) := by
  by_cases hid : clientIDMatchingServer env req.options req.duidData = true
  · cases hiana : firstIANA req with
    | none =>
      unfold handleRequest6
      rw [hiana, if_neg (by simp [hid])]
      exact .idle fun a ha => (sends_some.1 ha : RespIANA.Carries a .absent)
    | some iana =>
      by_cases hlink : (iana.requestedAddr.any fun reqIP => !(conf.iface i).subnet.contains reqIP) = true
      · unfold handleRequest6
        rw [hiana, if_neg (by simp [hid])]
        dsimp only
        rw [if_pos hlink]
        exact .idle fun a ha => (sends_some.1 ha : RespIANA.Carries a (.status _ _))
      · rw [Bool.not_eq_true] at hlink
        rw [handleRequest6_eq hid hiana hlink]
        cases hal : s.allocateForSolicit env conf i req now order with
        | error e => exact .idle not_sends_none
        | ok res =>
          obtain ⟨t, lease⟩ := res
          obtain ⟨hgrows, hleased, hlease⟩ :=
            allocateForSolicit_quiet hi (hold hid (by simp [onLink, hiana, hlink])) hal
          cases lease with
          | none => exact ⟨hgrows, hleased, fun a ha => ((sends_some.1 ha : RespIANA.Carries a (.status _ _))).elim⟩
          | some r =>
            exact (gets_answerRequest env conf _ i req _ now stored r).quiet hgrows hleased (hlease r rfl).1
              (.inl (hlease r rfl).2)
  · unfold handleRequest6
    rw [if_pos (by simpa using hid)]
    exact .idle not_sends_none

theorem quiet_handleUpdate (hi : i ∈ conf.ifaces) (req : Message6) :
    Quiet conf s (reply6 (s.handleUpdate env conf i req now stored)) := by
  unfold handleUpdate
  cases firstIANA req with
  | none => exact .idle fun a ha => (sends_some.1 ha : RespIANA.Carries a .absent)
  | some iana =>
    dsimp only
    unfold ianaForUpdate
    cases iana.requestedAddr with
    | none => exact .idle fun a ha => (sends_some.1 ha : RespIANA.Carries a .absent)
    | some reqIP =>
      dsimp only
      cases hget : ((s.iface i).leases.get req.key).filter fun r => (s.lease r).ip == reqIP with
      | none => exact .idle fun a ha => (sends_some.1 ha : RespIANA.Carries a (.status _ _))
      | some r =>
        have hfound := (Option.filter_eq_some_iff.1 hget).1
        exact (gets_answerRequest env conf _ i req _ now stored r).quiet (.refl s) (fun _ ha => ha)
          (leased_of_get hi hfound)
          (.inl (held_of_get hfound))

/-- The end of a RELEASE or DECLINE message of a lease. -/
theorem quiet_removed (iaid : UInt32) (stored : Bool) (x : Except Err DHCPServer) :
    Grows s (s.orElse x) → (∀ a, Leased conf (s.orElse x) a → Leased conf s a) →
    Quiet conf s (reply6 (match x with
      | .error .fault => (s, none)
      | .error _ => (s, some (.reply (.status iaid .noBinding)))
      | .ok s' => (s', some
          (if stored then .success (.encoded ⟨[], iaid, 0, 0⟩) else .reply (.status iaid .noBinding))))) := by
  intro hgrows hleased
  cases x with
  | error e =>
    cases e with
    | fault => exact .idle not_sends_none
    | ipExists | nameExists | macExists | noIP | noName | noMAC | noInterface | noAddresses =>
      exact .idle fun a ha => (sends_some.1 ha : RespIANA.Carries a (.status _ _))
  | ok t =>
    refine ⟨hgrows, hleased, fun a ha => ?_⟩
    cases stored with
    | true => exact absurd (sends_some.1 ha) (by simp [Reply.Carries, Reply6.success, RespIANA.Carries])
    | false => exact absurd (sends_some.1 ha) (by simp [Reply.Carries, Reply6.reply, RespIANA.Carries])

theorem quiet_release6 (req : Message6) : Quiet conf s (reply6 (s.handleRelease6 env conf i req stored)) := by
  unfold handleRelease6
  split
  · exact .idle not_sends_none
  cases s.leaseForIANAAddr i req with
  | none => exact .idle fun a ha => (sends_some.1 ha : RespIANA.Carries a .absent)
  | some res =>
    obtain ⟨iaid, lease⟩ := res
    cases lease with
    | none => exact .idle fun a ha => (sends_some.1 ha : RespIANA.Carries a (.status _ _))
    | some r => exact quiet_removed iaid stored _ (.indexRemove s i (s.lease r)) fun _ => Leased.of_indexRemove

theorem quiet_decline6 (req : Message6) : Quiet conf s (reply6 (s.handleDecline6 env conf i req now stored)) := by
  unfold handleDecline6
  split
  · exact .idle not_sends_none
  cases s.leaseForIANAAddr i req with
  | none => exact .idle fun a ha => (sends_some.1 ha : RespIANA.Carries a .absent)
  | some res =>
    obtain ⟨iaid, lease⟩ := res
    cases lease with
    | none => exact .idle fun a ha => (sends_some.1 ha : RespIANA.Carries a (.status _ _))
    | some r => exact quiet_removed iaid stored _ (.blockLease s i r now) fun _ => Leased.of_blockLease

theorem not_carries_handleConfirm (req : Message6) (a : Addr) :
    ¬ Sends ((handleConfirm env conf i req).map .v6) a := by
  unfold handleConfirm
  split
  · exact not_sends_none a
  · cases confirmAddrsOnLink conf i req with
    | none => exact not_sends_none a
    | some allOnLink => exact fun ha => (sends_some.1 ha : RespIANA.Carries a .absent)

theorem not_carries_handleInfo (req : Message6) (a : Addr) : ¬ Sends ((handleInfo req).map .v6) a := by
  unfold handleInfo
  split
  · exact not_sends_none a
  split
  · exact not_sends_none a
  split
  · exact not_sends_none a
  · exact fun ha => (sends_some.1 ha : RespIANA.Carries a .absent)

/-- The answer as one of a packet. -/
def reply4 (res : DHCPServer × Option Reply4) : DHCPServer × Option Reply := (res.1, res.2.map .v4)

theorem quiet_discover (hi : i ∈ conf.ifaces) (req : Message)
    (hold : ∀ key, macToKey req.mac = some key → (s.iface i).leases.get key = none →
      ∀ ip, s.nextIP conf i ≠ .ok (some ip)) :
    Quiet conf s (reply4 (s.handleDiscover4 toLower conf i req now order)) := by
  unfold handleDiscover4
  cases hkey : macToKey req.mac with
  | none => exact .idle not_sends_none
  | some key =>
    dsimp only
    cases hget : (s.iface i).leases.get key with
    | some r =>
      refine ⟨.modify s r _, fun a ha => Leased.of_modify (fun l => by rw [ip_setExpiry]) ha, fun a ha => ?_⟩
      have hip : ((s.modify r (setExpiry (now + (conf.iface i).leaseTTL))).lease r).ip = a := sends_some.1 ha
      rw [lease_modify, if_pos rfl, ip_setExpiry] at hip
      exact hip ▸ leased_of_get hi hget
    | none =>
      dsimp only
      cases hal : s.allocateLease toLower conf i req.mac key now order with
      | error e => exact .idle not_sends_none
      | ok res =>
        obtain ⟨t, r⟩ := res
        refine ⟨.allocateLease hal, fun a => (leased_of_allocateLease hi (hold key hkey hget) hal).2, fun a ha => ?_⟩
        have hip : (t.lease r).ip = a := sends_some.1 ha
        exact hip ▸ (leased_of_allocateLease (a := a) hi (hold key hkey hget) hal).1

theorem quiet_request4 (hi : i ∈ conf.ifaces) (req : Message) :
    Quiet conf s (reply4 (s.handleRequest4 toLower conf i req now stored)) := by
  have hspec := s.handleRequest4_spec toLower conf i req now stored
  cases hm : requestMatch conf s i req with
  | none =>
    rw [hm] at hspec
    rcases hspec with h | h <;> rw [h]
    · exact .idle not_sends_none
    · exact .idle fun a ha => (sends_some.1 ha : Reply4.Carries a .nak)
  | some m =>
    obtain ⟨r, renew⟩ := m
    rw [hm] at hspec
    rw [show s.handleRequest4 toLower conf i req now stored = _ from hspec, respondOn]
    obtain ⟨key, hst⟩ := stored_of_match hm
    have hip : ∀ x, ((s.modify r (requested (now + (conf.iface i).leaseTTL) req renew)).lease x).ip = (s.lease x).ip :=
      fun x => Heap.apply_get_modify Lease.ip (ip_requested _ req renew) s.heap r x
    have hgrows := (Grows.modify s r (requested (now + (conf.iface i).leaseTTL) req renew)).trans
      (Grows.indexUpdate toLower i (.inl (.inl ⟨i, key, hst⟩)))
    have hleased : ∀ a, Leased conf ((s.modify r (requested (now + (conf.iface i).leaseTTL) req renew)).orElse
        ((s.modify r (requested (now + (conf.iface i).leaseTTL) req renew)).indexUpdate toLower i r)) a →
        Leased conf s a := by
      intro a ha
      rcases ha.of_indexUpdate with ha | rfl
      · exact ha.of_modify (ip_requested _ req renew)
      · rw [hip]
        exact leased_of_get hi hst
    generalize s.modify r (requested (now + (conf.iface i).leaseTTL) req renew) = t at hip hgrows hleased ⊢
    refine ⟨updateAndRespond_fst toLower t i r stored ▸ hgrows,
      updateAndRespond_fst toLower t i r stored ▸ hleased, fun a ha => ?_⟩
    have hlease := t.lease_orElse_indexUpdate toLower i r r
    unfold updateAndRespond at ha
    cases hup : t.indexUpdate toLower i r with
    | error e =>
      rw [hup] at ha
      cases e with
      | fault => exact absurd ha (not_sends_none a)
      | ipExists | nameExists | macExists | noIP | noName | noMAC | noInterface | noAddresses =>
        exact (sends_some.1 ha : Reply4.Carries a .nak).elim
    | ok u =>
      rw [hup] at ha hlease
      cases stored with
      | false => exact (sends_some.1 ha : Reply4.Carries a .nak).elim
      | true =>
        have hua : (u.lease r).ip = a := sends_some.1 ha
        rw [← hua, show u.lease r = t.lease r from hlease, hip]
        exact leased_of_get hi hst

theorem quiet_release4 (req : Message) : Quiet conf s (reply4 (s.handleRelease toLower conf i req, none)) := by
  refine ⟨.release s i req, fun a ha => ?_, fun a ha => absurd ha (not_sends_none a)⟩
  simp only [reply4, handleRelease] at ha
  split at ha
  · exact ha
  · split at ha
    · exact ha
    · split at ha
      · exact ha
      · exact ha.of_indexRemove

theorem quiet_decline4 (req : Message) : Quiet conf s (reply4 (s.handleDecline conf i req now, none)) := by
  refine ⟨.decline s i req now, fun a ha => ?_, fun a ha => absurd ha (not_sends_none a)⟩
  simp only [reply4, handleDecline] at ha
  split at ha
  · exact ha
  · split at ha
    · exact ha
    · split at ha
      · exact ha
      · exact ha.of_blockLease

end QuietPackets

/-! ## Packets that may bring one -/

/-- What a client asks for, and the message that its lease is to be committed for if it is not only to be offered. -/
structure Ask where
  mac : HardwareAddr
  key : MacKey
  commits : Option Message6

/-- The packet asks for a lease. -/
def asks (env : Env6) (conf : ServerConf) (p : Packet) : Option Ask :=
  match p.content with
  | .v4 .discover req =>
    if p.iface ∈ conf.interfaces4 then (macToKey req.mac).map fun key => ⟨req.mac, key, none⟩ else none
  | .v6 .solicit req =>
    if p.iface ∈ conf.interfaces6 ∧ clientIDNoServer env req.options = true ∧ (firstIANA req).isSome = true then
      some ⟨req.srcMAC, req.key, if (findOption6 req.options optRapidCommit).isSome then some req else none⟩
    else none
  | .v6 .request req =>
    if p.iface ∈ conf.interfaces6 ∧ clientIDMatchingServer env req.options req.duidData = true ∧
        onLink conf p.iface req = true then some ⟨req.srcMAC, req.key, some req⟩
    else none
  | _ => none

theorem macToKey_of_asks {p : Packet} {q : Ask} (h : asks env conf p = some q) : macToKey q.mac = some q.key := by
  have hkey6 : ∀ req : Message6, macToKey req.srcMAC = some req.key := by
    intro req
    unfold macToKey
    rw [dif_pos (by rw [req.isEthernet]; rfl)]
    rfl
  unfold asks at h
  split at h
  · split at h
    · obtain ⟨key, hkey, rfl⟩ := Option.map_eq_some_iff.1 h
      exact hkey
    · cases h
  · split at h
    · cases h
      exact hkey6 _
    · cases h
  · split at h
    · cases h
      exact hkey6 _
    · cases h
  · cases h

theorem mem_ifaces4 {i : Ref} (h : i ∈ conf.interfaces4) : i ∈ conf.ifaces := List.mem_append_left _ h

theorem mem_ifaces6 {i : Ref} (h : i ∈ conf.interfaces6) : i ∈ conf.ifaces := List.mem_append_right _ h

/-- A packet brings no new address unless a client without a lease asks for one while the interface has a free
address. -/
theorem serve_quiet {p : Packet} (hold : ∀ q, asks env conf p = some q →
    (s.iface p.iface).leases.get q.key = none → ∀ ip, s.nextIP conf p.iface ≠ .ok (some ip)) :
    Quiet conf s (s.serve env conf p) := by
  obtain ⟨i, now, order, stored, content⟩ := p
  unfold serve
  cases content with
  | v4 typ req =>
    dsimp only
    split
    · rename_i hi
      cases typ with
      | discover =>
        refine quiet_discover (mem_ifaces4 hi) req fun key hkey hget => hold ⟨req.mac, key, none⟩ ?_ hget
        simp only [asks, hi, if_true, hkey, Option.map_some]
      | request => exact quiet_request4 (mem_ifaces4 hi) req
      | release => exact quiet_release4 req
      | decline => exact quiet_decline4 req
    · exact .idle not_sends_none
  | v6 typ req =>
    dsimp only
    split
    · rename_i hi
      cases typ with
      | solicit =>
        refine quiet_solicit (mem_ifaces6 hi) req fun hid hiana hget => hold _ (if_pos ⟨hi, hid, hiana⟩) hget
      | request =>
        refine quiet_request6 (mem_ifaces6 hi) req fun hid hlink hget => hold _ (if_pos ⟨hi, hid, hlink⟩) hget
      | confirm => exact .idle (not_carries_handleConfirm req)
      | renew =>
        show Quiet conf s (reply6 (s.handleRenew6 env conf i req now stored))
        unfold handleRenew6
        split
        · exact .idle not_sends_none
        · exact quiet_handleUpdate (mem_ifaces6 hi) req
      | rebind =>
        show Quiet conf s (reply6 (s.handleRebind6 env conf i req now stored))
        unfold handleRebind6
        split
        · exact .idle not_sends_none
        · exact quiet_handleUpdate (mem_ifaces6 hi) req
      | informationRequest => exact .idle (not_carries_handleInfo req)
      | release => exact quiet_release6 req
      | decline => exact quiet_decline6 req
    · exact .idle not_sends_none

section Gets

variable {i : Ref} {now : Time} {order : List MacKey} {stored : Bool} {ip : Addr}

/-- Both DHCPv6 messages go on with the lease that is allocated. -/
theorem allocateForSolicit_of_nextIP {req : Message6} (hget : (s.iface i).leases.get req.key = none)
    (hip : s.nextIP conf i = .ok (some ip)) :
    s.allocateForSolicit env conf i req now order =
      .ok (s.assigned conf i req.srcMAC req.key now ip, some s.heap.next) := by
  unfold allocateForSolicit
  rw [hget]
  dsimp only
  rw [allocateLease_of_nextIP hip]

theorem gets_discover {req : Message} {key : MacKey} (hkey : macToKey req.mac = some key)
    (hget : (s.iface i).leases.get key = none) (hip : s.nextIP conf i = .ok (some ip)) :
    Gets ip ((s.assigned conf i req.mac key now ip).finish env conf i s.heap.next none now stored)
      (reply4 (s.handleDiscover4 env.toLower conf i req now order)) := by
  have hres : s.handleDiscover4 env.toLower conf i req now order = (s.assigned conf i req.mac key now ip,
      some (.offer ((s.assigned conf i req.mac key now ip).lease s.heap.next))) := by
    unfold handleDiscover4
    rw [hkey]
    dsimp only
    rw [hget]
    dsimp only
    rw [allocateLease_of_nextIP hip]
  rw [hres]
  exact ⟨rfl, fun a => by simp [reply4, sends_some, Reply.Carries, Reply4.Carries, finish]⟩

theorem gets_solicit {req : Message6} (hid : clientIDNoServer env req.options = true)
    (hiana : (firstIANA req).isSome = true) (hget : (s.iface i).leases.get req.key = none)
    (hip : s.nextIP conf i = .ok (some ip)) :
    Gets ip ((s.assigned conf i req.srcMAC req.key now ip).finish env conf i s.heap.next
        (if (findOption6 req.options optRapidCommit).isSome then some req else none) now stored)
      (reply6 (s.handleSolicit env conf i req now order stored)) := by
  obtain ⟨iana, hiana⟩ := Option.isSome_iff_exists.1 hiana
  rw [handleSolicit_eq hid hiana, allocateForSolicit_of_nextIP hget hip]
  have hgets := gets_answerSolicit env conf (s.assigned conf i req.srcMAC req.key now ip) i req iana.id now stored
    s.heap.next
  rw [lease_assigned] at hgets
  exact hgets

theorem gets_request6 {req : Message6} (hid : clientIDMatchingServer env req.options req.duidData = true)
    (hlink : onLink conf i req = true) (hget : (s.iface i).leases.get req.key = none)
    (hip : s.nextIP conf i = .ok (some ip)) :
    Gets ip ((s.assigned conf i req.srcMAC req.key now ip).finish env conf i s.heap.next (some req) now stored)
      (reply6 (s.handleRequest6 env conf i req now order stored)) := by
  unfold onLink at hlink
  obtain ⟨iana, hiana, hlink⟩ := (Option.any_eq_true _ _).1 hlink
  rw [handleRequest6_eq hid hiana (by simpa using hlink), allocateForSolicit_of_nextIP hget hip]
  have hgets := gets_answerRequest env conf (s.assigned conf i req.srcMAC req.key now ip) i req iana.id now stored
    s.heap.next
  rw [lease_assigned] at hgets
  exact hgets

end Gets

/-- A client without a lease that asks for one gets the next address, if its lease can be committed or need not
be. -/
theorem serve_gets {p : Packet} {q : Ask} {ip : Addr} (hq : asks env conf p = some q)
    (hget : (s.iface p.iface).leases.get q.key = none) (hip : s.nextIP conf p.iface = .ok (some ip)) :
    Gets ip ((s.assigned conf p.iface q.mac q.key p.now ip).finish env conf p.iface s.heap.next q.commits p.now p.stored)
      (s.serve env conf p) := by
  obtain ⟨i, now, order, stored, content⟩ := p
  dsimp only at hget hip ⊢
  unfold asks at hq
  split at hq
  · rename_i req hcontent
    dsimp only at hcontent
    subst hcontent
    split at hq
    · rename_i hi
      obtain ⟨key, hkey, rfl⟩ := Option.map_eq_some_iff.1 hq
      unfold serve handleDHCPv4
      dsimp only at hi hget ⊢
      rw [if_pos hi]
      exact gets_discover hkey hget hip
    · cases hq
  · rename_i req hcontent
    dsimp only at hcontent
    subst hcontent
    split at hq
    · rename_i hcond
      obtain ⟨hi, hid, hiana⟩ := hcond
      cases hq
      unfold serve handleDHCPv6
      dsimp only at hi hget ⊢
      rw [if_pos hi]
      exact gets_solicit hid hiana hget hip
    · cases hq
  · rename_i req hcontent
    dsimp only at hcontent
    subst hcontent
    split at hq
    · rename_i hcond
      obtain ⟨hi, hid, hlink⟩ := hcond
      cases hq
      unfold serve handleDHCPv6
      dsimp only at hi hget ⊢
      rw [if_pos hi]
      exact gets_request6 hid hlink hget hip
    · cases hq
  · cases hq

end DHCPServer

end AdGuardHome.Dhcpsvc
