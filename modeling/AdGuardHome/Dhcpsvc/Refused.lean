import AdGuardHome.Dhcpsvc.Handler4
import AdGuardHome.Dhcpsvc.Leases

/-!
# Refused requests

A DHCPREQUEST that finds the lease of the client on its address rewrites the lease before the index is asked to take
it, so a refusal by the index or by the database comes too late.  The leases stay as they are when the message finds
no lease, or brings nothing new to the one that it finds.
-/

namespace AdGuardHome.Dhcpsvc.DHCPServer

open AdGuardHome.Net AdGuardHome.Lib AdGuardHome.Dhcp

variable {toLower : GoString → GoString} {conf : ServerConf} {s : DHCPServer} {i : Ref} {req : Message} {now : Time}

/-- An interface or the index has the lease. -/
def Held (s : DHCPServer) (r : Ref) : Prop :=
  (∃ i k, s.Stored i k r) ∨ (∃ ip, s.byAddr.get ip = some r) ∨ ∃ name, s.byName.get name = some r

/-- Every lease of the interfaces and of the index reads as before. -/
def LeasesKept (s s' : DHCPServer) : Prop :=
  ∀ r, s.Held r ∨ s'.Held r →
    (s'.lease r).hostname = (s.lease r).hostname ∧ (s'.lease r).expiry = (s.lease r).expiry ∧
      (s'.lease r).ip = (s.lease r).ip ∧ (s'.lease r).hwAddr = (s.lease r).hwAddr

/-- The client is answered with a DHCPNAK or not at all. -/
def Refused (res : DHCPServer × Option Reply4) : Prop := res.2 = none ∨ res.2 = some .nak

instance (res : DHCPServer × Option Reply4) : Decidable (Refused res) := inferInstanceAs (Decidable (_ ∨ _))

/-- The message finds no lease of the client on its address, or brings the lease that it finds neither a new hostname
nor, when it renews the lease, a new expiry. -/
def BringsNothing (conf : ServerConf) (s : DHCPServer) (i : Ref) (req : Message) (now : Time) : Prop :=
  ∀ r renew, requestMatch conf s i req = some (r, renew) →
    (req.hostname = "" ∨ req.hostname = (s.lease r).hostname) ∧
      (renew = true → (s.lease r).isStatic = true ∨ (s.lease r).expiry = now + (conf.iface i).leaseTTL)

/-- The index has no lease of another client on the address of the lease or under its name in the message, the
interface has a lease of its client, and the database takes the leases. -/
structure Acceptable (toLower : GoString → GoString) (s : DHCPServer) (i r : Ref) (req : Message) (stored : Bool) :
    Prop where
  addr : s.takenByOther (s.lease r) (s.byAddr.get (s.lease r).ip) = false
  name : s.takenByOther (s.lease r)
    (s.byName.get (toLower (if req.hostname ≠ "" then req.hostname else (s.lease r).hostname))) = false
  known : ∃ key prev, macToKey (s.lease r).hwAddr = some key ∧ s.Stored i key prev
  stored : stored = true

/-! ## What is rewritten -/

theorem hostname_requested (expiry : Time) (req : Message) (renew : Bool) (l : Lease) :
    (requested expiry req renew l).hostname = if req.hostname ≠ "" then req.hostname else l.hostname := by
  unfold requested
  cases renew <;> simp

theorem expiry_requested (expiry : Time) (req : Message) (renew : Bool) (l : Lease) :
    (requested expiry req renew l).expiry = if renew = true ∧ l.isStatic = false then expiry else l.expiry := by
  unfold requested setExpiry
  cases renew <;> cases l.isStatic <;> rfl

/-- The index takes or refuses a lease as it is. -/
theorem lease_orElse_indexUpdate (toLower : GoString → GoString) (s : DHCPServer) (i r x : Ref) :
    (s.orElse (s.indexUpdate toLower i r)).lease x = s.lease x := by
  cases hup : s.indexUpdate toLower i r with
  | error e => rfl
  | ok s' =>
    obtain ⟨-, -, key, prev, -, -, rfl⟩ := indexUpdate_ok hup
    rfl

theorem lease_handleRequest4_of_match {r : Ref} {renew : Bool} (h : requestMatch conf s i req = some (r, renew))
    (stored : Bool) (x : Ref) :
    (s.handleRequest4 toLower conf i req now stored).1.lease x =
      if x = r then requested (now + (conf.iface i).leaseTTL) req renew (s.lease r) else s.lease x := by
  rw [handleRequest4_fst, handleRequest_eq, h]
  exact (lease_orElse_indexUpdate toLower _ i r x).trans (lease_modify s r x _)

theorem lease_handleRequest4_of_none (h : requestMatch conf s i req = none) (stored : Bool) :
    (s.handleRequest4 toLower conf i req now stored).1 = s := by
  rw [handleRequest4_fst, handleRequest_eq, h]

theorem stored_of_match {r : Ref} {renew : Bool} (h : requestMatch conf s i req = some (r, renew)) :
    ∃ key, s.Stored i key r := by
  unfold requestMatch at h
  obtain ⟨⟨ip, _⟩, -, hfound⟩ := Option.bind_eq_some_iff.1 h
  obtain ⟨r', hr', heq⟩ := Option.map_eq_some_iff.1 hfound
  obtain ⟨rfl, -⟩ := Prod.mk.inj heq
  obtain ⟨key, -, hst, -⟩ := leaseByMacWithIP_some hr'
  exact ⟨key, hst⟩

theorem held_of_match {r : Ref} {renew : Bool} (h : requestMatch conf s i req = some (r, renew)) : s.Held r := by
  obtain ⟨key, hst⟩ := stored_of_match h
  exact .inl ⟨i, key, hst⟩

/-! ## Refusals -/

/-- Whatever the answer to a DHCPREQUEST, the leases are kept when the message brings nothing new, and only then. -/
theorem leasesKept_iff (s : DHCPServer) (i : Ref) (req : Message) (now : Time) (stored : Bool) :
    LeasesKept s (s.handleRequest4 toLower conf i req now stored).1 ↔ BringsNothing conf s i req now := by
  constructor
  · intro hkept r renew hm
    obtain ⟨hname, hexpiry, -, -⟩ := hkept r (.inl (held_of_match hm))
    rw [lease_handleRequest4_of_match hm stored, if_pos rfl] at hname hexpiry
    rw [hostname_requested] at hname
    rw [expiry_requested] at hexpiry
    refine ⟨?_, fun hrenew => ?_⟩
    · by_cases hempty : req.hostname = ""
      · exact .inl hempty
      · rw [if_pos hempty] at hname
        exact .inr hname
    · by_cases hstatic : (s.lease r).isStatic = true
      · exact .inl hstatic
      · rw [if_pos ⟨hrenew, Bool.not_eq_true _ ▸ hstatic⟩] at hexpiry
        exact .inr hexpiry.symm
  · intro hnothing x _
    cases hm : requestMatch conf s i req with
    | none => simp only [lease_handleRequest4_of_none hm stored, and_self]
    | some m =>
      obtain ⟨r, renew⟩ := m
      obtain ⟨hname, hexpiry⟩ := hnothing r renew hm
      rw [lease_handleRequest4_of_match hm stored]
      by_cases hx : x = r
      · subst hx
        rw [if_pos rfl, hostname_requested, expiry_requested, ip_requested, hwAddr_requested]
        refine ⟨?_, ?_, rfl, rfl⟩
        · rcases hname with hempty | hsame
          · rw [if_neg (not_not_intro hempty)]
          · rw [hsame, ite_self]
        · split
          · rename_i hnew
            rcases hexpiry hnew.1 with hstatic | hsame
            · rw [hnew.2] at hstatic
              cases hstatic
            · exact hsame.symm
          · rfl
      · rw [if_neg hx]
        exact ⟨rfl, rfl, rfl, rfl⟩

/-- The index takes a lease that clashes with no other client, if the interface has a lease of its client. -/
theorem indexUpdate_of_free {r prev : Ref} {key : MacKey}
    (haddr : s.takenByOther (s.lease r) (s.byAddr.get (s.lease r).ip) = false)
    (hname : s.takenByOther (s.lease r) (s.byName.get (toLower (s.lease r).hostname)) = false)
    (hkey : macToKey (s.lease r).hwAddr = some key) (hprev : s.Stored i key prev) :
    ∃ s', s.indexUpdate toLower i r = .ok s' := by
  unfold indexUpdate ifaceUpdateLease
  rw [Stored] at hprev
  simp only [haddr, hname, hkey, hprev, Bool.false_eq_true, if_false]
  exact ⟨_, rfl⟩

/-- Rewriting a lease that keeps its hardware address does not change whose it is. -/
theorem takenByOther_modify (s : DHCPServer) {r : Ref} {f : Lease → Lease} (hf : ∀ l, (f l).hwAddr = l.hwAddr)
    (o : Option Ref) : (s.modify r f).takenByOther (f (s.lease r)) o = s.takenByOther (s.lease r) o := by
  cases o with
  | none => rfl
  | some x =>
    have hx : ((s.modify r f).lease x).hwAddr = (s.lease x).hwAddr := Heap.apply_get_modify Lease.hwAddr hf s.heap r x
    show ((f (s.lease r)).hwAddr != ((s.modify r f).lease x).hwAddr) = ((s.lease r).hwAddr != (s.lease x).hwAddr)
    rw [hf, hx]

theorem refused_updateAndRespond_iff (s : DHCPServer) (i r : Ref) (stored : Bool) :
    Refused (s.updateAndRespond toLower i r stored) ↔
      ¬ ((∃ s', s.indexUpdate toLower i r = .ok s') ∧ stored = true) := by
  unfold updateAndRespond Refused
  cases s.indexUpdate toLower i r with
  | error e => cases e <;> simp
  | ok s' => cases stored <;> simp

/-- Once the lease is found, the message is refused when the lease is not acceptable. -/
theorem refused_iff_not_acceptable {r : Ref} {renew : Bool} (hm : requestMatch conf s i req = some (r, renew))
    (stored : Bool) :
    Refused (s.handleRequest4 toLower conf i req now stored) ↔ ¬ Acceptable toLower s i r req stored := by
  have hspec := s.handleRequest4_spec toLower conf i req now stored
  rw [hm] at hspec
  rw [show s.handleRequest4 toLower conf i req now stored = _ from hspec, respondOn, refused_updateAndRespond_iff]
  refine not_congr ⟨?_, ?_⟩
  · rintro ⟨⟨s', hup⟩, hstored⟩
    obtain ⟨haddr, hname, key, prev, hkey, hprev, -⟩ := indexUpdate_ok hup
    rw [lease_modify, if_pos rfl] at haddr hname hkey
    rw [takenByOther_modify s (hwAddr_requested _ req renew)] at haddr hname
    rw [ip_requested] at haddr
    rw [hostname_requested] at hname
    rw [hwAddr_requested] at hkey
    exact ⟨haddr, hname, ⟨key, prev, hkey, hprev⟩, hstored⟩
  · rintro ⟨haddr, hname, ⟨key, prev, hkey, hprev⟩, hstored⟩
    refine ⟨indexUpdate_of_free ?_ ?_ ?_ hprev, hstored⟩
    · rw [lease_modify, if_pos rfl, takenByOther_modify s (hwAddr_requested _ req renew), ip_requested]
      exact haddr
    · rw [lease_modify, if_pos rfl, takenByOther_modify s (hwAddr_requested _ req renew), hostname_requested]
      exact hname
    · rw [lease_modify, if_pos rfl, hwAddr_requested]
      exact hkey

/-- A DHCPREQUEST keeps all leases if it is refused, exactly when it brings nothing new to the lease that it is about
or that lease is acceptable, so that the message is not refused. -/
theorem refused_keeps_iff (toLower : GoString → GoString) (conf : ServerConf) (s : DHCPServer) (i : Ref) (req : Message)
    (now : Time) (stored : Bool) :
    (Refused (s.handleRequest4 toLower conf i req now stored) →
        LeasesKept s (s.handleRequest4 toLower conf i req now stored).1) ↔
      BringsNothing conf s i req now ∨
        ∃ r renew, requestMatch conf s i req = some (r, renew) ∧ Acceptable toLower s i r req stored := by
  rw [leasesKept_iff]
  constructor
  · intro h
    cases hm : requestMatch conf s i req with
    | none => exact .inl fun r renew hr => by rw [hm] at hr; cases hr
    | some m =>
      obtain ⟨r, renew⟩ := m
      by_cases hacc : Acceptable toLower s i r req stored
      · exact .inr ⟨r, renew, rfl, hacc⟩
      · exact .inl (h ((refused_iff_not_acceptable hm stored).2 hacc))
  · rintro (hnothing | ⟨r, renew, hm, hacc⟩) hrefused
    · exact hnothing
    · exact absurd hacc ((refused_iff_not_acceptable hm stored).1 hrefused)

/-! ### A clash of names -/

/-- A client takes the hostname `pc`, and a second one is offered the next address. -/
def takenName : List Op :=
  [.discover 0 (lanMessage [2, 0, 0, 0, 0, 1] none "") 1 [],
    .request 0 (lanMessage [2, 0, 0, 0, 0, 1] (some 0xc0a80a64) "pc") 2,
    .discover 0 (lanMessage [2, 0, 0, 0, 0, 2] none "") 3 []]

/-- The second client asks for the same hostname, is refused and has it. -/
theorem not_leasesKept_takenName :
    ¬ ∀ (db : List Lease) (ops : List Op) (req : Message) (now : Time) (stored : Bool),
      let s := run (step asciiLower lanConf) (new asciiLower lanConf db) ops
      Refused (s.handleRequest4 asciiLower lanConf 0 req now stored) →
        LeasesKept s (s.handleRequest4 asciiLower lanConf 0 req now stored).1 := by
  intro h
  have hkept := h [] takenName (lanMessage [2, 0, 0, 0, 0, 2] (some 0xc0a80a65) "pc") 4 true (by decide +kernel)
  have hheld : (run (step asciiLower lanConf) (new asciiLower lanConf []) takenName).Held 1 :=
    .inl ⟨0, ⟨[2, 0, 0, 0, 0, 2], rfl⟩, by unfold Stored; decide +kernel⟩
  exact absurd (hkept 1 (.inl hheld)).1 (by decide +kernel)

end AdGuardHome.Dhcpsvc.DHCPServer
