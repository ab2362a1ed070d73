import AdGuardHome.Dhcpsvc.Declined

/-!
# Allocation with any address checker

The loop of `allocateLease` with an oracle for the `addressChecker`.  A candidate that is found busy is blocked,
which removes the lease of the client from the interface.  An expired lease that is reused is stored there first,
a new one is not, so the loop fails when the address of a new lease is busy, whatever other addresses are free.
Blocking a reused lease clears the mark of its address, so the next candidate is the address with this mark, which is
the busy one again unless it is in another zone.
-/

namespace AdGuardHome.Dhcpsvc.DHCPServer

open AdGuardHome.Net AdGuardHome.Lib AdGuardHome.Dhcp

variable {env : Env6} {toLower : GoString → GoString} {conf : ServerConf} {s : DHCPServer} {i : Ref}
  {mac : HardwareAddr} {key : MacKey} {now : Time} {order : ℕ → List MacKey} {avail : Addr → Bool}

/-! ## Packets keep the leases in place -/

namespace Placed

theorem commit (h : Placed conf s) (hi : i ∈ conf.interfaces6) {k : MacKey} {r : Ref} (hr : s.Stored i k r)
    (req : Message6) (stored : Bool) : Placed conf (s.commit env conf i r req now stored).1 := by
  have hmod := h.modify r (@ip_committedLease env conf i req now)
    fun l hl => by rwa [hwAddr_committedLease]
  have hr' : (s.modify r (committedLease env conf i req now)).Stored i k r := hr
  have hup : Placed conf ((s.modify r (committedLease env conf i req now)).orElse
      ((s.modify r (committedLease env conf i req now)).indexUpdate env.toLower i r)) := by
    refine orElse_rule hmod fun t ht => ?_
    have hin := hmod.inRange i k r hr'
    exact hmod.indexUpdate (hmod.allocated i k r hr') hin (ifaceForAddr_isSome6 hi hin) ht
  have hun : ∀ t : DHCPServer, Placed conf t → Placed conf (t.uncommit conf i r).1 := by
    intro t ht
    unfold uncommit
    cases hrm : t.ifaceRemoveLease conf i (t.lease r) with
    | error e => cases e <;> exact ht
    | ok u =>
      obtain ⟨key, -, -, rfl⟩ := ifaceRemoveLease_ok hrm
      exact ht.dropped i key _
  rcases s.commit_cases env conf i r req now stored with ⟨heq, -⟩ | ⟨heq, -⟩ | ⟨heq, -⟩ <;> rw [heq]
  · exact hup
  · exact hup
  · exact hun _ hup

/-- The state in which a lease is found or allocated, offered or committed. -/
theorem finish (h : Placed conf s) (hi : i ∈ conf.interfaces6) {k : MacKey} {r : Ref} (hr : s.Stored i k r)
    (commits : Option Message6) (stored : Bool) : Placed conf (s.finish env conf i r commits now stored).1 := by
  cases commits with
  | none => exact h
  | some req => exact h.commit hi hr req stored

theorem allocateForSolicit (h : Placed conf s) {req : Message6} {order : List MacKey} {t : DHCPServer}
    {lease : Option Ref} (hal : s.allocateForSolicit env conf i req now order = .ok (t, lease)) :
    Placed conf t ∧ ∀ r, lease = some r → t.Stored i req.key r := by
  unfold DHCPServer.allocateForSolicit at hal
  cases hget : (s.iface i).leases.get req.key with
  | some r =>
    rw [hget] at hal
    cases hal
    exact ⟨h, fun x hx => Option.some.inj hx ▸ hget⟩
  | none =>
    rw [hget] at hal
    dsimp only at hal
    rw [allocateLease_eq] at hal
    cases hres : s.reserveLease env.toLower conf i req.srcMAC req.key now order with
    | error e =>
      rw [hres] at hal
      have hs : s = t ∧ none = lease := by
        cases e <;> cases hal <;> exact ⟨rfl, rfl⟩
      obtain ⟨rfl, rfl⟩ := hs
      exact ⟨h, nofun⟩
    | ok res =>
      obtain ⟨u, r⟩ := res
      rw [hres] at hal
      cases hal
      have hkey : macToKey req.srcMAC = some req.key := dif_pos req.key.valid
      obtain ⟨hu, hr, hin⟩ := h.reserveLease hkey hres
      exact ⟨hu.accepted req.key hr hin, fun x hx => Option.some.inj hx ▸ stored_accepted⟩

theorem solicit (h : Placed conf s) (hi : i ∈ conf.interfaces6) (req : Message6) (order : List MacKey)
    (stored : Bool) : Placed conf (s.handleSolicit env conf i req now order stored).1 := by
  by_cases hid : clientIDNoServer env req.options = true
  · cases hiana : firstIANA req with
    | none =>
      unfold handleSolicit
      rw [if_neg (by simp [hid]), hiana]
      exact h
    | some iana =>
      rw [handleSolicit_eq hid hiana]
      cases hal : s.allocateForSolicit env conf i req now order with
      | error e => exact h
      | ok res =>
        obtain ⟨t, lease⟩ := res
        obtain ⟨ht, hlease⟩ := h.allocateForSolicit hal
        cases lease with
        | none => exact ht
        | some r =>
          have hgets := (gets_answerSolicit env conf t i req iana.id now stored r).state
          exact hgets.symm ▸ ht.finish hi (hlease r rfl) _ stored
  · unfold handleSolicit
    rw [if_pos (by simpa using hid)]
    exact h

theorem request6 (h : Placed conf s) (hi : i ∈ conf.interfaces6) (req : Message6) (order : List MacKey)
    (stored : Bool) : Placed conf (s.handleRequest6 env conf i req now order stored).1 := by
  by_cases hid : clientIDMatchingServer env req.options req.duidData = true
  · cases hiana : firstIANA req with
    | none =>
      unfold handleRequest6
      rw [if_neg (by simp [hid]), hiana]
      exact h
    | some iana =>
      by_cases hlink : (iana.requestedAddr.any fun reqIP => !(conf.iface i).subnet.contains reqIP) = true
      · unfold handleRequest6
        rw [if_neg (by simp [hid]), hiana]
        dsimp only
        rw [if_pos hlink]
        exact h
      · rw [Bool.not_eq_true] at hlink
        rw [handleRequest6_eq hid hiana hlink]
        cases hal : s.allocateForSolicit env conf i req now order with
        | error e => exact h
        | ok res =>
          obtain ⟨t, lease⟩ := res
          obtain ⟨ht, hlease⟩ := h.allocateForSolicit hal
          cases lease with
          | none => exact ht
          | some r =>
            have hgets := (gets_answerRequest env conf t i req iana.id now stored r).state
            exact hgets.symm ▸ ht.finish hi (hlease r rfl) _ stored
  · unfold handleRequest6
    rw [if_pos (by simpa using hid)]
    exact h

theorem update6 (h : Placed conf s) (hi : i ∈ conf.interfaces6) (req : Message6) (stored : Bool) :
    Placed conf (s.handleUpdate env conf i req now stored).1 := by
  unfold handleUpdate
  cases firstIANA req with
  | none => exact h
  | some iana =>
    dsimp only
    unfold ianaForUpdate
    cases iana.requestedAddr with
    | none => exact h
    | some reqIP =>
      dsimp only
      cases hget : ((s.iface i).leases.get req.key).filter fun r => (s.lease r).ip == reqIP with
      | none => exact h
      | some r =>
        have hfound := (Option.filter_eq_some_iff.1 hget).1
        have hgets := (gets_answerRequest env conf s i req iana.id now stored r).state
        exact hgets.symm ▸ h.finish hi hfound _ stored

theorem release6 (h : Placed conf s) (req : Message6) (stored : Bool) :
    Placed conf (s.handleRelease6 env conf i req stored).1 := by
  unfold handleRelease6
  split
  · exact h
  cases s.leaseForIANAAddr i req with
  | none => exact h
  | some res =>
    obtain ⟨iaid, _ | r⟩ := res
    · exact h
    · have hrm : Placed conf (s.orElse (s.indexRemove env.toLower conf i (s.lease r))) := h.indexRemove i _
      dsimp only
      cases hok : s.indexRemove env.toLower conf i (s.lease r) with
      | error e => cases e <;> exact h
      | ok t =>
        rw [hok] at hrm
        exact hrm

theorem decline6 (h : Placed conf s) (req : Message6) (stored : Bool) :
    Placed conf (s.handleDecline6 env conf i req now stored).1 := by
  unfold handleDecline6
  split
  · exact h
  cases s.leaseForIANAAddr i req with
  | none => exact h
  | some res =>
    obtain ⟨iaid, _ | r⟩ := res
    · exact h
    · dsimp only
      cases hok : s.blockLease conf i r now with
      | error e => cases e <;> exact h
      | ok t => exact h.blockLease hok

theorem serve (h : Placed conf s) (p : Packet) : Placed conf (s.serve env conf p).1 := by
  obtain ⟨i, now, order, stored, content⟩ := p
  unfold DHCPServer.serve
  cases content with
  | v4 typ req =>
    dsimp only
    split
    · rename_i hi
      cases typ with
      | discover => exact (s.handleDiscover4_fst i req now order).symm ▸ h.discover i req now order
      | request => exact (s.handleRequest4_fst i req now stored).symm ▸ h.request hi req now
      | release => exact h.release i req
      | decline => exact h.decline i req now
    · exact h
  | v6 typ req =>
    dsimp only
    split
    · rename_i hi
      cases typ with
      | solicit => exact h.solicit hi req order stored
      | request => exact h.request6 hi req order stored
      | confirm => exact h
      | renew =>
        show Placed conf (s.handleRenew6 env conf i req now stored).1
        unfold handleRenew6
        split
        · exact h
        · exact h.update6 hi req stored
      | rebind =>
        show Placed conf (s.handleRebind6 env conf i req now stored).1
        unfold handleRebind6
        split
        · exact h
        · exact h.update6 hi req stored
      | informationRequest => exact h
      | release => exact h.release6 req stored
      | decline => exact h.decline6 req stored
    · exact h

theorem evolve (h : Placed conf s) (e : Event) : Placed conf (s.evolve env conf e) := by
  cases e with
  | op o => exact h.step o
  | packet p => exact h.serve p

end Placed

/-! ## The loop -/

/-- `allocateLease` with the clock at `now`.  `avail` is `IsAvailable` and `order n` the order in which turn `n` goes
through the leases.  `none` is for more turns than are given. -/
def allocateTurns (toLower : GoString → GoString) (conf : ServerConf) (i : Ref) (mac : HardwareAddr) (key : MacKey)
    (now : Time) (order : ℕ → List MacKey) (avail : Addr → Bool) :
    ℕ → ℕ → DHCPServer → Option (DHCPServer × Except Err Ref)
  | 0, _, _ => none
  | k + 1, n, s =>
    match s.reserveLease toLower conf i mac key now (order n) with
    | .error e => some (s, .error e)
    | .ok (s', r) =>
      if avail (s'.lease r).ip then some (s'.accepted conf i key r, .ok r)
      else match s'.blockLease conf i r now with
        | .error e => some (s', .error e)
        | .ok s'' => allocateTurns toLower conf i mac key now order avail k (n + 1) s''

/-- With the `noopAddressChecker` the loop returns in its first turn. -/
theorem allocateTurns_noop (k n : ℕ) (s : DHCPServer) :
    allocateTurns toLower conf i mac key now order (fun _ => true) (k + 1) n s =
      match s.allocateLease toLower conf i mac key now (order n) with
      | .error e => some (s, .error e)
      | .ok (s', r) => some (s', .ok r) := by
  rw [allocateTurns, allocateLease_eq]
  cases s.reserveLease toLower conf i mac key now (order n) with
  | error e => rfl
  | ok res => rfl

/-- A state of the server after any operations and packets, with any answers of the address checker. -/
inductive Reachable (env : Env6) (conf : ServerConf) : DHCPServer → Prop
  | new (db : List Lease) : Reachable env conf (new env.toLower conf db)
  | event {s : DHCPServer} (e : Event) : Reachable env conf s → Reachable env conf (s.evolve env conf e)
  | allocate {s s' : DHCPServer} {i : Ref} {mac : HardwareAddr} {key : MacKey} {now : Time}
      {order : ℕ → List MacKey} {avail : Addr → Bool} {k : ℕ} {res : Except Err Ref} :
      Reachable env conf s → macToKey mac = some key → (s.iface i).leases.get key = none →
        allocateTurns env.toLower conf i mac key now order avail k 0 s = some (s', res) → Reachable env conf s'

theorem Placed.allocateTurns (h : Placed conf s) (hkey : macToKey mac = some key) {k n : ℕ} {s' : DHCPServer}
    {res : Except Err Ref}
    (hrun : allocateTurns toLower conf i mac key now order avail k n s = some (s', res)) : Placed conf s' := by
  induction k generalizing n s with
  | zero => cases hrun
  | succ k ih =>
    rw [DHCPServer.allocateTurns] at hrun
    cases hres : s.reserveLease toLower conf i mac key now (order n) with
    | error e =>
      rw [hres] at hrun
      cases hrun
      exact h
    | ok turn =>
      obtain ⟨t, r⟩ := turn
      obtain ⟨ht, hr, hin⟩ := h.reserveLease hkey hres
      rw [hres] at hrun
      dsimp only at hrun
      split at hrun
      · cases hrun
        exact ht.accepted key hr hin
      · cases hblock : t.blockLease conf i r now with
        | error e =>
          rw [hblock] at hrun
          cases hrun
          exact ht
        | ok t' =>
          rw [hblock] at hrun
          exact ih (ht.blockLease hblock) hrun

theorem Reachable.placed (h : Reachable env conf s) : Placed conf s := by
  induction h with
  | new db => exact Placed.new env.toLower conf db
  | event e _ ih => exact ih.evolve e
  | allocate _ hkey _ hrun ih => exact ih.allocateTurns hkey hrun

/-! ## What is asked of the loop -/

/-- A lease that `findExpiredLease` may take. -/
def Expired (s : DHCPServer) (now : Time) (r : Ref) : Prop := (s.lease r).isStatic = false ∧ (s.lease r).expiry < now

instance (s : DHCPServer) (now : Time) : DecidablePred (Expired s now) :=
  fun _ => inferInstanceAs (Decidable (_ ∧ _))

/-- The lease is one of the interface or in the index. -/
def Kept (s : DHCPServer) (i x : Ref) : Prop := (∃ k, s.Stored i k x) ∨ ∃ a, s.byAddr.get a = some x

/-- An address of the range that is neither leased nor blocked and is available. -/
def Free (conf : ServerConf) (s : DHCPServer) (i : Ref) (avail : Addr → Bool) (ip : Addr) : Prop :=
  (conf.iface i).addrSpace.contains ip = true ∧ avail ip = true ∧
    (∀ k x, s.Stored i k x → (s.lease x).ip ≠ ip) ∧
    ∀ a x, s.byAddr.get a = some x → (s.lease x).hwAddr = blockedHardwareAddr → (s.lease x).ip ≠ ip

/-- No other lease that has not expired has the address. -/
def Unheld (s : DHCPServer) (i : Ref) (now : Time) (r : Ref) (ip : Addr) : Prop :=
  ∀ x, s.Kept i x → x ≠ r → ¬ Expired s now x → (s.lease x).ip ≠ ip

/-- The lease that the client is to get. -/
structure Granted (conf : ServerConf) (s : DHCPServer) (i : Ref) (key : MacKey) (now : Time) (avail : Addr → Bool)
    (r : Ref) : Prop where
  stored : s.Stored i key r
  inRange : (conf.iface i).addrSpace.contains (s.lease r).ip = true
  available : avail (s.lease r).ip = true
  unheld : s.Unheld i now r (s.lease r).ip

/-- The loop ends, and the client gets a lease if some address is free. -/
def Serves (toLower : GoString → GoString) (conf : ServerConf) (i : Ref) (mac : HardwareAddr) (key : MacKey) (now : Time)
    (order : ℕ → List MacKey) (avail : Addr → Bool) (s : DHCPServer) : Prop :=
  ∃ k s' res, allocateTurns toLower conf i mac key now order avail k 0 s = some (s', res) ∧
    ((∃ ip, Free conf s i avail ip) → ∃ r, res = .ok r ∧ Granted conf s' i key now avail r)

/-- `leaseIndex.remove` of the lease succeeds. -/
def Removable (toLower : GoString → GoString) (s : DHCPServer) (i : Ref) (l : Lease) : Prop :=
  (s.byAddr.get l.ip).isSome ∧ (s.byName.get (toLower l.hostname)).isSome ∧
    ∃ k, macToKey l.hwAddr = some k ∧ ((s.iface i).leases.get k).isSome

/-- The lease is one of the interface or in the index, and stays there when the lease `r` is removed. -/
def Stays (toLower : GoString → GoString) (s : DHCPServer) (i r x : Ref) : Prop :=
  (∃ k, s.Stored i k x ∧ ¬ (Removable toLower s i (s.lease r) ∧ macToKey (s.lease r).hwAddr = some k)) ∨
    ∃ a, s.byAddr.get a = some x ∧ ¬ (Removable toLower s i (s.lease r) ∧ a = (s.lease r).ip)

/-- No other lease that stays and has not expired has the address. -/
def UnheldWithout (toLower : GoString → GoString) (s : DHCPServer) (i : Ref) (now : Time) (r : Ref) (ip : Addr) : Prop :=
  ∀ x, s.Stays toLower i r x → x ≠ r → ¬ Expired s now x → (s.lease x).ip ≠ ip

/-- The turn is given this expired lease, for want of an address that is not marked. -/
def Reuses (conf : ServerConf) (s : DHCPServer) (i : Ref) (now : Time) (order : List MacKey) (r : Ref) : Prop :=
  s.nextIP conf i = .ok none ∧ s.findExpiredLease i now order = some r

/-- The candidate that decides is available and nobody else's: the next address that is not marked, else the expired
lease that is found, or, if it is busy, the address of the range with the mark of its address. -/
inductive Fits (toLower : GoString → GoString) (conf : ServerConf) (s : DHCPServer) (i : Ref) (now : Time)
    (order : List MacKey) (avail : Addr → Bool) : Prop
  | fresh {ip : Addr} : s.nextIP conf i = .ok (some ip) → avail ip = true → s.Unheld i now s.heap.next ip →
      Fits toLower conf s i now order avail
  | reused {r : Ref} : Reuses conf s i now order r → avail (s.lease r).ip = true →
      s.UnheldWithout toLower i now r (s.lease r).ip → Fits toLower conf s i now order avail
  | freed {r : Ref} {ip : Addr} : Reuses conf s i now order r → avail (s.lease r).ip = false →
      ip ∈ (conf.iface i).addrSpace.addrs → bit conf i ip = bit conf i (s.lease r).ip → avail ip = true →
      s.UnheldWithout toLower i now r ip → Fits toLower conf s i now order avail

/-- The state after the expired lease is reused and found busy. -/
def refused (toLower : GoString → GoString) (conf : ServerConf) (s : DHCPServer) (i r : Ref) (mac : HardwareAddr)
    (key : MacKey) (now : Time) : DHCPServer :=
  ((s.recycled toLower conf i r mac key now).dropped conf i key (s.lease r).ip).modify r fun l =>
    { l with
      hwAddr := blockedHardwareAddr
      hostname := ""
      expiry := now + (conf.iface i).leaseTTL
      isStatic := false }

/-- A turn fits, after turns that were given busy expired leases whose marks belong to no address of the search. -/
inductive FitsFrom (toLower : GoString → GoString) (conf : ServerConf) (i : Ref) (mac : HardwareAddr) (key : MacKey)
    (now : Time) (order : ℕ → List MacKey) (avail : Addr → Bool) : ℕ → DHCPServer → Prop
  | fits {n : ℕ} {s : DHCPServer} : Fits toLower conf s i now (order n) avail →
      FitsFrom toLower conf i mac key now order avail n s
  | skip {n : ℕ} {s : DHCPServer} {r : Ref} : Reuses conf s i now (order n) r → avail (s.lease r).ip = false →
      (∀ ip ∈ (conf.iface i).addrSpace.addrs, bit conf i ip ≠ bit conf i (s.lease r).ip) →
      FitsFrom toLower conf i mac key now order avail (n + 1) (s.refused toLower conf i r mac key now) →
      FitsFrom toLower conf i mac key now order avail n s

/-! ## The next address -/

/-- The search stops at the first address of the range that is not marked. -/
theorem nextIP_eq (conf : ServerConf) (s : DHCPServer) (i : Ref) :
    s.nextIP conf i =
      ((conf.iface i).addrSpace.addrs.find? fun ip => !(s.iface i).leasedOffsets.isSet (bit conf i ip)).elim
        (if (conf.iface i).addrSpace.wraps then .error .fault else .ok none) fun ip => .ok (some ip) := by
  have hok : ∀ ip ∈ (conf.iface i).addrSpace.addrs, ((conf.iface i).addrSpace.offset ip).2 = true := fun ip hip => by
    rw [IPRange.offset_snd]
    exact IPRange.contains_of_mem_addrs hip
  have hfind : ((conf.iface i).addrSpace.find fun ip => !((conf.iface i).addrSpace.offset ip).2 ||
      !(s.iface i).leasedOffsets.isSet ((conf.iface i).addrSpace.offset ip).1) =
      (conf.iface i).addrSpace.addrs.find? fun ip => !(s.iface i).leasedOffsets.isSet (bit conf i ip) := by
    rw [IPRange.find_eq, ← List.head?_filter, ← List.head?_filter]
    refine congrArg List.head? (List.filter_congr fun ip hip => ?_)
    rw [hok ip hip]
    rfl
  unfold nextIP
  dsimp only
  rw [hfind]
  cases hres : (conf.iface i).addrSpace.addrs.find? fun ip => !(s.iface i).leasedOffsets.isSet (bit conf i ip) with
  | none => rfl
  | some ip => exact if_pos (hok ip (List.mem_of_find?_eq_some hres))

theorem nextIP_none (h : s.nextIP conf i = .ok none) :
    ∀ ip ∈ (conf.iface i).addrSpace.addrs, (s.iface i).leasedOffsets.isSet (bit conf i ip) = true := by
  rw [nextIP_eq] at h
  cases hres : (conf.iface i).addrSpace.addrs.find? fun ip => !(s.iface i).leasedOffsets.isSet (bit conf i ip) with
  | none => simpa using List.find?_eq_none.1 hres
  | some ip =>
    rw [hres] at h
    cases h

/-- The only address that is not marked. -/
theorem nextIP_of_unmarked {ip : Addr} (hip : ip ∈ (conf.iface i).addrSpace.addrs)
    (hfree : (s.iface i).leasedOffsets.isSet (bit conf i ip) = false)
    (hothers : ∀ x ∈ (conf.iface i).addrSpace.addrs, x ≠ ip → (s.iface i).leasedOffsets.isSet (bit conf i x) = true) :
    s.nextIP conf i = .ok (some ip) := by
  rw [nextIP_eq]
  cases hres : (conf.iface i).addrSpace.addrs.find? fun ip => !(s.iface i).leasedOffsets.isSet (bit conf i ip) with
  | none =>
    have hset := List.find?_eq_none.1 hres ip hip
    simp [hfree] at hset
  | some x =>
    have hfound := List.find?_some hres
    have hx : x = ip := by
      by_contra hne
      rw [hothers x (List.mem_of_find?_eq_some hres) hne] at hfound
      cases hfound
    rw [hx]
    rfl

/-! ## Leases that stay -/

/-- What is left of the leases when the expired one is removed. -/
theorem kept_removed {r x : Ref} :
    (s.orElse (s.indexRemove toLower conf i (s.lease r))).Kept i x ↔ s.Stays toLower i r x := by
  by_cases hrm : Removable toLower s i (s.lease r)
  · obtain ⟨haddr, hname, k, hk, hfound⟩ := hrm
    have hrm : Removable toLower s i (s.lease r) := ⟨haddr, hname, k, hk, hfound⟩
    rw [indexRemove_of_found haddr hname hk hfound]
    refine or_congr (exists_congr fun k' => ?_) (exists_congr fun a => ?_)
    · refine stored_dropped.trans (and_congr_right fun _ => not_congr ?_)
      rw [hk, Option.some_inj]
      exact ⟨fun h => ⟨hrm, h.2.symm⟩, fun h => ⟨rfl, h.2.symm⟩⟩
    · show (s.byAddr.del (s.lease r).ip).get a = some x ↔ _
      rw [GoMap.get_del]
      by_cases ha : a = (s.lease r).ip <;> simp [ha, hrm]
  · have herr : ∀ t, s.indexRemove toLower conf i (s.lease r) ≠ .ok t := by
      intro t ht
      obtain ⟨haddr, hname, k, hk, hfound, -⟩ := indexRemove_ok ht
      exact hrm ⟨haddr, hname, k, hk, hfound⟩
    have hsame : s.orElse (s.indexRemove toLower conf i (s.lease r)) = s := by
      cases hres : s.indexRemove toLower conf i (s.lease r) with
      | error e => rfl
      | ok t => exact absurd hres (herr t)
    rw [hsame]
    refine or_congr (exists_congr fun k => ?_) (exists_congr fun a => ?_) <;>
      exact ⟨fun h => ⟨h, fun hk => hrm hk.1⟩, fun h => h.1⟩

/-- The client has no lease on the interface after the removal, either. -/
theorem get_removed (hnew : (s.iface i).leases.get key = none) {r : Ref} (x : Ref) :
    ¬ (s.orElse (s.indexRemove toLower conf i (s.lease r))).Stored i key x := by
  intro hx
  have hold := (orElse_indexRemove s i (s.lease r)).2.1 i key x hx
  rw [Stored, hnew] at hold
  cases hold

/-- The record of the expired lease that is reused. -/
theorem lease_recycled_self (r : Ref) : (s.recycled toLower conf i r mac key now).lease r =
    ⟨(s.lease r).ip, now + (conf.iface i).leaseTTL, "", mac, false⟩ := by
  rw [lease_recycled, if_pos rfl]

/-- The leases after the expired one is reused, apart from it. -/
theorem kept_recycled (hnew : (s.iface i).leases.get key = none) {r x : Ref} (hne : x ≠ r) :
    (s.recycled toLower conf i r mac key now).Kept i x ↔ s.Stays toLower i r x := by
  rw [← @kept_removed toLower conf]
  refine or_congr (exists_congr fun k => ?_) Iff.rfl
  refine (stored_modifyIface_set fun _ => rfl).trans ⟨fun h => ?_, fun h => .inr ⟨h, fun hk => ?_⟩⟩
  · exact (h.resolve_left fun hput => hne hput.2.2).1
  · exact get_removed hnew x (hk.2 ▸ h)

/-- The leases after one is accepted for a client that had no other one. -/
theorem kept_accepted {r x : Ref} (hfree : ∀ x, s.Stored i key x → x = r) :
    (s.accepted conf i key r).Kept i x ↔ x = r ∨ s.Kept i x := by
  constructor
  · rintro (⟨k, hk⟩ | ha)
    · rcases (stored_modifyIface_set fun _ => rfl).1 hk with ⟨-, -, hx⟩ | ⟨hk, -⟩
      · exact .inl hx
      · exact .inr (.inl ⟨k, hk⟩)
    · exact .inr (.inr ha)
  · have hown : (s.accepted conf i key r).Kept i r := .inl ⟨key, stored_accepted⟩
    rintro (rfl | ⟨k, hk⟩ | ha)
    · exact hown
    · by_cases hkey : k = key
      · exact hfree x (hkey ▸ hk) ▸ hown
      · exact .inl ⟨k, (stored_modifyIface_set fun _ => rfl).2 (.inr ⟨hk, fun h => hkey h.2⟩)⟩
    · exact .inr ha

/-- The leases after the expired one is reused and found busy. -/
theorem kept_refused (hnew : (s.iface i).leases.get key = none) {r x : Ref} :
    (s.refused toLower conf i r mac key now).Kept i x ↔ s.Stays toLower i r x := by
  rw [← @kept_removed toLower conf]
  refine or_congr (exists_congr fun k => ?_) Iff.rfl
  refine stored_dropped.trans ⟨fun h => ?_, fun h => ?_⟩
  · rcases (stored_modifyIface_set fun _ => rfl).1 h.1 with ⟨-, hk, -⟩ | ⟨hx, -⟩
    · exact absurd ⟨rfl, hk⟩ h.2
    · exact hx
  · have hk : ¬ (i = i ∧ k = key) := fun hk => get_removed hnew x (hk.2 ▸ h)
    exact ⟨(stored_modifyIface_set fun _ => rfl).2 (.inr ⟨h, hk⟩), hk⟩

/-- The records of the other leases, and of the one that is blocked. -/
theorem lease_refused {r x : Ref} (hne : x ≠ r) :
    (s.refused toLower conf i r mac key now).lease x = s.lease x := by
  unfold refused
  rw [lease_modify, if_neg hne]
  show (s.recycled toLower conf i r mac key now).lease x = s.lease x
  rw [lease_recycled, if_neg hne]

theorem ip_refused (r : Ref) : ((s.refused toLower conf i r mac key now).lease r).ip = (s.lease r).ip := by
  unfold refused
  rw [lease_modify, if_pos rfl]
  show ((s.recycled toLower conf i r mac key now).lease r).ip = (s.lease r).ip
  rw [lease_recycled_self]

theorem not_expired_refused (hpos : 0 < (conf.iface i).leaseTTL) (r : Ref) :
    ¬ Expired (s.refused toLower conf i r mac key now) now r := by
  rintro ⟨-, hexp⟩
  unfold refused at hexp
  rw [lease_modify, if_pos rfl] at hexp
  exact absurd hexp (not_lt.2 (le_add_of_nonneg_right hpos.le))

/-- Just the mark of the address that is busy is cleared. -/
theorem isSet_refused (r : Ref) (n : BitVec 64) :
    ((s.refused toLower conf i r mac key now).iface i).leasedOffsets.isSet n =
      if n = bit conf i (s.lease r).ip then false else (s.iface i).leasedOffsets.isSet n := by
  have hput : ((s.recycled toLower conf i r mac key now).iface i).leasedOffsets =
      ((s.orElse (s.indexRemove toLower conf i (s.lease r))).iface i).leasedOffsets := by
    unfold recycled
    rw [iface_modifyIface, if_pos rfl]
    rfl
  have hdrop : ((s.refused toLower conf i r mac key now).iface i).leasedOffsets.isSet n =
      if i = i ∧ n = bit conf i (s.lease r).ip then false
      else ((s.recycled toLower conf i r mac key now).iface i).leasedOffsets.isSet n := isSet_dropped
  rw [hdrop, hput]
  by_cases hn : n = bit conf i (s.lease r).ip
  · simp [hn]
  · simp only [hn, and_false, if_false]
    cases hrm : s.indexRemove toLower conf i (s.lease r) with
    | error e => rfl
    | ok t =>
      obtain ⟨-, -, k, -, -, rfl⟩ := indexRemove_ok hrm
      have hset : ((s.dropped conf i k (s.lease r).ip).iface i).leasedOffsets.isSet n =
          if i = i ∧ n = bit conf i (s.lease r).ip then false else (s.iface i).leasedOffsets.isSet n := isSet_dropped
      rw [if_neg fun h => hn h.2] at hset
      exact hset

/-! ## Who holds an address -/

theorem Placed.lt_of_kept (h : Placed conf s) {x : Ref} (hx : s.Kept i x) : x < s.heap.next := by
  rcases hx with ⟨k, hk⟩ | ⟨a, ha⟩
  · exact h.allocated i k x hk
  · exact (h.indexed a x ha).allocated

/-- A new lease leaves the others as they are. -/
theorem unheld_offered (h : Placed conf s) (hnew : (s.iface i).leases.get key = none) (ip : Addr) :
    ((s.offered conf i mac now ip).accepted conf i key s.heap.next).Unheld i now s.heap.next ip ↔
      s.Unheld i now s.heap.next ip := by
  have hkept : ∀ x, ((s.offered conf i mac now ip).accepted conf i key s.heap.next).Kept i x ↔
      x = s.heap.next ∨ s.Kept i x := by
    refine fun x => kept_accepted (s := s.offered conf i mac now ip) fun y hy => ?_
    have hget : (s.iface i).leases.get key = some y := hy
    rw [hnew] at hget
    cases hget
  have hsame : ∀ x, s.Kept i x →
      ((s.offered conf i mac now ip).accepted conf i key s.heap.next).lease x = s.lease x :=
    fun x hx => lease_alloc_of_lt s (h.lt_of_kept hx) _
  constructor
  · intro hun x hx hne hexp
    have hold := hun x ((hkept x).2 (.inr hx)) hne
    rw [Expired, hsame x hx] at hold
    exact hold hexp
  · intro hun x hx hne
    have hx' := ((hkept x).1 hx).resolve_left hne
    rw [Expired, hsame x hx']
    exact hun x hx' hne

/-- A reused lease is taken out, with what index it was in, and leaves the others as they are. -/
theorem unheld_reused (hnew : (s.iface i).leases.get key = none) {r : Ref} (ip : Addr) :
    ((s.recycled toLower conf i r mac key now).accepted conf i key r).Unheld i now r ip ↔
      s.UnheldWithout toLower i now r ip := by
  have hown : ∀ y, (s.recycled toLower conf i r mac key now).Stored i key y → y = r := by
    intro y hy
    have hown : (s.recycled toLower conf i r mac key now).Stored i key r := stored_recycled_self
    exact Option.some.inj (hy.symm.trans hown)
  have hkept : ∀ x, x ≠ r → (((s.recycled toLower conf i r mac key now).accepted conf i key r).Kept i x ↔
      s.Stays toLower i r x) := by
    intro x hne
    rw [kept_accepted hown, or_iff_right hne]
    exact kept_recycled hnew hne
  have hsame : ∀ x, x ≠ r → ((s.recycled toLower conf i r mac key now).accepted conf i key r).lease x = s.lease x := by
    intro x hne
    show (s.recycled toLower conf i r mac key now).lease x = s.lease x
    rw [lease_recycled, if_neg hne]
  constructor
  · intro hun x hx hne
    have hold := hun x ((hkept x hne).2 hx) hne
    rwa [Expired, hsame x hne] at hold
  · intro hun x hx hne
    rw [Expired, hsame x hne]
    exact hun x ((hkept x hne).1 hx) hne

/-- After an expired lease is found busy another address is held by those that stay. -/
theorem unheld_refused (hnew : (s.iface i).leases.get key = none) {r n : Ref}
    {ip : Addr} (hip : (s.lease r).ip ≠ ip) (hn : ∀ x, s.Stays toLower i r x → x ≠ n) :
    (s.refused toLower conf i r mac key now).Unheld i now n ip ↔ s.UnheldWithout toLower i now r ip := by
  constructor
  · intro hun x hx hne
    have hold := hun x ((kept_refused hnew).2 hx) (hn x hx)
    rwa [Expired, lease_refused hne] at hold
  · intro hun x hx _
    by_cases hxr : x = r
    · rw [hxr, ip_refused]
      exact fun _ => hip
    · rw [Expired, lease_refused hxr]
      exact hun x ((kept_refused hnew).1 hx) hxr

/-! ## Turns -/

/-- A new lease whose address is busy cannot be blocked, since the client has no lease on the interface. -/
theorem blockLease_offered (hkey : macToKey mac = some key) (hnew : (s.iface i).leases.get key = none) (ip : Addr) :
    (s.offered conf i mac now ip).blockLease conf i s.heap.next now = .error .noMAC := by
  have hget : ((s.offered conf i mac now ip).iface i).leases.get key = none := hnew
  unfold blockLease ifaceRemoveLease
  simp [hkey, hget]

/-- An expired lease whose address is busy is blocked. -/
theorem blockLease_recycled (hkey : macToKey mac = some key) (r : Ref) :
    (s.recycled toLower conf i r mac key now).blockLease conf i r now =
      .ok (s.refused toLower conf i r mac key now) := by
  have hlease : (s.recycled toLower conf i r mac key now).lease r =
      ⟨(s.lease r).ip, now + (conf.iface i).leaseTTL, "", mac, false⟩ := lease_recycled_self r
  have hst : ((s.recycled toLower conf i r mac key now).iface i).leases.get key = some r := stored_recycled_self
  unfold blockLease ifaceRemoveLease
  simp only [hlease, hkey, hst]
  rfl

/-- The client has no lease after its turn was in vain. -/
theorem get_refused (r : Ref) :
    ((s.refused toLower conf i r mac key now).iface i).leases.get key = none := by
  show (((s.recycled toLower conf i r mac key now).dropped conf i key (s.lease r).ip).iface i).leases.get key = none
  unfold dropped
  rw [iface_modifyIface, if_pos rfl]
  exact GoMap.get_del_self _ _

theorem reserveLease_fresh {ip : Addr} {order : List MacKey} (hip : s.nextIP conf i = .ok (some ip)) :
    s.reserveLease toLower conf i mac key now order = .ok (s.offered conf i mac now ip, s.heap.next) := by
  unfold reserveLease
  rw [hip]
  rfl

theorem reserveLease_reuses {r : Ref} {order : List MacKey} (hr : Reuses conf s i now order r) :
    s.reserveLease toLower conf i mac key now order = .ok (s.recycled toLower conf i r mac key now, r) := by
  unfold reserveLease
  rw [hr.1]
  dsimp only
  rw [hr.2]
  rfl

/-- The loop from turn `n` on gives the client a lease as it should. -/
def Yields (toLower : GoString → GoString) (conf : ServerConf) (i : Ref) (mac : HardwareAddr) (key : MacKey) (now : Time)
    (order : ℕ → List MacKey) (avail : Addr → Bool) (n : ℕ) (s : DHCPServer) : Prop :=
  ∃ k s' r, allocateTurns toLower conf i mac key now order avail k n s = some (s', .ok r) ∧
    Granted conf s' i key now avail r

theorem yields_succ {n : ℕ} : Yields toLower conf i mac key now order avail n s ↔ ∃ k s' r,
    allocateTurns toLower conf i mac key now order avail (k + 1) n s = some (s', .ok r) ∧
      Granted conf s' i key now avail r := by
  constructor
  · rintro ⟨k, s', r, hrun, hg⟩
    cases k with
    | zero => cases hrun
    | succ k => exact ⟨k, s', r, hrun, hg⟩
  · exact fun ⟨k, h⟩ => ⟨k + 1, h⟩

theorem yields_fresh (h : Placed conf s) (hkey : macToKey mac = some key)
    (hnew : (s.iface i).leases.get key = none) {ip : Addr} (hip : s.nextIP conf i = .ok (some ip)) (n : ℕ) :
    Yields toLower conf i mac key now order avail n s ↔ avail ip = true ∧ s.Unheld i now s.heap.next ip := by
  have hlease : ((s.offered conf i mac now ip).accepted conf i key s.heap.next).lease s.heap.next =
      ⟨ip, now + (conf.iface i).leaseTTL, "", mac, false⟩ := lease_offered_next
  rw [yields_succ]
  simp only [allocateTurns, reserveLease_fresh hip, lease_offered_next]
  by_cases hav : avail ip = true
  · simp only [hav, if_true, true_and]
    rw [← @unheld_offered conf s i mac key now h hnew]
    constructor
    · rintro ⟨k, s', r, hrun, hg⟩
      cases hrun
      have hun := hg.unheld
      rwa [hlease] at hun
    · intro hun
      refine ⟨0, _, _, rfl, stored_accepted, ?_, ?_, ?_⟩ <;> rw [hlease]
      · exact (nextIP_ok hip).1
      · exact hav
      · exact hun
  · simp only [hav, Bool.false_eq_true, if_false, blockLease_offered hkey hnew, false_and, iff_false]
    rintro ⟨k, s', r, hrun, -⟩
    cases hrun

theorem yields_reused (h : Placed conf s) (hnew : (s.iface i).leases.get key = none) {r : Ref} {n : ℕ}
    (hr : Reuses conf s i now (order n) r) (hav : avail (s.lease r).ip = true) :
    Yields toLower conf i mac key now order avail n s ↔ s.UnheldWithout toLower i now r (s.lease r).ip := by
  have hlease : ((s.recycled toLower conf i r mac key now).accepted conf i key r).lease r =
      ⟨(s.lease r).ip, now + (conf.iface i).leaseTTL, "", mac, false⟩ := by
    show (s.recycled toLower conf i r mac key now).lease r = _
    rw [lease_recycled_self]
  have hip : ((s.recycled toLower conf i r mac key now).lease r).ip = (s.lease r).ip := by
    rw [lease_recycled_self]
  obtain ⟨k₀, hk₀⟩ := findExpiredLease_stored hr.2
  rw [yields_succ]
  simp only [allocateTurns, reserveLease_reuses hr, hip, hav, if_true]
  rw [← @unheld_reused toLower conf s i mac key now hnew]
  constructor
  · rintro ⟨k, s', x, hrun, hg⟩
    cases hrun
    have hun := hg.unheld
    rwa [hlease] at hun
  · intro hun
    refine ⟨0, _, _, rfl, stored_accepted, ?_, ?_, ?_⟩ <;> rw [hlease]
    · exact h.inRange i k₀ r hk₀
    · exact hav
    · exact hun

theorem yields_refused (hkey : macToKey mac = some key) {r : Ref} {n : ℕ} (hr : Reuses conf s i now (order n) r)
    (hav : avail (s.lease r).ip = false) :
    Yields toLower conf i mac key now order avail n s ↔
      Yields toLower conf i mac key now order avail (n + 1) (s.refused toLower conf i r mac key now) := by
  have hip : ((s.recycled toLower conf i r mac key now).lease r).ip = (s.lease r).ip := by
    rw [lease_recycled_self]
  rw [yields_succ]
  simp only [allocateTurns, reserveLease_reuses hr, hip, hav, Bool.false_eq_true, if_false, blockLease_recycled hkey]
  rfl

/-- A turn without a candidate ends the loop with an error. -/
theorem not_yields {n : ℕ} {e : Err} (hres : s.reserveLease toLower conf i mac key now (order n) = .error e) :
    ¬ Yields toLower conf i mac key now order avail n s := by
  rw [yields_succ]
  rintro ⟨k, s', r, hrun, -⟩
  rw [allocateTurns, hres] at hrun
  cases hrun

theorem Placed.refused (h : Placed conf s) (hkey : macToKey mac = some key) {r : Ref} {order : List MacKey}
    (hr : Reuses conf s i now order r) : Placed conf (s.refused toLower conf i r mac key now) :=
  (h.reserveLease hkey (reserveLease_reuses hr)).1.blockLease (blockLease_recycled hkey r)

/-- After an expired lease is found busy, the next address is the one with its mark. -/
theorem nextIP_refused {r : Ref} {order : List MacKey} (hr : Reuses conf s i now order r) {ip : Addr}
    (hip : ip ∈ (conf.iface i).addrSpace.addrs) (hbit : bit conf i ip = bit conf i (s.lease r).ip) :
    (s.refused toLower conf i r mac key now).nextIP conf i = .ok (some ip) := by
  refine nextIP_of_unmarked hip ?_ fun x hx hne => ?_
  · rw [isSet_refused, if_pos hbit]
  · have hother : bit conf i x ≠ bit conf i ip := fun heq => hne (IPRange.offset_inj_addrs hx hip heq)
    rw [isSet_refused, if_neg (hbit ▸ hother)]
    exact nextIP_none hr.1 x hx

/-- The second turn after a busy lease whose mark belongs to an address of the search. -/
theorem yields_freed (h : Placed conf s) (hkey : macToKey mac = some key)
    (hnew : (s.iface i).leases.get key = none) {r : Ref} {n : ℕ} (hr : Reuses conf s i now (order n) r)
    (hav : avail (s.lease r).ip = false) {ip : Addr} (hip : ip ∈ (conf.iface i).addrSpace.addrs)
    (hbit : bit conf i ip = bit conf i (s.lease r).ip) :
    Yields toLower conf i mac key now order avail n s ↔
      avail ip = true ∧ s.UnheldWithout toLower i now r ip := by
  have ht : Placed conf (s.refused toLower conf i r mac key now) := h.refused hkey hr
  rw [yields_refused hkey hr hav, yields_fresh ht hkey (get_refused r) (nextIP_refused hr hip hbit)]
  refine and_congr_right fun hav' => unheld_refused hnew (fun heq => ?_) fun x hx => ?_
  · rw [heq, hav'] at hav
    cases hav
  · exact Nat.ne_of_lt (ht.lt_of_kept ((kept_refused hnew).2 hx))

/-! ## Termination -/

/-- The keys under which the interface has expired leases. -/
def expiredKeys (s : DHCPServer) (i : Ref) (now : Time) : Finset MacKey :=
  (s.iface i).leases.keys.toFinset.filter fun k =>
    ((s.iface i).leases.get k).any fun r => decide (Expired s now r)

theorem mem_expiredKeys {k : MacKey} : k ∈ expiredKeys s i now ↔ ∃ r, s.Stored i k r ∧ Expired s now r := by
  unfold expiredKeys
  rw [Finset.mem_filter, List.mem_toFinset]
  constructor
  · rintro ⟨-, hany⟩
    obtain ⟨r, hr, hexp⟩ := (Option.any_eq_true _ _).1 hany
    exact ⟨r, hr, of_decide_eq_true hexp⟩
  · rintro ⟨r, hr, hexp⟩
    exact ⟨mem_keys_of_stored hr, (Option.any_eq_true _ _).2 ⟨r, hr, decide_eq_true hexp⟩⟩

theorem Reuses.expired {order : List MacKey} {r : Ref} (h : Reuses conf s i now order r) : Expired s now r := by
  have hfound := List.find?_some h.2
  simpa [Expired] using hfound

/-- A busy expired lease is one less. -/
theorem card_expiredKeys_refused (hpos : 0 < (conf.iface i).leaseTTL)
    {order : List MacKey} {r : Ref} (hr : Reuses conf s i now order r) :
    (expiredKeys (s.refused toLower conf i r mac key now) i now).card < (expiredKeys s i now).card := by
  obtain ⟨k₀, hk₀⟩ := findExpiredLease_stored hr.2
  have hold : ∀ k x, (s.refused toLower conf i r mac key now).Stored i k x →
      Expired (s.refused toLower conf i r mac key now) now x → s.Stored i k x ∧ x ≠ r ∧ Expired s now x := by
    intro k x hx hexp
    have hne : x ≠ r := fun heq => not_expired_refused hpos r (heq ▸ hexp)
    rw [Expired, lease_refused hne] at hexp
    rcases stored_recycled (stored_dropped.1 hx).1 with ⟨-, -, heq⟩ | ⟨hst, -⟩
    · exact absurd heq hne
    · exact ⟨hst, hne, hexp⟩
  apply Finset.card_lt_card
  rw [Finset.ssubset_iff_of_subset]
  · refine ⟨k₀, mem_expiredKeys.2 ⟨r, hk₀, hr.expired⟩, fun hmem => ?_⟩
    obtain ⟨x, hx, hexp⟩ := mem_expiredKeys.1 hmem
    obtain ⟨hst, hne, -⟩ := hold k₀ x hx hexp
    exact hne (Option.some.inj (hst.symm.trans hk₀))
  · intro k hk
    obtain ⟨x, hx, hexp⟩ := mem_expiredKeys.1 hk
    obtain ⟨hst, -, hexp'⟩ := hold k x hx hexp
    exact mem_expiredKeys.2 ⟨x, hst, hexp'⟩

/-- The loop ends: each turn that goes on has blocked an expired lease. -/
theorem allocateTurns_ends (hkey : macToKey mac = some key) (hpos : 0 < (conf.iface i).leaseTTL) (c : ℕ) :
    ∀ (n : ℕ) (s : DHCPServer), (expiredKeys s i now).card = c → (s.iface i).leases.get key = none →
      ∃ k s' res, allocateTurns toLower conf i mac key now order avail k n s = some (s', res) := by
  induction c using Nat.strongRecOn with
  | ind c ih =>
    intro n s hc hnew
    rcases reserveLease_cases toLower conf s i mac key now (order n) with ⟨e, hres, -⟩ | ⟨ip, hip, -⟩ |
      ⟨r, hnone, hfound, -⟩
    · exact ⟨1, s, .error e, by rw [allocateTurns, hres]⟩
    · refine ⟨1, ?_⟩
      simp only [allocateTurns, reserveLease_fresh hip, lease_offered_next, blockLease_offered hkey hnew]
      split <;> exact ⟨_, _, rfl⟩
    · have hr : Reuses conf s i now (order n) r := ⟨hnone, hfound⟩
      obtain ⟨m, s', res, hrun⟩ := ih _ (hc ▸ card_expiredKeys_refused hpos hr) (n + 1)
        (s.refused toLower conf i r mac key now) rfl (get_refused r)
      refine ⟨m + 1, ?_⟩
      simp only [allocateTurns, reserveLease_reuses hr, lease_recycled_self, blockLease_recycled hkey]
      split
      · exact ⟨_, _, rfl⟩
      · exact ⟨s', res, hrun⟩

/-! ## The result -/

/-- The client gets a lease if a turn fits, by induction on the turns before it. -/
theorem yields_of_fitsFrom (hkey : macToKey mac = some key) {n : ℕ}
    (hfit : FitsFrom toLower conf i mac key now order avail n s) (h : Placed conf s)
    (hnew : (s.iface i).leases.get key = none) : Yields toLower conf i mac key now order avail n s := by
  induction hfit with
  | fits hfit =>
    rcases hfit with ⟨hip, hav, hun⟩ | ⟨hr, hav, hun⟩ | ⟨hr, hav, hip, hbit, hav', hun⟩
    · exact (yields_fresh h hkey hnew hip _).2 ⟨hav, hun⟩
    · exact (yields_reused h hnew hr hav).2 hun
    · exact (yields_freed h hkey hnew hr hav hip hbit).2 ⟨hav', hun⟩
  | skip hr hav _ _ ih => exact (yields_refused hkey hr hav).2 (ih (h.refused hkey hr) (get_refused _))

/-- The client gets a lease only if a turn fits, by induction on the turns. -/
theorem fitsFrom_of_run (hkey : macToKey mac = some key) {k n : ℕ} (h : Placed conf s)
    (hnew : (s.iface i).leases.get key = none) {s' : DHCPServer} {r : Ref}
    (hrun : allocateTurns toLower conf i mac key now order avail k n s = some (s', .ok r))
    (hg : Granted conf s' i key now avail r) : FitsFrom toLower conf i mac key now order avail n s := by
  induction k generalizing n s with
  | zero => cases hrun
  | succ k ih =>
    have hyields : Yields toLower conf i mac key now order avail n s := ⟨k + 1, s', r, hrun, hg⟩
    rcases reserveLease_cases toLower conf s i mac key now (order n) with ⟨e, hres, -⟩ | ⟨ip, hip, -⟩ |
      ⟨x, hnone, hfound, -⟩
    · exact absurd hyields (not_yields hres)
    · obtain ⟨hav, hun⟩ := (yields_fresh h hkey hnew hip n).1 hyields
      exact .fits (.fresh hip hav hun)
    · have hr : Reuses conf s i now (order n) x := ⟨hnone, hfound⟩
      cases hav : avail (s.lease x).ip with
      | true => exact .fits (.reused hr hav ((yields_reused h hnew hr hav).1 hyields))
      | false =>
        by_cases hip : ∃ ip ∈ (conf.iface i).addrSpace.addrs, bit conf i ip = bit conf i (s.lease x).ip
        · obtain ⟨ip, hip, hbit⟩ := hip
          obtain ⟨hav', hun⟩ := (yields_freed h hkey hnew hr hav hip hbit).1 hyields
          exact .fits (.freed hr hav hip hbit hav' hun)
        · refine .skip hr hav (fun ip hmem hbit => hip ⟨ip, hmem, hbit⟩) (ih (h.refused hkey hr) (get_refused x) ?_)
          have heq : ((s.recycled toLower conf i x mac key now).lease x).ip = (s.lease x).ip := by
            rw [lease_recycled_self]
          simpa only [allocateTurns, reserveLease_reuses hr, heq, hav, Bool.false_eq_true, if_false,
            blockLease_recycled hkey] using hrun

/-- In every state that can be reached, whatever addresses are available, the loop ends, and the client gets a lease
as it should just if a turn fits or no address is free. -/
theorem serves_iff_fits (hs : Reachable env conf s) (hpos : 0 < (conf.iface i).leaseTTL)
    (hkey : macToKey mac = some key) (hnew : (s.iface i).leases.get key = none) (order : ℕ → List MacKey)
    (avail : Addr → Bool) :
    (∃ k s' res, allocateTurns env.toLower conf i mac key now order avail k 0 s = some (s', res)) ∧
      (Serves env.toLower conf i mac key now order avail s ↔
        FitsFrom env.toLower conf i mac key now order avail 0 s ∨ ¬ ∃ ip, Free conf s i avail ip) := by
  have hends := @allocateTurns_ends env.toLower conf i mac key now order avail hkey hpos _ 0 s rfl hnew
  refine ⟨hends, ?_, ?_⟩
  · rintro ⟨k, s', res, hrun, hgets⟩
    by_cases hfree : ∃ ip, Free conf s i avail ip
    · obtain ⟨r, rfl, hg⟩ := hgets hfree
      exact .inl (fitsFrom_of_run hkey hs.placed hnew hrun hg)
    · exact .inr hfree
  · rintro (hfit | hnone)
    · obtain ⟨k, s', r, hrun, hg⟩ := yields_of_fitsFrom hkey hfit hs.placed hnew
      exact ⟨k, s', .ok r, hrun, fun _ => ⟨r, rfl, hg⟩⟩
    · obtain ⟨k, s', res, hrun⟩ := hends
      exact ⟨k, s', res, hrun, fun hfree => absurd hfree hnone⟩

/-! ### An empty range -/

/-- The key of a client of `lanConf`. -/
def laptopKey : MacKey := ⟨[2, 0, 0, 0, 0, 1], rfl⟩

theorem free_empty {avail : Addr → Bool} {ip : Addr} (hin : (lanConf.iface 0).addrSpace.contains ip = true)
    (hav : avail ip = true) : Free lanConf empty 0 avail ip :=
  ⟨hin, hav, fun k x h => absurd h (not_stored_empty 0 k x), fun a x h => by
    rw [show empty.byAddr.get a = none from GoMap.get_empty a] at h
    cases h⟩

/-- The address `.101` is busy. -/
theorem serves_empty : Serves asciiLower lanConf 0 [2, 0, 0, 0, 0, 1] laptopKey 1 (fun _ => [])
    (fun ip => ip != .v4 0xc0a80a65) (new asciiLower lanConf []) := by
  have hnext : empty.nextIP lanConf 0 = .ok (some (.v4 0xc0a80a64)) := by decide +kernel
  refine (serves_iff_fits (@Reachable.new asciiEnv6 lanConf []) (by decide) rfl (by decide +kernel) _ _).2.2
    (.inl (.fits (.fresh hnext (by decide) ?_)))
  rintro x (⟨k, hk⟩ | ⟨a, ha⟩)
  · exact absurd hk (not_stored_empty 0 k x)
  · have hget : (new asciiLower lanConf []).byAddr.get a = none := GoMap.get_empty a
    cases hget.symm.trans ha

/-- The address `.100` is busy, and a client of the empty range is not given another one. -/
theorem not_serves_empty :
    ¬ ∀ (env : Env6) (conf : ServerConf) (s : DHCPServer), Reachable env conf s →
      ∀ (i : Ref) (mac : HardwareAddr) (key : MacKey) (now : Time), 0 < (conf.iface i).leaseTTL →
        macToKey mac = some key → (s.iface i).leases.get key = none →
          ∀ order avail, Serves env.toLower conf i mac key now order avail s := by
  intro h
  obtain ⟨k, s', res, hrun, hgets⟩ := h asciiEnv6 lanConf empty (.new []) 0 [2, 0, 0, 0, 0, 1] laptopKey 1 (by decide)
    rfl (by decide +kernel) (fun _ => []) fun ip => ip != .v4 0xc0a80a64
  obtain ⟨r, rfl, hg⟩ := hgets ⟨.v4 0xc0a80a65, free_empty (by decide) (by decide)⟩
  have hnext : empty.nextIP lanConf 0 = .ok (some (.v4 0xc0a80a64)) := by decide +kernel
  have hav := ((yields_fresh Placed.empty rfl (by decide +kernel) hnext 0).1 ⟨k, s', r, hrun, hg⟩).1
  exact absurd hav (by decide)

end AdGuardHome.Dhcpsvc.DHCPServer
