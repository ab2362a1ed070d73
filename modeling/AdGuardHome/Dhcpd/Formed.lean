import AdGuardHome.Dhcpd.Addresses

/-!
# What holds of every lease

In every state that the server can reach, from whatever leases the database has, an entry of the list is an
allocated record on an IPv4 address with a valid hardware address; a dynamic one is in the range, a static one in
the subnet.  No operation can break this, so nothing is asked of the operations of a run here.
-/

namespace AdGuardHome.Dhcpd.V4Server

open AdGuardHome.Net AdGuardHome.Lib AdGuardHome.Dhcp

variable {env : HostEnv} {conf : V4ServerConf} {s : V4Server}

/-- The entries are leases that `addLease` accepts. -/
structure Formed (conf : V4ServerConf) (s : V4Server) : Prop where
  allocated : ∀ r ∈ s.leases, r < s.heap.next
  is4 : ∀ r ∈ s.leases, (s.lease r).ip.is4 = true
  mac : ∀ r ∈ s.leases, validateMAC (s.lease r).hwAddr = true
  dynamic : ∀ r ∈ s.leases, (s.lease r).isStatic = false → conf.inRange (s.lease r).ip = true
  static : ∀ r ∈ s.leases, (s.lease r).isStatic = true → conf.subnet.contains (s.lease r).ip = true

/-- A lease as the loader makes it of a record of the database. -/
structure Loadable (l : Lease) : Prop where
  is4 : l.ip.is4 = true
  mac : validateMAC l.hwAddr = true

/-- The states that the server reaches after it has loaded a database. -/
def Reachable (env : HostEnv) (conf : V4ServerConf) (s : V4Server) : Prop :=
  ∃ db ops, (∀ l ∈ db, Loadable l) ∧ s = run (step env conf) (resetLeases env conf empty db) ops

namespace Formed

/-- The invariant reads the list and the records of its entries only. -/
theorem congr {s' : V4Server} (h : Formed conf s) (hn : s.heap.next ≤ s'.heap.next)
    (hl : ∀ r ∈ s'.leases, r ∈ s.leases)
    (hr : ∀ r ∈ s'.leases, (s'.lease r).ip = (s.lease r).ip ∧ (s'.lease r).isStatic = (s.lease r).isStatic ∧
      validateMAC (s'.lease r).hwAddr = true) : Formed conf s' where
  allocated := fun r hmem => Nat.lt_of_lt_of_le (h.allocated r (hl r hmem)) hn
  is4 := fun r hmem => by
    rw [(hr r hmem).1]
    exact h.is4 r (hl r hmem)
  mac := fun r hmem => (hr r hmem).2.2
  dynamic := fun r hmem => by
    rw [(hr r hmem).1, (hr r hmem).2.1]
    exact h.dynamic r (hl r hmem)
  static := fun r hmem => by
    rw [(hr r hmem).1, (hr r hmem).2.1]
    exact h.static r (hl r hmem)

theorem modify (h : Formed conf s) (r : Ref) {f : Lease → Lease}
    (hf : ∀ l, (f l).ip = l.ip ∧ (f l).isStatic = l.isStatic)
    (hmac : ∀ l, validateMAC l.hwAddr = true → validateMAC (f l).hwAddr = true) : Formed conf (s.modify r f) := by
  refine h.congr le_rfl (fun _ hx => hx) fun x hx => ?_
  rw [lease_modify]
  split
  · rename_i hxr
    subst hxr
    exact ⟨(hf _).1, (hf _).2, hmac _ (h.mac x hx)⟩
  · exact ⟨rfl, rfl, h.mac x hx⟩

theorem alloc (h : Formed conf s) (l : Lease) : Formed conf (s.alloc l) := by
  refine h.congr (Nat.le_succ _) (fun _ hx => hx) fun x hx => ?_
  rw [lease_alloc_of_lt s (h.allocated x hx)]
  exact ⟨rfl, rfl, h.mac x hx⟩

theorem rmLeaseByIndex (h : Formed conf s) (i : ℕ) : Formed conf (s.rmLeaseByIndex conf i) := by
  have hsub : ∀ x ∈ (s.rmLeaseByIndex conf i).leases, x ∈ s.leases := fun x hx => by
    rw [leases_rmLeaseByIndex] at hx
    exact List.mem_of_mem_eraseIdx hx
  refine h.congr (by rw [heap_rmLeaseByIndex]) hsub fun x hx => ?_
  rw [lease_rmLeaseByIndex]
  exact ⟨rfl, rfl, h.mac x (hsub x hx)⟩

theorem store (h : Formed conf s) {r : Ref} (offset : BitVec 64) (hr : r < s.heap.next)
    (h4 : (s.lease r).ip.is4 = true) (hmac : validateMAC (s.lease r).hwAddr = true)
    (hin : (s.lease r).isStatic = false → conf.inRange (s.lease r).ip = true)
    (hsub : (s.lease r).isStatic = true → conf.subnet.contains (s.lease r).ip = true) :
    Formed conf (s.store r offset) := by
  have hmem : ∀ {P : Ref → Prop}, (∀ x ∈ s.leases, P x) → P r → ∀ x ∈ s.leases ++ [r], P x := by
    intro P hP hPr x hx
    rcases List.mem_append.1 hx with hx | hx
    · exact hP x hx
    · rw [List.mem_singleton.1 hx]
      exact hPr
  exact ⟨hmem h.allocated hr, hmem h.is4 h4, hmem h.mac hmac, hmem h.dynamic hin, hmem h.static hsub⟩

theorem addLease (h : Formed conf s) {r : Ref} (hr : r < s.heap.next) (h4 : (s.lease r).ip.is4 = true)
    (hmac : validateMAC (s.lease r).hwAddr = true) : Formed conf (s.addLease conf r).1 := by
  rcases addLease_cases s r with ⟨e, heq⟩ | ⟨heq, hsub, hin, -⟩ <;> rw [heq]
  · exact h
  · exact h.store _ hr h4 hmac hin hsub

/-- Adding a new record. -/
theorem addNew (h : Formed conf s) {l : Lease} (h4 : l.ip.is4 = true) (hmac : validateMAC l.hwAddr = true) :
    Formed conf ((s.alloc l).addLease conf s.heap.next).1 :=
  (h.alloc l).addLease (Nat.lt_succ_self _) (by rwa [lease_alloc_next]) (by rwa [lease_alloc_next])

theorem commitLease (h : Formed conf s) (r : Ref) (name : String) (now : Time) :
    Formed conf (s.commitLease env conf r name now) := by
  refine h.congr le_rfl (fun _ hx => hx) fun x hx => ?_
  rw [lease_commitLease]
  split
  · rename_i hxr
    subst hxr
    exact ⟨rfl, rfl, h.mac x hx⟩
  · exact ⟨rfl, rfl, h.mac x hx⟩

theorem clearHostname (h : Formed conf s) (p r : Ref) : Formed conf (s.clearHostname p r) := by
  rcases clearHostname_eq_modify s p r with heq | heq <;> rw [heq]
  · exact h
  · exact h.modify r (fun _ => ⟨rfl, rfl⟩) fun _ hmac => hmac

theorem rmDynamicLease (h : Formed conf s) (p : Ref) : Formed conf (s.rmDynamicLease conf p).1 :=
  rmDynamicLease_invariant (fun _ i h => h.rmLeaseByIndex i) (fun _ r h => h.clearHostname p r) h

theorem rmLease (h : Formed conf s) (l : Lease) : Formed conf (s.rmLease conf l).1 := by
  rcases rmLease_cases s l with ⟨e, heq⟩ | ⟨-, heq⟩ | ⟨i, r, -, -, -, -, heq⟩ <;> rw [heq]
  · exact h
  · exact h
  · exact h.rmLeaseByIndex i

end Formed

/-! ## Allocation -/

theorem length_copyBytes (dst src : List UInt8) : (copyBytes dst src).length = dst.length := by
  simp [copyBytes]
  omega

/-- A reservation on a free address always succeeds. -/
theorem reserveLease_fresh {ip : BitVec 32} (hip : s.nextIP conf = some ip) (mac : HardwareAddr) (now : Time) :
    s.reserveLease conf mac now =
      ((s.alloc { (default : Lease) with ip := .v4 ip, hwAddr := mac }).store s.heap.next
        (conf.ipRange.offset (to16 (.v4 ip))).1, .ok (some s.heap.next)) := by
  have hin : (conf.ipRange.offset (to16 (.v4 ip))).2 = true := by
    rw [IPRange.offset_snd]
    exact (nextIP_eq_some hip).1
  unfold reserveLease
  rw [hip]
  simp only [V4Server.addLease, lease_alloc_next, hin]
  rfl

theorem reserveLease_expired (hip : s.nextIP conf = none) {r : Ref} {now : Time}
    (hr : s.findExpiredLease now = some r) (mac : HardwareAddr) :
    s.reserveLease conf mac now = (s.modify r fun l => { l with hwAddr := copyBytes l.hwAddr mac }, .ok (some r)) := by
  unfold reserveLease
  simp only [hip, hr]

theorem reserveLease_none (hip : s.nextIP conf = none) {now : Time} (hr : s.findExpiredLease now = none)
    (mac : HardwareAddr) : s.reserveLease conf mac now = (s, .ok none) := by
  unfold reserveLease
  simp only [hip, hr]

theorem Formed.reserveLease (h : Formed conf s) {mac : HardwareAddr} (hmac : validateMAC mac = true) (now : Time) :
    Formed conf (s.reserveLease conf mac now).1 ∧
      ∀ r, (s.reserveLease conf mac now).2 = .ok (some r) → r ∈ (s.reserveLease conf mac now).1.leases := by
  cases hip : s.nextIP conf with
  | some ip =>
    rw [reserveLease_fresh hip]
    refine ⟨(h.alloc _).store _ (Nat.lt_succ_self _) ?_ ?_ ?_ ?_, ?_⟩
    · rw [lease_alloc_next]
      rfl
    · rwa [lease_alloc_next]
    · rw [lease_alloc_next]
      exact fun _ => (nextIP_eq_some hip).1
    · rw [lease_alloc_next]
      intro hst
      cases hst
    · intro r hr
      cases hr
      simp [V4Server.store]
  | none =>
    cases hr : s.findExpiredLease now with
    | some r =>
      rw [reserveLease_expired hip hr]
      refine ⟨h.modify r (fun _ => ⟨rfl, rfl⟩) fun l hl => ?_, ?_⟩
      · rwa [validateMAC, length_copyBytes]
      · intro r' hr'
        cases hr'
        exact List.mem_of_find?_eq_some hr
    | none =>
      rw [reserveLease_none hip hr]
      exact ⟨h, fun r hr => by cases hr⟩

theorem Formed.blocklistLease (h : Formed conf s) (r : Ref) (now : Time) : Formed conf (s.blocklistLease conf r now) :=
  h.modify r (fun _ => ⟨rfl, rfl⟩) fun _ _ => rfl

/-- A lease that is allocated is an entry of the list. -/
theorem Formed.allocateLease (h : Formed conf s) {mac : HardwareAddr} (hmac : validateMAC mac = true) (now : Time)
    (probes : List Answered) :
    Formed conf (V4Server.allocateLease conf mac now probes s).1 ∧
      ∀ r, (V4Server.allocateLease conf mac now probes s).2 = .ok (some r) →
        r ∈ (V4Server.allocateLease conf mac now probes s).1.leases := by
  induction probes generalizing s with
  | nil => exact h.reserveLease hmac now
  | cons p ps ih =>
    have hr := h.reserveLease hmac p.reservedAt
    unfold V4Server.allocateLease
    split <;> rename_i heq <;> rw [heq] at hr
    · exact ⟨hr.1, fun r hr => by cases hr⟩
    · exact ⟨hr.1, fun r hr => by cases hr⟩
    · split
      · exact hr
      · exact ih (hr.1.blocklistLease _ _)

/-! ## The operations -/

namespace Formed

theorem decline (h : Formed conf s) {req : Request} (hmac : validateMAC req.mac = true) (now committedAt : Time)
    (probes : List Answered) : Formed conf (s.handleDecline conf req now committedAt probes).1 := by
  unfold handleDecline
  split
  · exact h
  rename_i old _
  have hrm := h.rmDynamicLease old
  split <;> rename_i hres <;> rw [hres] at hrm
  · exact hrm
  have hal := hrm.allocateLease hmac now probes
  split <;> rename_i hres' <;> rw [hres'] at hal
  · exact hal.1
  · exact hal.1
  · rename_i t new
    have hnew := hal.2 new rfl
    have hmod : Formed conf (t.modify new fun l =>
        { l with hostname := (t.lease old).hostname, expiry := committedAt + conf.leaseTime }) :=
      hal.1.modify new (fun _ => ⟨rfl, rfl⟩) fun _ hmac => hmac
    exact hmod.addLease (hmod.allocated new hnew) (hmod.is4 new hnew) (hmod.mac new hnew)

theorem releaseLoop (h : Formed conf s) (mac : HardwareAddr) (ip : Addr) (k i : ℕ) (stale : List Ref) :
    Formed conf (V4Server.releaseLoop conf mac ip k i s stale).1 :=
  releaseLoop_invariant (fun _ p h => h.rmDynamicLease p) mac ip k i s stale h

theorem addStatic (h : Formed conf s) (l : Lease) : Formed conf (s.addStaticLease env conf l).1 := by
  unfold addStaticLease
  cases hl : prepareStatic env conf l with
  | error e => exact h
  | ok l' =>
    have hrm := (h.alloc l').rmDynamicLease s.heap.next
    have hnext := @next_rmDynamicLease conf (s.alloc l') s.heap.next
    have hag := @agree_rmDynamicLease conf (s.alloc l') s.heap.next s.heap.next
    rw [lease_alloc_next] at hag
    dsimp only
    unfold updateStaticLease
    split <;> rename_i hres <;> rw [hres] at hrm hnext hag
    · exact hrm
    · refine hrm.addLease (hnext ▸ Nat.lt_succ_self _) ?_ ?_
      · rw [hag.1]
        exact (prepareStatic_ok hl).1
      · rw [hag.2.1]
        exact (prepareStatic_ok hl).2.2.2

theorem updateStatic (h : Formed conf s) (l : Lease) : Formed conf (s.updateStatic env conf l).1 := by
  unfold V4Server.updateStatic
  split
  · exact h
  rename_i found hf
  split
  · exact h
  rename_i l' hv
  obtain ⟨⟨hostname, rfl⟩, hsub, -⟩ := validateStaticLease_ok hv
  have hmac : l.hwAddr = (s.lease found).hwAddr := by
    have hfound := List.find?_some hf
    simpa using hfound
  have hrm := h.rmLease (s.lease found)
  split <;> rename_i hres <;> rw [hres] at hrm
  · exact hrm
  · refine hrm.addNew (conf.subnet_is4 hsub) ?_
    rw [show ({ l with hostname := hostname } : Lease).hwAddr = l.hwAddr from rfl, hmac]
    exact h.mac found (List.mem_of_find?_eq_some hf)

/-- Every operation keeps the invariant. -/
theorem step (h : Formed conf s) (op : Op) : Formed conf (s.step env conf op) := by
  cases op with
  | discover req now probes =>
    exact iteInduction (motive := Formed conf)
      (fun hmac => discover_rule h fun _ => (h.allocateLease hmac now probes).1) fun _ => h
  | request req now =>
    exact iteInduction (motive := Formed conf) (fun _ => request_rule h fun _ _ _ _ => h.commitLease _ _ _) fun _ => h
  | decline req now committedAt probes =>
    exact iteInduction (motive := Formed conf) (fun hmac => h.decline hmac now committedAt probes) fun _ => h
  | release req =>
    exact iteInduction (motive := Formed conf) (fun _ => release_rule h fun _ _ => h.releaseLoop _ _ _ _ _) fun _ => h
  | addStatic l => exact h.addStatic l
  | updateStatic l => exact h.updateStatic l
  | removeStatic l => exact removeStatic_rule h (h.rmLease l)

theorem resetLeases (s : V4Server) {db : List Lease} (hdb : ∀ l ∈ db, Loadable l) :
    Formed conf (s.resetLeases env conf db) := by
  have hnone : Formed conf
      { s with leasedOffsets := .newBitSet, hostsIndex := .empty, ipIndex := .empty, leases := [] } :=
    ⟨by simp, by simp, by simp, by simp, by simp⟩
  unfold V4Server.resetLeases
  generalize ({ s with leasedOffsets := .newBitSet, hostsIndex := .empty, ipIndex := .empty, leases := [] } :
    V4Server) = t at hnone ⊢
  induction db generalizing t with
  | nil => exact hnone
  | cons l db ih =>
    have hl := hdb l List.mem_cons_self
    refine ih (fun l hl => hdb l (List.mem_cons_of_mem _ hl)) _ (hnone.addNew ?_ ?_)
    · split
      · exact hl.is4
      · exact hl.is4
    · split
      · exact hl.mac
      · exact hl.mac

end Formed

theorem Reachable.formed (h : Reachable env conf s) : Formed conf s := by
  obtain ⟨db, ops, hdb, rfl⟩ := h
  exact run_invariant (I := Formed conf) (fun _ op h => h.step op) (Formed.resetLeases empty hdb) ops

end AdGuardHome.Dhcpd.V4Server
