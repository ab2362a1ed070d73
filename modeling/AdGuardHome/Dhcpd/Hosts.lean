import AdGuardHome.Dhcpd.Addresses

/-!
# Lease hostnames

The host index names exactly the leases with a hostname, in every run in which no operation

* lets `rmDynamicLease` empty the hostname of a lease that stays in the list,
* blocklists an expired lease that has a hostname,
* gives a lease without a hostname a generated one that is taken,
* adds a lease again that is in the list already.

The first three change hostnames without their keys, the last puts one lease under the care of two entries.
-/

namespace AdGuardHome.Dhcpd.V4Server

open AdGuardHome.Net AdGuardHome.Lib AdGuardHome.Dhcp AdGuardHome.Aghnet

variable {env : HostEnv} {conf : V4ServerConf} {s : V4Server}

/-! ## The invariant -/

/-- The host index names the leases by their hostnames. -/
structure HostsCoherent (s : V4Server) : Prop where
  index : ∀ h, h ≠ "" → ∀ r, s.hostsIndex.get h = some r ↔ r ∈ s.leases ∧ (s.lease r).hostname = h
  /-- Two leases never share a hostname. -/
  unique : ∀ r ∈ s.leases, ∀ r' ∈ s.leases, (s.lease r).hostname ≠ "" →
    (s.lease r).hostname = (s.lease r').hostname → r = r'
  /-- A hostname that no lease has can be used. -/
  free : ∀ h, h ≠ "" → (∀ r ∈ s.leases, (s.lease r).hostname ≠ h) → s.hostsIndex.get h = none

/-- What holds of the hostnames along a run. -/
structure HostsInv (s : V4Server) : Prop where
  /-- No record has two entries. -/
  nodup : s.leases.Nodup
  allocated : ∀ r ∈ s.leases, r < s.heap.next
  /-- No lease is indexed under the empty hostname. -/
  get_empty : s.hostsIndex.get "" = none
  index : ∀ h, h ≠ "" → ∀ r, s.hostsIndex.get h = some r ↔ r ∈ s.leases ∧ (s.lease r).hostname = h

theorem HostsInv.eq_of_hostname (h : HostsInv s) {x y : Ref} (hx : x ∈ s.leases) (hy : y ∈ s.leases)
    (hne : (s.lease x).hostname ≠ "") (heq : (s.lease x).hostname = (s.lease y).hostname) : x = y := by
  have hxi := (h.index _ hne x).2 ⟨hx, rfl⟩
  have hyi := (h.index _ hne y).2 ⟨hy, heq.symm⟩
  rw [hxi] at hyi
  exact Option.some.inj hyi

theorem HostsInv.coherent (h : HostsInv s) : HostsCoherent s where
  index := h.index
  unique := fun _ hr _ hr' hne heq => h.eq_of_hostname hr hr' hne heq
  free := by
    intro name hne hfree
    cases hget : s.hostsIndex.get name with
    | none => rfl
    | some r =>
      obtain ⟨hr, hname⟩ := (h.index name hne r).1 hget
      exact absurd hname (hfree r hr)

theorem HostsInv.empty : HostsInv empty where
  nodup := List.nodup_nil
  allocated := by simp [V4Server.empty]
  get_empty := rfl
  index := by simp [V4Server.empty]

/-- The invariant reads the list, the host index and the hostnames of the entries only. -/
theorem HostsInv.congr {s' : V4Server} (h : HostsInv s) (hl : s'.leases = s.leases)
    (hname : ∀ r ∈ s.leases, (s'.lease r).hostname = (s.lease r).hostname) (hn : s.heap.next ≤ s'.heap.next)
    (hidx : s'.hostsIndex = s.hostsIndex) : HostsInv s' where
  nodup := hl ▸ h.nodup
  allocated := by
    rw [hl]
    exact fun r hr => Nat.lt_of_lt_of_le (h.allocated r hr) hn
  get_empty := by rw [hidx]; exact h.get_empty
  index := by
    intro name hne r
    rw [hidx, hl, h.index name hne r]
    constructor <;> rintro ⟨hr, heq⟩ <;> refine ⟨hr, ?_⟩
    · rw [hname r hr]; exact heq
    · rw [← hname r hr]; exact heq

theorem HostsInv.modify (h : HostsInv s) {r : Ref} {f : Lease → Lease}
    (hf : (f (s.lease r)).hostname = (s.lease r).hostname) : HostsInv (s.modify r f) := by
  refine h.congr rfl (fun x _ => ?_) le_rfl rfl
  rw [lease_modify]
  split
  · rename_i hx; rw [hx, hf]
  · rfl

theorem HostsInv.alloc (h : HostsInv s) (l : Lease) : HostsInv (s.alloc l) :=
  h.congr rfl (fun x hx => by rw [lease_alloc_of_lt s (h.allocated x hx)]) (Nat.le_succ _) rfl

theorem HostsInv.rmLeaseByIndex (h : HostsInv s) (i : ℕ) : HostsInv (s.rmLeaseByIndex conf i) := by
  cases hi : s.leases[i]? with
  | none => rw [rmLeaseByIndex_of_none hi]; exact h
  | some r =>
    have hr : r ∈ s.leases := List.mem_of_getElem? hi
    have hmem : ∀ x, x ∈ s.leases.eraseIdx i ↔ x ∈ s.leases ∧ x ≠ r := by
      intro x
      constructor
      · intro hx
        refine ⟨List.mem_of_mem_eraseIdx hx, ?_⟩
        have hnd : (s.leases.map id).Nodup := by rw [List.map_id]; exact h.nodup
        exact ne_of_mem_eraseIdx hnd hi hx
      · rintro ⟨hx, hne⟩
        obtain ⟨j, hj⟩ := List.mem_iff_getElem?.1 hx
        refine List.mem_eraseIdx_iff_getElem?.2 ⟨j, fun hji => hne ?_, hj⟩
        rw [hji, hi, Option.some_inj] at hj
        exact hj.symm
    refine ⟨?_, ?_, ?_, ?_⟩ <;>
      simp only [leases_rmLeaseByIndex, lease_rmLeaseByIndex, heap_rmLeaseByIndex, hostsIndex_rmLeaseByIndex hi]
    · exact h.nodup.sublist (List.eraseIdx_sublist s.leases i)
    · exact fun x hx => h.allocated x (List.mem_of_mem_eraseIdx hx)
    · rw [GoMap.get_del, h.get_empty, ite_self]
    · intro name hne x
      rw [GoMap.get_del, hmem]
      split
      · -- the key of the removed lease
        rename_i hname
        subst hname
        constructor
        · intro hx; cases hx
        · rintro ⟨⟨hx, hxr⟩, heq⟩
          exact absurd (h.eq_of_hostname hr hx hne heq.symm).symm hxr
      · rename_i hname
        rw [h.index name hne x]
        constructor
        · rintro ⟨hx, heq⟩
          exact ⟨⟨hx, fun hxr => hname (by rw [← heq, hxr])⟩, heq⟩
        · rintro ⟨⟨hx, -⟩, heq⟩
          exact ⟨hx, heq⟩

theorem HostsInv.addLease (h : HostsInv s) {r : Ref} (hr : r < s.heap.next) (hfresh : r ∉ s.leases) :
    HostsInv (s.addLease conf r).1 := by
  rcases addLease_cases s r with ⟨e, heq⟩ | ⟨heq, -, -, hfree⟩ <;> rw [heq]
  · exact h
  have hget : ∀ name, name ≠ "" →
      (s.store r (conf.ipRange.offset (to16 (s.lease r).ip)).1).hostsIndex.get name =
        if name = (s.lease r).hostname then some r else s.hostsIndex.get name := by
    intro name hne
    unfold V4Server.store
    dsimp only
    split
    · rw [GoMap.get_set]
    · rename_i hempty
      rw [not_not] at hempty
      rw [hempty, if_neg hne]
  refine ⟨?_, ?_, ?_, ?_⟩
  · show (s.leases ++ [r]).Nodup
    rw [List.nodup_append]
    refine ⟨h.nodup, List.nodup_singleton r, ?_⟩
    intro x hx y hy hxy
    rw [List.mem_singleton.1 hy] at hxy
    exact hfresh (hxy ▸ hx)
  · intro x hx
    rcases List.mem_append.1 hx with hx | hx
    · exact h.allocated x hx
    · rw [List.mem_singleton.1 hx]; exact hr
  · unfold V4Server.store
    dsimp only
    split
    · rename_i hne
      rw [GoMap.get_set_ne _ (Ne.symm hne)]
      exact h.get_empty
    · exact h.get_empty
  · intro name hne x
    rw [hget name hne]
    show _ ↔ x ∈ s.leases ++ [r] ∧ (s.lease x).hostname = name
    rw [List.mem_append, List.mem_singleton]
    split
    · rename_i hname
      subst hname
      constructor
      · intro hx
        cases hx
        exact ⟨.inr rfl, rfl⟩
      · rintro ⟨hx | rfl, hxn⟩
        · -- the name was free
          rw [(h.index _ hne x).2 ⟨hx, hxn⟩] at hfree
          cases hfree hne
        · rfl
    · rename_i hname
      rw [h.index name hne x]
      constructor
      · rintro ⟨hx, hxn⟩; exact ⟨.inl hx, hxn⟩
      · rintro ⟨hx | rfl, hxn⟩
        · exact ⟨hx, hxn⟩
        · exact absurd hxn.symm hname

/-- The keys after a commit: the new hostname is that of the lease, the old one is gone. -/
theorem get_hostsIndex_commitLease (s : V4Server) (r : Ref) (wanted : String) (now : Time) {name : String}
    (hne : name ≠ "") :
    (s.commitLease env conf r wanted now).hostsIndex.get name =
      if name = committedHostname env s (s.lease r) wanted then some r
      else if name = (s.lease r).hostname then none
      else s.hostsIndex.get name := by
  unfold commitLease
  dsimp only
  generalize committedHostname env s (s.lease r) wanted = new
  have hold : name ≠ new →
      (if (s.lease r).hostname ≠ "" ∧ (s.lease r).hostname ≠ new then s.hostsIndex.del (s.lease r).hostname
        else s.hostsIndex).get name = if name = (s.lease r).hostname then none else s.hostsIndex.get name := by
    intro hnew
    split
    · rw [GoMap.get_del]
    · rename_i hkeep
      rw [if_neg]
      rintro rfl
      exact hkeep ⟨hne, hnew⟩
  by_cases hnew : name = new
  · subst hnew
    rw [if_pos hne, if_pos rfl, GoMap.get_set_self]
  · rw [if_neg hnew, ← hold hnew]
    split
    · rw [GoMap.get_set_ne _ hnew]
    · rfl

/-- A commit moves the key of the lease along with its hostname, if the new one is free. -/
theorem HostsInv.commitLease (h : HostsInv s) {r : Ref} (hr : r ∈ s.leases) (wanted : String) (now : Time)
    (hfree : committedHostname env s (s.lease r) wanted ≠ (s.lease r).hostname →
      s.hostsIndex.get (committedHostname env s (s.lease r) wanted) = none) :
    HostsInv (s.commitLease env conf r wanted now) where
  nodup := h.nodup
  allocated := h.allocated
  get_empty := by
    unfold V4Server.commitLease
    dsimp only
    split
    · rename_i hne
      rw [GoMap.get_set_ne _ (Ne.symm hne)]
      split
      · rw [GoMap.get_del, h.get_empty, ite_self]
      · exact h.get_empty
    · split
      · rw [GoMap.get_del, h.get_empty, ite_self]
      · exact h.get_empty
  index := by
    intro name hne x
    rw [get_hostsIndex_commitLease s r wanted now hne, lease_commitLease]
    show _ ↔ x ∈ s.leases ∧ _
    generalize committedHostname env s (s.lease r) wanted = new at hfree ⊢
    have hidx := h.index name hne x
    by_cases hx : x = r
    · -- the committed lease has the new hostname only
      subst hx
      rw [if_pos rfl]
      by_cases hnew : name = new
      · rw [if_pos hnew]
        exact ⟨fun _ => ⟨hr, hnew.symm⟩, fun _ => rfl⟩
      · rw [if_neg hnew]
        refine ⟨fun hget => ?_, fun hname => absurd hname.2.symm hnew⟩
        split at hget
        · cases hget
        · rename_i hprev
          exact absurd (hidx.1 hget).2.symm hprev
    · -- no other lease has the new hostname or had the old one
      rw [if_neg hx]
      by_cases hnew : name = new
      · rw [if_pos hnew]
        refine ⟨fun hget => absurd (Option.some.inj hget).symm hx, fun ⟨hxl, hname⟩ => ?_⟩
        by_cases hprev : new = (s.lease r).hostname
        · exact absurd (h.eq_of_hostname hxl hr (by rw [hname]; exact hne) (by rw [hname, hnew, hprev])) hx
        · rw [← hnew, (hidx.2 ⟨hxl, hname⟩)] at hfree
          cases hfree (hnew ▸ hprev)
      · rw [if_neg hnew]
        split
        · rename_i hprev
          refine ⟨fun hget => (by cases hget), fun ⟨hxl, hname⟩ => ?_⟩
          exact absurd (h.eq_of_hostname hxl hr (by rw [hname]; exact hne) (by rw [hname, hprev])) hx
        · exact hidx

/-! ## The operations -/

/-- No answered probe blocklists a lease that has a hostname. -/
def BlocksUnnamed (conf : V4ServerConf) (mac : HardwareAddr) : List Answered → V4Server → Prop
  | [], _ => True
  | p :: ps, s =>
    match s.reserveLease conf mac p.reservedAt with
    | (s', .ok (some r)) =>
      conf.icmpTimeout ≠ 0 →
        (s'.lease r).hostname = "" ∧ BlocksUnnamed conf mac ps (s'.blocklistLease conf r p.blockedAt)
    | _ => True

/-- No lease that a RELEASE removes leaves a lease in the list without its hostname. -/
def ReleaseKeeps (conf : V4ServerConf) (mac : HardwareAddr) (ip : Addr) : ℕ → ℕ → V4Server → List Ref → Prop
  | 0, _, _, _ => True
  | k + 1, i, s, stale =>
    match (s.leases ++ stale)[i]? with
    | none => True
    | some r =>
      if (s.lease r).hwAddr ≠ mac ∨ (s.lease r).ip ≠ ip then ReleaseKeeps conf mac ip k (i + 1) s stale
      else KeepsNames s (s.lease r) s.leases ∧
        match s.rmDynamicLease conf r with
        | (_, _, .error _) => True
        | (s', stale', .ok ()) => ReleaseKeeps conf mac ip k (i + 1) s' (stale' ++ stale)

/-- The lease that a DECLINE removes leaves no lease in the list without its hostname, nor does the allocation
after it, and no lease is added twice. -/
def DeclineKeeps (conf : V4ServerConf) (s : V4Server) (req : Request) (now : Time) (probes : List Answered) : Prop :=
  match s.findLeaseForIP req.ip req.mac with
  | none => True
  | some old =>
    s.readds conf req now probes = false ∧ KeepsNames s (s.lease old) s.leases ∧
      match s.rmDynamicLease conf old with
      | (_, _, .error _) => True
      | (s', _, .ok ()) => BlocksUnnamed conf req.mac probes s'

/-- A lease without a hostname whose wanted hostname is taken gets a generated one that is not. -/
def CommitKeeps (env : HostEnv) (s : V4Server) (wanted : String) : Option Ref → Prop
  | none => True
  | some r =>
    (s.lease r).isStatic = false → (s.lease r).hostname = "" →
      (s.hostsIndex.get (validHostnameForClient env wanted (s.lease r).ip)).isSome →
        s.hostsIndex.get (generateHostname (s.lease r).ip) = none

/-- The static lease takes no hostname from a dynamic lease that stays in the list. -/
def AddKeeps (s : V4Server) : Except Err Lease → Prop
  | .error _ => True
  | .ok l => KeepsNames s l s.leases

/-- The operation takes none of the branches that break the host index. -/
def KeepsHosts (env : HostEnv) (conf : V4ServerConf) (s : V4Server) : Op → Prop
  | .discover req _ probes =>
    validateMAC req.mac = true → s.findLease req.mac = none → BlocksUnnamed conf req.mac probes s
  | .request req _ => validateMAC req.mac = true → CommitKeeps env s req.hostName (s.handleByRequestType conf req).1
  | .decline req now _ probes => validateMAC req.mac = true → DeclineKeeps conf s req now probes
  | .release req =>
    validateMAC req.mac = true →
      match req.ip with
      | none => True
      | some ip => ReleaseKeeps conf req.mac (.v4 ip) s.leases.length 0 s []
  | .addStatic l => AddKeeps s (prepareStatic env conf l)
  | _ => True

namespace HostsInv

theorem rmDynamicLease (h : HostsInv s) {p : Ref} (hkeep : KeepsNames s (s.lease p) s.leases) :
    HostsInv (s.rmDynamicLease conf p).1 :=
  (rmDynamicLease_of_keepsNames (I := HostsInv) (fun _ i h => h.rmLeaseByIndex i) hkeep h).1

theorem rmLease (h : HostsInv s) (l : Lease) : HostsInv (s.rmLease conf l).1 := by
  rcases rmLease_cases s l with ⟨e, heq⟩ | ⟨-, heq⟩ | ⟨i, r, -, -, -, -, heq⟩ <;> rw [heq]
  · exact h
  · exact h
  · exact h.rmLeaseByIndex i

theorem reserveLease (h : HostsInv s) (mac : HardwareAddr) (now : Time) :
    HostsInv (s.reserveLease conf mac now).1 := by
  rcases reserveLease_cases s mac now with heq | ⟨r, -, -, heq⟩ | ⟨ip, -, heq⟩ <;> rw [heq]
  · exact h
  · exact h.modify rfl
  · exact (h.alloc _).addLease (Nat.lt_succ_self _) fun hmem => Nat.lt_irrefl _ (h.allocated _ hmem)

theorem allocateLease (h : HostsInv s) {mac : HardwareAddr} {now : Time} {probes : List Answered}
    (hblock : BlocksUnnamed conf mac probes s) : HostsInv (V4Server.allocateLease conf mac now probes s).1 := by
  induction probes generalizing s with
  | nil => exact h.reserveLease mac now
  | cons p ps ih =>
    have hr : HostsInv (s.reserveLease conf mac p.reservedAt).1 := h.reserveLease mac p.reservedAt
    unfold BlocksUnnamed at hblock
    unfold V4Server.allocateLease
    generalize s.reserveLease conf mac p.reservedAt = res at hr hblock ⊢
    obtain ⟨s', e | ⟨_ | r⟩⟩ := res
    · exact hr
    · exact hr
    · dsimp only at hr hblock ⊢
      split
      · exact hr
      · rename_i hicmp
        obtain ⟨hname, hrest⟩ := hblock hicmp
        exact ih (hr.modify hname.symm) hrest

theorem releaseLoop (h : HostsInv s) {mac : HardwareAddr} {ip : Addr} {k i : ℕ} {stale : List Ref}
    (hkeep : ReleaseKeeps conf mac ip k i s stale) : HostsInv (V4Server.releaseLoop conf mac ip k i s stale).1 := by
  induction k generalizing i s stale with
  | zero => exact h
  | succ k ih =>
    unfold ReleaseKeeps at hkeep
    unfold V4Server.releaseLoop
    split
    · exact h
    · rename_i r hr
      simp only [hr] at hkeep
      split
      · rename_i hmatch
        rw [if_pos hmatch] at hkeep
        exact ih h hkeep
      · rename_i hmatch
        rw [if_neg hmatch] at hkeep
        obtain ⟨hnames, hrest⟩ := hkeep
        have hrm : HostsInv (s.rmDynamicLease conf r).1 := h.rmDynamicLease hnames
        generalize s.rmDynamicLease conf r = res at hrm hrest ⊢
        obtain ⟨s', stale', e | ⟨⟨⟩⟩⟩ := res
        · exact hrm
        · exact ih hrm hrest

theorem decline (h : HostsInv s) {req : Request} {now committedAt : Time} {probes : List Answered}
    (hkeep : DeclineKeeps conf s req now probes) : HostsInv (s.handleDecline conf req now committedAt probes).1 := by
  unfold DeclineKeeps readds at hkeep
  unfold handleDecline
  cases hf : s.findLeaseForIP req.ip req.mac with
  | none => exact h
  | some old =>
    simp only [hf] at hkeep ⊢
    obtain ⟨hsafe, hnames, hblock⟩ := hkeep
    have hrm : HostsInv (s.rmDynamicLease conf old).1 := h.rmDynamicLease hnames
    generalize s.rmDynamicLease conf old = res at hrm hsafe hblock ⊢
    obtain ⟨s', stale, e | ⟨⟨⟩⟩⟩ := res
    · exact hrm
    · have hal : HostsInv (V4Server.allocateLease conf req.mac now probes s').1 := hrm.allocateLease hblock
      dsimp only at hal hsafe ⊢
      generalize V4Server.allocateLease conf req.mac now probes s' = res at hal hsafe ⊢
      obtain ⟨s'', e | ⟨_ | new⟩⟩ := res
      · exact hal
      · exact hal
      · cases hsafe

theorem addStatic (h : HostsInv s) {l : Lease} (hkeep : AddKeeps s (prepareStatic env conf l)) :
    HostsInv (s.addStaticLease env conf l).1 := by
  unfold addStaticLease
  cases hl : prepareStatic env conf l with
  | error e => exact h
  | ok l' =>
    rw [hl] at hkeep
    replace hkeep : KeepsNames (s.alloc l') ((s.alloc l').lease s.heap.next) (s.alloc l').leases := by
      rw [lease_alloc_next, leases_alloc]
      exact (keepsNames_congr fun r hr => lease_alloc_of_lt s (h.allocated r hr) l').2 hkeep
    -- the new record is not in the list, before and after the removals
    have hremove : ∀ (t : V4Server) (i : ℕ), HostsInv t ∧ s.heap.next ∉ t.leases →
        HostsInv (t.rmLeaseByIndex conf i) ∧ s.heap.next ∉ (t.rmLeaseByIndex conf i).leases := by
      rintro t i ⟨ht, hfresh⟩
      rw [leases_rmLeaseByIndex]
      exact ⟨ht.rmLeaseByIndex i, fun hmem => hfresh (List.mem_of_mem_eraseIdx hmem)⟩
    obtain ⟨⟨hrm, hfresh⟩, hheap⟩ := rmDynamicLease_of_keepsNames hremove hkeep
      ⟨h.alloc l', fun hmem => Nat.lt_irrefl _ (h.allocated _ hmem)⟩
    dsimp only
    unfold updateStaticLease
    generalize (s.alloc l').rmDynamicLease conf s.heap.next = res at hrm hfresh hheap ⊢
    obtain ⟨s', stale, e | ⟨⟨⟩⟩⟩ := res
    · exact hrm
    · refine hrm.addLease ?_ hfresh
      show s.heap.next < s'.heap.next
      rw [show s'.heap = (s.alloc l').heap from hheap]
      exact Nat.lt_succ_self _

theorem updateStatic (h : HostsInv s) (l : Lease) : HostsInv (s.updateStatic env conf l).1 := by
  unfold V4Server.updateStatic
  cases s.findLease l.hwAddr with
  | none => exact h
  | some found =>
    dsimp only
    cases s.validateStaticLease env conf l with
    | error e => exact h
    | ok l' =>
      have hrm : HostsInv (s.rmLease conf (s.lease found)).1 := h.rmLease (s.lease found)
      dsimp only
      generalize s.rmLease conf (s.lease found) = res at hrm ⊢
      obtain ⟨s', e | ⟨⟨⟩⟩⟩ := res
      · exact hrm
      · exact (hrm.alloc l').addLease (Nat.lt_succ_self _) fun hmem => Nat.lt_irrefl _ (hrm.allocated _ hmem)

theorem request (h : HostsInv s) {req : Request} {now : Time}
    (hkeep : CommitKeeps env s req.hostName (s.handleByRequestType conf req).1) :
    HostsInv (s.handleRequest env conf req now).1 := by
  refine request_rule h fun r b hr hst => ?_
  rw [hr] at hkeep
  refine h.commitLease (mem_of_handleByRequestType hr) _ _ fun hne => ?_
  unfold committedHostname at hne ⊢
  dsimp only at hne ⊢
  split at hne
  · rename_i htaken
    rw [if_pos htaken]
    split at hne
    · rename_i hempty
      rw [if_pos hempty]
      exact hkeep (by simpa using hst) hempty htaken
    · exact absurd rfl hne
  · rename_i htaken
    rw [if_neg htaken]
    simpa using htaken

/-- Every operation that takes none of the bad branches keeps the invariant. -/
theorem step (h : HostsInv s) {op : Op} (hkeep : KeepsHosts env conf s op) : HostsInv (s.step env conf op) := by
  cases op with
  | discover req now probes =>
    refine iteInduction (motive := HostsInv) (fun hmac => discover_rule h fun hfind => ?_) fun _ => h
    exact h.allocateLease (hkeep hmac hfind)
  | request req now => exact iteInduction (motive := HostsInv) (fun hmac => h.request (hkeep hmac)) fun _ => h
  | decline req now committedAt probes =>
    exact iteInduction (motive := HostsInv) (fun hmac => h.decline (hkeep hmac)) fun _ => h
  | release req =>
    refine iteInduction (motive := HostsInv) (fun hmac => release_rule h fun ip hip => ?_) fun _ => h
    have hkeeps := hkeep hmac
    rw [hip] at hkeeps
    exact h.releaseLoop hkeeps
  | addStatic l => exact h.addStatic hkeep
  | updateStatic l => exact h.updateStatic l
  | removeStatic l => exact removeStatic_rule h (h.rmLease l)

end HostsInv

/-! ## Whole runs -/

/-- From a server with no leases, the host index is coherent after every run whose operations take none of the
branches that break it. -/
theorem hostsCoherent_of_keepsHosts (env : HostEnv) (conf : V4ServerConf) (ops : List Op)
    (hkeep : Meets (step env conf) (KeepsHosts env conf) empty ops) :
    HostsCoherent (run (step env conf) empty ops) :=
  (run_invariant_of_meets (I := HostsInv) (fun _ _ h hkeep => h.step hkeep) HostsInv.empty hkeep).coherent

/-- A client gets an address under the hostname `laptop`. -/
def laptopRun : List Op :=
  [.discover (lanRequest [2, 0, 0, 0, 0, 1] none "") 1 [],
    .request (lanRequest [2, 0, 0, 0, 0, 1] (some 0xc0a80a64) "Laptop") 2]

/-- A static lease with the hostname of the client empties it and is refused, because the key is still there. -/
theorem not_hostsCoherent_takenRun :
    ¬ HostsCoherent (run (step asciiEnv lanConf) empty (laptopRun ++
      [.addStatic { (default : Lease) with
        ip := .v4 0xc0a80a05, hwAddr := [2, 0, 0, 0, 0, 2], hostname := "laptop" }])) := fun h =>
  absurd ((h.index "laptop" (by decide) 0).1 (by decide +kernel)).2 (by decide +kernel)

instance (s : V4Server) (wanted : String) : ∀ r, Decidable (CommitKeeps env s wanted r)
  | none => inferInstanceAs (Decidable True)
  | some _ => inferInstanceAs (Decidable (_ → _))

instance (s : V4Server) : ∀ l, Decidable (AddKeeps s l)
  | .error _ => inferInstanceAs (Decidable True)
  | .ok l => inferInstanceAs (Decidable (KeepsNames s l s.leases))

/-- The static lease has another hostname. -/
def printerRun : List Op :=
  laptopRun ++ [.addStatic { (default : Lease) with
    ip := .v4 0xc0a80a05, hwAddr := [2, 0, 0, 0, 0, 2], hostname := "printer" }]

theorem hostsCoherent_printerRun :
    Meets (step asciiEnv lanConf) (KeepsHosts asciiEnv lanConf) empty printerRun ∧
      HostsCoherent (run (step asciiEnv lanConf) empty printerRun) := by
  have hkeep : Meets (step asciiEnv lanConf) (KeepsHosts asciiEnv lanConf) empty printerRun := by
    refine ⟨fun _ _ => trivial, fun _ => ?_, ?_, trivial⟩
    · show CommitKeeps _ _ _ _
      decide +kernel
    · unfold KeepsHosts
      dsimp only
      decide +kernel
  exact ⟨hkeep, hostsCoherent_of_keepsHosts asciiEnv lanConf printerRun hkeep⟩

end AdGuardHome.Dhcpd.V4Server
