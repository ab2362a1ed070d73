import AdGuardHome.Dhcpd.RmDynamic

/-!
# Lease addresses

No two leases have the same address and the address index names each of them, in every run in which no
operation

* adds a lease again that is in the list already (a DECLINE, after the new lease has been allocated),
* adds a static lease on the address of a lease that `rmDynamicLease` steps over,
* moves a static lease to the address of another lease with the same hardware address.

`Closed` lists what an invariant of the addresses has to be closed under; `Closed.step` is then the only
proof that goes through the operations.
-/

namespace AdGuardHome.Dhcpd.V4Server

open AdGuardHome.Net AdGuardHome.Lib AdGuardHome.Dhcp AdGuardHome.Aghnet

variable {env : HostEnv} {conf : V4ServerConf} {s : V4Server}

/-! ## The invariant -/

/-- No two entries have the same address and the index names every entry. -/
structure UniqueAddrs (s : V4Server) : Prop where
  nodup : (s.leases.map fun r => (s.lease r).ip).Nodup
  index : ∀ r ∈ s.leases, s.ipIndex.get (s.lease r).ip = some r

/-- What holds of the addresses along a run. -/
structure AddrInv (conf : V4ServerConf) (s : V4Server) : Prop extends UniqueAddrs s where
  /-- The entries are allocated records. -/
  allocated : ∀ r ∈ s.leases, r < s.heap.next
  /-- The leases are on IPv4 addresses. -/
  is4 : ∀ r ∈ s.leases, (s.lease r).ip.is4 = true
  /-- The offset of a lease in the range is marked, so that `nextIP` does not return its address. -/
  marked : ∀ r ∈ s.leases, conf.inRange (s.lease r).ip = true →
    s.leasedOffsets.isSet (conf.ipRange.offset (to16 (s.lease r).ip)).1 = true

theorem AddrInv.empty : AddrInv conf empty where
  nodup := List.nodup_nil
  index := by simp [V4Server.empty]
  allocated := by simp [V4Server.empty]
  is4 := by simp [V4Server.empty]
  marked := by simp [V4Server.empty]

theorem ne_of_mem_eraseIdx {α β : Type} {f : α → β} {l : List α} (h : (l.map f).Nodup) {i : ℕ} {a x : α}
    (hi : l[i]? = some a) (hx : x ∈ l.eraseIdx i) : f x ≠ f a := by
  obtain ⟨j, hj, hjx⟩ := List.mem_eraseIdx_iff_getElem?.1 hx
  intro heq
  have hmap : (l.map f)[j]? = (l.map f)[i]? := by rw [List.getElem?_map, List.getElem?_map, hi, hjx]; simp [heq]
  obtain ⟨hlt, -⟩ := List.getElem?_eq_some_iff.1 hjx
  exact hj ((List.getElem?_inj (by simpa using hlt) h).1 hmap)

/-- The invariant reads the list, the address index, the bit set and the addresses of the entries only. -/
theorem AddrInv.congr {s' : V4Server} (h : AddrInv conf s) (hl : s'.leases = s.leases)
    (hip : ∀ r ∈ s.leases, (s'.lease r).ip = (s.lease r).ip) (hn : s.heap.next ≤ s'.heap.next)
    (hidx : ∀ r ∈ s.leases, s'.ipIndex.get (s.lease r).ip = s.ipIndex.get (s.lease r).ip)
    (hbits : s'.leasedOffsets = s.leasedOffsets) : AddrInv conf s' where
  nodup := by
    rw [hl, List.map_congr_left hip]
    exact h.nodup
  index := by
    rw [hl]
    intro r hr
    rw [hip r hr, hidx r hr]
    exact h.index r hr
  allocated := by
    rw [hl]
    exact fun r hr => Nat.lt_of_lt_of_le (h.allocated r hr) hn
  is4 := by
    rw [hl]
    intro r hr
    rw [hip r hr]
    exact h.is4 r hr
  marked := by
    rw [hl, hbits]
    intro r hr
    rw [hip r hr]
    exact h.marked r hr

theorem ip_modify {r : Ref} {f : Lease → Lease} (hf : ∀ l, (f l).ip = l.ip) (x : Ref) :
    ((s.modify r f).lease x).ip = (s.lease x).ip := Heap.apply_get_modify Lease.ip hf s.heap r x

/-- Different addresses of the range have different offsets. -/
theorem offset_ne_of_ip_ne {x y : Addr} (hx4 : x.is4 = true) (hy4 : y.is4 = true) (hx : conf.inRange x = true)
    (hy : conf.inRange y = true) (hne : x ≠ y) :
    (conf.ipRange.offset (to16 x)).1 ≠ (conf.ipRange.offset (to16 y)).1 := fun heq =>
  hne (to16_inj hx4 hy4 (IPRange.offset_inj hx hy heq))

theorem AddrInv.rmLeaseByIndex (h : AddrInv conf s) (i : ℕ) : AddrInv conf (s.rmLeaseByIndex conf i) := by
  cases hi : s.leases[i]? with
  | none => rw [rmLeaseByIndex_of_none hi]; exact h
  | some r =>
    have hr : r ∈ s.leases := List.mem_of_getElem? hi
    have hsub : ∀ x ∈ s.leases.eraseIdx i, x ∈ s.leases := fun x hx => List.mem_of_mem_eraseIdx hx
    have hne : ∀ x ∈ s.leases.eraseIdx i, (s.lease x).ip ≠ (s.lease r).ip := fun x hx =>
      ne_of_mem_eraseIdx h.nodup hi hx
    refine ⟨⟨?_, ?_⟩, ?_, ?_, ?_⟩ <;> simp only [leases_rmLeaseByIndex, lease_rmLeaseByIndex, heap_rmLeaseByIndex]
    · exact h.nodup.sublist ((List.eraseIdx_sublist s.leases i).map _)
    · intro x hx
      rw [ipIndex_rmLeaseByIndex hi, GoMap.get_del_ne _ (hne x hx)]
      exact h.index x (hsub x hx)
    · exact fun x hx => h.allocated x (hsub x hx)
    · exact fun x hx => h.is4 x (hsub x hx)
    · intro x hx hin
      rw [leasedOffsets_rmLeaseByIndex hi]
      split
      · rename_i hrin
        rw [BitSet.isSet_set,
          if_neg (offset_ne_of_ip_ne (h.is4 x (hsub x hx)) (h.is4 r hr) hin hrin (hne x hx))]
        exact h.marked x (hsub x hx) hin
      · exact h.marked x (hsub x hx) hin

theorem AddrInv.store (h : AddrInv conf s) {r : Ref} (hr : r < s.heap.next) (h4 : (s.lease r).ip.is4 = true)
    (hfree : ∀ x ∈ s.leases, (s.lease x).ip ≠ (s.lease r).ip) :
    AddrInv conf (s.store r (conf.ipRange.offset (to16 (s.lease r).ip)).1) where
  nodup := by
    show ((s.leases ++ [r]).map fun x => (s.lease x).ip).Nodup
    rw [List.map_append, List.nodup_append]
    refine ⟨h.nodup, List.nodup_singleton _, ?_⟩
    intro a ha b hb
    obtain ⟨x, hx, rfl⟩ := List.mem_map.1 ha
    rw [List.map_singleton, List.mem_singleton] at hb
    rw [hb]
    exact hfree x hx
  index := by
    intro x hx
    show (s.ipIndex.set (s.lease r).ip r).get (s.lease x).ip = some x
    rcases List.mem_append.1 hx with hx | hx
    · rw [GoMap.get_set_ne _ (hfree x hx)]
      exact h.index x hx
    · rw [List.mem_singleton.1 hx]
      exact GoMap.get_set_self _ _ _
  allocated := by
    intro x hx
    rcases List.mem_append.1 hx with hx | hx
    · exact h.allocated x hx
    · rw [List.mem_singleton.1 hx]; exact hr
  is4 := by
    intro x hx
    rcases List.mem_append.1 hx with hx | hx
    · exact h.is4 x hx
    · rw [List.mem_singleton.1 hx]; exact h4
  marked := by
    intro x hx hin
    show (s.leasedOffsets.set _ true).isSet (conf.ipRange.offset (to16 (s.lease x).ip)).1 = true
    rw [BitSet.isSet_set]
    split
    · rfl
    · rename_i hne
      rcases List.mem_append.1 hx with hx | hx
      · exact h.marked x hx hin
      · rw [List.mem_singleton.1 hx] at hne
        exact absurd rfl hne

/-! ## The next free address -/

theorem nextIP_eq_some {ip : BitVec 32} (h : s.nextIP conf = some ip) :
    conf.inRange (.v4 ip) = true ∧
      s.leasedOffsets.isSet (conf.ipRange.offset (to16 (.v4 ip))).1 = false ∧
      ∀ x, conf.ipRange.containsInt x = true → x < to16 (.v4 ip) →
        s.leasedOffsets.isSet (conf.ipRange.offset x).1 = true := by
  unfold nextIP at h
  obtain ⟨n, hfind, hn⟩ := Option.bind_eq_some_iff.1 h
  obtain ⟨hin, hfree, hbefore⟩ := IPRange.find_eq_some hfind
  obtain ⟨a, rfl⟩ := conf.exists_v4_of_containsInt hin
  rw [to4_to16, Option.some_inj] at hn
  subst hn
  refine ⟨hin, ?_, fun x hx hlt => ?_⟩
  · dsimp only at hfree
    rw [Bool.and_eq_true] at hfree
    simpa using hfree.2
  · have hx' := hbefore x (IPRange.containsInt_iff.1 hx).1 hlt
    dsimp only at hx'
    rw [IPRange.offset_snd, hx] at hx'
    simpa using hx'

/-- No address is returned only when every bit of the range is set. -/
theorem nextIP_eq_none (h : s.nextIP conf = none) {x : ℕ} (hx : conf.ipRange.containsInt x = true) :
    s.leasedOffsets.isSet (conf.ipRange.offset x).1 = true := by
  unfold nextIP at h
  generalize hfind : conf.ipRange.find _ = found at h
  cases found with
  | none =>
    have hx' := IPRange.find_eq_none.1 hfind x hx
    dsimp only at hx'
    rw [IPRange.offset_snd, hx] at hx'
    simpa using hx'
  | some n =>
    obtain ⟨a, rfl⟩ := conf.exists_v4_of_containsInt (IPRange.find_eq_some hfind).1
    rw [Option.bind_some, to4_to16] at h
    cases h

/-- The next address is held by no lease. -/
theorem AddrInv.nextIP_free (h : AddrInv conf s) {ip : BitVec 32} (hip : s.nextIP conf = some ip) :
    ∀ x ∈ s.leases, (s.lease x).ip ≠ .v4 ip := by
  intro x hx heq
  obtain ⟨hin, hfree, -⟩ := nextIP_eq_some hip
  have hmark := h.marked x hx (by rw [heq]; exact hin)
  rw [heq, hfree] at hmark
  cases hmark

/-! ## The operations -/

/-- The DECLINE has a lease removed and a new one allocated: it goes on to add the new one again. -/
def readds (conf : V4ServerConf) (s : V4Server) (req : Request) (now : Time) (probes : List Answered) : Bool :=
  match s.findLeaseForIP req.ip req.mac with
  | none => false
  | some old =>
    match s.rmDynamicLease conf old with
    | (_, _, .error _) => false
    | (s', _, .ok ()) =>
      match allocateLease conf req.mac now probes s' with
      | (_, .ok (some _)) => true
      | _ => false

/-- The address of a prepared static lease satisfies `ok` and no entry on it is stepped over. -/
def SafeAdd (ok : Addr → Prop) (s : V4Server) : Except Err Lease → Prop
  | .error _ => True
  | .ok l => ok l.ip ∧ ∀ r ∈ s.steppedOver l s.leases, (s.lease r).ip ≠ l.ip

/-- The new address satisfies `ok` and no other lease with the hardware address holds it. -/
def SafeUpdate (ok : Addr → Prop) (s : V4Server) (l : Lease) : Option Ref → Prop
  | none => True
  | some found =>
    ok l.ip ∧ ∀ r ∈ s.leases, (s.lease r).ip = l.ip → (s.lease r).hwAddr = l.hwAddr → r = found

/-- The operation takes none of the branches that break the addresses, and the static leases that it adds are
on addresses that satisfy `ok`. -/
def Safe (env : HostEnv) (conf : V4ServerConf) (ok : Addr → Prop) (s : V4Server) : Op → Prop
  | .decline req now _ probes => validateMAC req.mac = true → s.readds conf req now probes = false
  | .addStatic l => SafeAdd ok s (prepareStatic env conf l)
  | .updateStatic l => SafeUpdate ok s l (s.findLease l.hwAddr)
  | _ => True

instance (ok : Addr → Prop) [DecidablePred ok] (s : V4Server) : ∀ l, Decidable (SafeAdd ok s l)
  | .error _ => inferInstanceAs (Decidable True)
  | .ok _ => inferInstanceAs (Decidable (_ ∧ _))

instance (ok : Addr → Prop) [DecidablePred ok] (s : V4Server) (l : Lease) : ∀ r, Decidable (SafeUpdate ok s l r)
  | none => inferInstanceAs (Decidable True)
  | some _ => inferInstanceAs (Decidable (_ ∧ _))

instance (ok : Addr → Prop) [DecidablePred ok] (s : V4Server) : ∀ op, Decidable (Safe env conf ok s op)
  | .decline .. => inferInstanceAs (Decidable (_ → _))
  | .addStatic l => inferInstanceAs (Decidable (SafeAdd ok s (prepareStatic env conf l)))
  | .updateStatic l => inferInstanceAs (Decidable (SafeUpdate ok s l (s.findLease l.hwAddr)))
  | .discover .. => inferInstanceAs (Decidable True)
  | .request .. => inferInstanceAs (Decidable True)
  | .release .. => inferInstanceAs (Decidable True)
  | .removeStatic .. => inferInstanceAs (Decidable True)

/-- What `AddStaticLease` stores is a static lease on an IPv4 address with a valid hardware address. -/
theorem prepareStatic_ok {l l' : Lease} (h : prepareStatic env conf l = .ok l') :
    l'.ip.is4 = true ∧ l'.isStatic = true ∧ l'.hwAddr = l.hwAddr ∧ validateMAC l'.hwAddr = true := by
  unfold prepareStatic at h
  dsimp only at h
  split at h
  · cases h
  rename_i h4
  rw [Bool.not_eq_false] at h4
  split at h
  · cases h
  split at h
  · cases h
  rename_i hmac
  rw [Bool.not_eq_false] at hmac
  split at h
  · cases h
    exact ⟨h4, rfl, rfl, hmac⟩
  split at h
  · cases h
  split at h
  · cases h
  cases h
  exact ⟨h4, rfl, rfl, hmac⟩

theorem validateStaticLease_ok {l l' : Lease} (h : s.validateStaticLease env conf l = .ok l') :
    (∃ hostname, l' = { l with hostname := hostname }) ∧ conf.subnet.contains l.ip = true ∧
      s.takenByOther l (s.ipIndex.get l.ip) = false := by
  unfold validateStaticLease at h
  split at h
  · cases h
  split at h
  · cases h
  split at h
  · cases h
  split at h
  · cases h
  rename_i hdup
  split at h
  · cases h
  split at h
  · cases h
  rename_i hsub
  cases h
  exact ⟨⟨_, rfl⟩, by simpa using hsub, by simpa using hdup⟩

/-- What an invariant of the addresses is closed under.  `ok` restricts the addresses of static leases. -/
structure Closed (env : HostEnv) (conf : V4ServerConf) (ok : Addr → Prop) (I : V4Server → Prop) : Prop where
  addr : ∀ {s}, I s → AddrInv conf s
  ok_of_inRange : ∀ {ip}, conf.inRange ip = true → ok ip
  modify : ∀ {s} r f, (∀ l, (f l).ip = l.ip) → I s → I (s.modify r f)
  alloc : ∀ {s} l, I s → I (s.alloc l)
  remove : ∀ {s} i, I s → I (s.rmLeaseByIndex conf i)
  add : ∀ {s} r, I s → r < s.heap.next → (s.lease r).ip.is4 = true →
    (∀ x ∈ s.leases, (s.lease x).ip ≠ (s.lease r).ip) → ok (s.lease r).ip → I (s.addLease conf r).1
  commit : ∀ {s} r name now, r ∈ s.leases → I s → I (s.commitLease env conf r name now)

namespace Closed

variable {ok : Addr → Prop} {I : V4Server → Prop}

theorem clearHostname (hI : Closed env conf ok I) (h : I s) (p r : Ref) : I (s.clearHostname p r) := by
  rcases clearHostname_eq_modify s p r with heq | heq <;> rw [heq]
  · exact h
  · exact hI.modify r _ (fun _ => rfl) h

theorem rmDynamicLease (hI : Closed env conf ok I) (h : I s) (p : Ref) : I (s.rmDynamicLease conf p).1 :=
  rmDynamicLease_invariant (fun _ i h => hI.remove i h) (fun _ r h => hI.clearHostname h p r) h

theorem reserveLease (hI : Closed env conf ok I) (h : I s) (mac : HardwareAddr) (now : Time) :
    I (s.reserveLease conf mac now).1 := by
  rcases reserveLease_cases s mac now with heq | ⟨r, -, -, heq⟩ | ⟨ip, hip, heq⟩ <;> rw [heq]
  · exact h
  · exact hI.modify r _ (fun _ => rfl) h
  · have hfree := (hI.addr h).nextIP_free hip
    apply hI.add _ (hI.alloc _ h)
    · exact Nat.lt_succ_self _
    · rw [lease_alloc_next]; rfl
    · intro x hx
      rw [lease_alloc_next, lease_alloc_of_lt s ((hI.addr h).allocated x hx)]
      exact hfree x hx
    · rw [lease_alloc_next]
      exact hI.ok_of_inRange (nextIP_eq_some hip).1

theorem allocateLease (hI : Closed env conf ok I) (h : I s) (mac : HardwareAddr) (now : Time)
    (probes : List Answered) : I (V4Server.allocateLease conf mac now probes s).1 :=
  allocateLease_invariant (I := I) (fun _ now h => hI.reserveLease h mac now)
    (fun _ r _ h => hI.modify r _ (fun _ => rfl) h) now probes s h

theorem rmLease (hI : Closed env conf ok I) (h : I s) (l : Lease) : I (s.rmLease conf l).1 := by
  rcases rmLease_cases s l with ⟨e, heq⟩ | ⟨-, heq⟩ | ⟨i, r, -, -, -, -, heq⟩ <;> rw [heq]
  · exact h
  · exact h
  · exact hI.remove i h

theorem decline (hI : Closed env conf ok I) (h : I s) {req : Request} {now committedAt : Time}
    {probes : List Answered} (hsafe : s.readds conf req now probes = false) :
    I (s.handleDecline conf req now committedAt probes).1 := by
  unfold readds at hsafe
  unfold handleDecline
  cases hf : s.findLeaseForIP req.ip req.mac with
  | none => exact h
  | some old =>
    have hrm := hI.rmDynamicLease h old
    simp only [hf] at hsafe ⊢
    generalize s.rmDynamicLease conf old = res at hrm hsafe ⊢
    obtain ⟨s', stale, e | ⟨⟨⟩⟩⟩ := res
    · exact hrm
    · have hal := hI.allocateLease hrm req.mac now probes
      dsimp only at hal hsafe ⊢
      generalize V4Server.allocateLease conf req.mac now probes s' = res at hal hsafe ⊢
      obtain ⟨s'', e | ⟨_ | new⟩⟩ := res
      · exact hal
      · exact hal
      · cases hsafe

theorem addStatic (hI : Closed env conf ok I) (h : I s) {l : Lease}
    (hsafe : SafeAdd ok s (prepareStatic env conf l)) : I (s.addStaticLease env conf l).1 := by
  unfold addStaticLease
  cases hl : prepareStatic env conf l with
  | error e => exact h
  | ok l' =>
    rw [hl] at hsafe
    obtain ⟨hok, hstep⟩ := hsafe
    dsimp only
    unfold updateStaticLease
    have hsame : ∀ r ∈ s.leases, (s.alloc l').lease r = s.lease r := fun r hr =>
      lease_alloc_of_lt s ((hI.addr h).allocated r hr) l'
    have hrm := hI.rmDynamicLease (hI.alloc l' h) s.heap.next
    have hfree := @ip_ne_of_rmDynamicLease conf (s.alloc l') s.heap.next ?_
    · have hp := @agree_rmDynamicLease conf (s.alloc l') s.heap.next s.heap.next
      have hnext := @next_rmDynamicLease conf (s.alloc l') s.heap.next
      generalize (s.alloc l').rmDynamicLease conf s.heap.next = res at hrm hfree hp hnext ⊢
      obtain ⟨s', stale, e | ⟨⟨⟩⟩⟩ := res
      · exact hrm
      · rw [lease_alloc_next] at hp hfree
        refine hI.add _ hrm ?_ ?_ ?_ ?_
        · rw [hnext]; exact Nat.lt_succ_self _
        · rw [hp.1]; exact (prepareStatic_ok hl).1
        · rw [hp.1]; exact hfree rfl
        · rw [hp.1]; exact hok
    · rw [lease_alloc_next, leases_alloc, steppedOver_congr hsame]
      intro r hr
      rw [hsame r (mem_of_mem_steppedOver hr)]
      exact hstep r hr

theorem updateStatic (hI : Closed env conf ok I) (h : I s) {l : Lease}
    (hsafe : SafeUpdate ok s l (s.findLease l.hwAddr)) : I (s.updateStatic env conf l).1 := by
  unfold V4Server.updateStatic
  cases hf : s.findLease l.hwAddr with
  | none => exact h
  | some found =>
    rw [hf] at hsafe
    obtain ⟨hok, hother⟩ := hsafe
    have hfound : found ∈ s.leases := List.mem_of_find?_eq_some hf
    dsimp only
    cases hv : s.validateStaticLease env conf l with
    | error e => exact h
    | ok l' =>
      obtain ⟨⟨hostname, rfl⟩, hsub, hdup⟩ := validateStaticLease_ok hv
      have hrm := hI.rmLease h (s.lease found)
      -- only `found` could hold the new address, and it is removed
      have hfree : (s.rmLease conf (s.lease found)).2 = .ok () →
          ∀ x ∈ (s.rmLease conf (s.lease found)).1.leases,
            ((s.rmLease conf (s.lease found)).1.lease x).ip ≠ l.ip := by
        rcases rmLease_cases s (s.lease found) with ⟨e, heq⟩ | ⟨hnil, heq⟩ | ⟨i, r, hi, hrip, -, -, heq⟩ <;> rw [heq]
        · simp
        · simp [hnil]
        · intro _ x hx hxip
          rw [lease_rmLeaseByIndex] at hxip
          rw [leases_rmLeaseByIndex] at hx
          have hxs : x ∈ s.leases := List.mem_of_mem_eraseIdx hx
          have hmac : (s.lease x).hwAddr = l.hwAddr := by
            rw [← hxip, (hI.addr h).index x hxs] at hdup
            simpa [takenByOther] using hdup
          have hxf := hother x hxs hxip hmac
          exact ne_of_mem_eraseIdx (hI.addr h).nodup hi hx (by rw [hxf, hrip])
      dsimp only
      generalize s.rmLease conf (s.lease found) = res at hrm hfree ⊢
      obtain ⟨s', e | ⟨⟨⟩⟩⟩ := res
      · exact hrm
      · refine hI.add _ (hI.alloc _ hrm) (Nat.lt_succ_self _) ?_ ?_ ?_ <;>
          simp only [lease_alloc_next, leases_alloc]
        · exact conf.subnet_is4 hsub
        · intro x hx
          rw [lease_alloc_of_lt s' ((hI.addr hrm).allocated x hx)]
          exact hfree rfl x hx
        · exact hok

/-- Every operation that is safe keeps the invariant. -/
theorem step (hI : Closed env conf ok I) (h : I s) {op : Op} (hsafe : Safe env conf ok s op) :
    I (s.step env conf op) := by
  cases op with
  | discover req now probes =>
    exact iteInduction (motive := I) (fun _ => discover_rule h fun _ => hI.allocateLease h _ _ _) fun _ => h
  | request req now =>
    refine iteInduction (motive := I) (fun _ => request_rule h fun r b hr _ => ?_) fun _ => h
    exact hI.commit r _ _ (mem_of_handleByRequestType hr) h
  | decline req now committedAt probes =>
    exact iteInduction (motive := I) (fun hmac => hI.decline h (hsafe hmac)) fun _ => h
  | release req =>
    refine iteInduction (motive := I) (fun _ => release_rule h fun ip _ => ?_) fun _ => h
    exact releaseLoop_invariant (I := I) (fun _ p h => hI.rmDynamicLease h p) _ _ _ _ _ _ h
  | addStatic l => exact hI.addStatic h hsafe
  | updateStatic l => exact hI.updateStatic h hsafe
  | removeStatic l => exact removeStatic_rule h (hI.rmLease h l)

theorem run (hI : Closed env conf ok I) (h : I V4Server.empty) {ops : List Op}
    (hsafe : Meets (V4Server.step env conf) (Safe env conf ok) V4Server.empty ops) :
    I (Lib.run (V4Server.step env conf) V4Server.empty ops) :=
  run_invariant_of_meets (I := I) (fun _ _ h hsafe => hI.step h hsafe) h hsafe

end Closed

/-! ## Whole runs -/

theorem AddrInv.addLease (h : AddrInv conf s) {r : Ref} (hr : r < s.heap.next) (h4 : (s.lease r).ip.is4 = true)
    (hfree : ∀ x ∈ s.leases, (s.lease x).ip ≠ (s.lease r).ip) : AddrInv conf (s.addLease conf r).1 := by
  rcases addLease_cases s r with ⟨e, heq⟩ | ⟨heq, -⟩ <;> rw [heq]
  · exact h
  · exact h.store hr h4 hfree

theorem AddrInv.modify (h : AddrInv conf s) (r : Ref) {f : Lease → Lease} (hf : ∀ l, (f l).ip = l.ip) :
    AddrInv conf (s.modify r f) :=
  h.congr rfl (fun x _ => ip_modify hf x) le_rfl (fun _ _ => rfl) rfl

theorem AddrInv.alloc (h : AddrInv conf s) (l : Lease) : AddrInv conf (s.alloc l) :=
  h.congr rfl (fun x hx => by rw [lease_alloc_of_lt s (h.allocated x hx)]) (Nat.le_succ _) (fun _ _ => rfl) rfl

/-- A commit rewrites the index entry of a lease with itself. -/
theorem AddrInv.commitLease (h : AddrInv conf s) {r : Ref} (hr : r ∈ s.leases) (name : String) (now : Time) :
    AddrInv conf (s.commitLease env conf r name now) := by
  refine h.congr rfl (fun x _ => ?_) le_rfl (fun x hx => ?_) rfl
  · rw [lease_commitLease]
    split
    · rename_i hx; rw [hx]
    · rfl
  · show (s.ipIndex.set (s.lease r).ip r).get (s.lease x).ip = s.ipIndex.get (s.lease x).ip
    rw [GoMap.get_set]
    split
    · rename_i hip
      rw [hip, h.index r hr]
    · rfl

theorem AddrInv.closed : Closed env conf (fun _ => True) (AddrInv conf) where
  addr := id
  ok_of_inRange := fun _ => trivial
  modify := fun r _ hf h => h.modify r hf
  alloc := fun l h => h.alloc l
  remove := fun i h => h.rmLeaseByIndex i
  add := fun _ h hr h4 hfree _ => h.addLease hr h4 hfree
  commit := fun _ name now hr h => h.commitLease hr name now

/-- From a server with no leases, the addresses are unique after every run whose operations take none of the
branches that break them. -/
theorem uniqueAddrs_of_safe (env : HostEnv) (conf : V4ServerConf) (ops : List Op)
    (hsafe : Meets (step env conf) (Safe env conf fun _ => True) empty ops) :
    UniqueAddrs (run (step env conf) empty ops) :=
  (AddrInv.closed.run AddrInv.empty hsafe).toUniqueAddrs

/-! ### Runs on a small network -/

/-- The functions on hostnames, as they are on ASCII hostnames. -/
def asciiEnv : HostEnv where
  toLower s := String.ofList (s.toList.map Char.toLower)
  isValidHostOuterRune c := c.isAlphanum
  validateHostname h := h ≠ "" && h.toList.all fun c => c.isAlphanum || c = '-' || c = '.'

/-- The network `192.168.10.0/24` with the range from `.100` to `.102`. -/
def lanConf : V4ServerConf where
  gatewayIP := 0xc0a80a01
  maskLen := 24
  rangeStart := 0xc0a80a64
  rangeEnd := 0xc0a80a66
  leaseTime := 100
  icmpTimeout := 1
  dnsIPAddr := .v4 0xc0a80a01
  ipRange := ⟨0xffffc0a80a64, 0xffffc0a80a66, by decide, by decide⟩
  ipRange_eq := by decide
  gateway_notin := by decide
  start_mem := by decide
  end_mem := by decide

/-- A message of a client that speaks to `lanConf`. -/
def lanRequest (mac : HardwareAddr) (ip : Option (BitVec 32)) (hostName : String) : Request where
  mac := mac
  requestedIP := ip
  clientIP := none
  serverID := ip.map fun _ => 0xc0a80a01
  hostName := hostName

/-- A client gets an address and declines it. -/
def declineRun : List Op :=
  [.discover (lanRequest [2, 0, 0, 0, 0, 1] none "") 1 [],
    .request (lanRequest [2, 0, 0, 0, 0, 1] (some 0xc0a80a64) "laptop") 2,
    .decline (lanRequest [2, 0, 0, 0, 0, 1] (some 0xc0a80a64) "") 3 4 []]

/-- The lease that the DECLINE allocates is in the list twice. -/
theorem not_uniqueAddrs_declineRun : ¬ UniqueAddrs (run (step asciiEnv lanConf) empty declineRun) := fun h =>
  absurd h.nodup (by decide +kernel)

/-- A static lease is added and moved, and a client gets an address next to it and releases it. -/
def staticRun : List Op :=
  [.addStatic { (default : Lease) with ip := .v4 0xc0a80a64, hwAddr := [2, 0, 0, 0, 0, 2], hostname := "Printer" },
    .discover (lanRequest [2, 0, 0, 0, 0, 1] none "") 1 [⟨1, 2⟩],
    .request (lanRequest [2, 0, 0, 0, 0, 1] (some 0xc0a80a66) "laptop") 3,
    .updateStatic
      { ip := .v4 0xc0a80a05, expiry := 0, hwAddr := [2, 0, 0, 0, 0, 2], hostname := "printer", isStatic := true },
    .release (lanRequest [2, 0, 0, 0, 0, 1] (some 0xc0a80a66) ""),
    .decline (lanRequest [2, 0, 0, 0, 0, 1] (some 0xc0a80a66) "") 5 6 []]

theorem uniqueAddrs_staticRun :
    Meets (step asciiEnv lanConf) (Safe asciiEnv lanConf fun _ => True) empty staticRun ∧
      UniqueAddrs (run (step asciiEnv lanConf) empty staticRun) :=
  have hsafe : Meets (step asciiEnv lanConf) (Safe asciiEnv lanConf fun _ => True) empty staticRun := by decide +kernel
  ⟨hsafe, uniqueAddrs_of_safe asciiEnv lanConf staticRun hsafe⟩

end AdGuardHome.Dhcpd.V4Server
