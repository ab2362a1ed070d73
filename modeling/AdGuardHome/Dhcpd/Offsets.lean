import AdGuardHome.Dhcpd.Addresses

/-!
# Leased offsets

The bit set has exactly the offsets of the leases in the range, and so `nextIP` finds the first free address,
in every run that keeps the addresses unique and adds no static lease of the subnet outside of the range:
`addLease` stores such a lease under the offset zero that `offset` returns along with `false`.
-/

namespace AdGuardHome.Dhcpd.V4Server

open AdGuardHome.Net AdGuardHome.Lib AdGuardHome.Dhcp

variable {env : HostEnv} {conf : V4ServerConf} {s : V4Server}

/-- Bit `n` is set exactly if an entry has the address `n` past the beginning of the range, inside of it. -/
def ExactOffsets (conf : V4ServerConf) (s : V4Server) : Prop :=
  ∀ n : BitVec 64, s.leasedOffsets.isSet n = true ↔
    ∃ r ∈ s.leases, to16 (s.lease r).ip = conf.ipRange.start + n.toNat ∧
      conf.ipRange.start + n.toNat ≤ conf.ipRange.stop

/-- `nextIP` returns the first address of the range that no lease holds, none if all are held. -/
def FirstFree (conf : V4ServerConf) (s : V4Server) : Prop :=
  match s.nextIP conf with
  | some ip =>
    (∀ r ∈ s.leases, (s.lease r).ip ≠ .v4 ip) ∧ conf.inRange (.v4 ip) = true ∧
      ∀ a : BitVec 32, conf.inRange (.v4 a) = true → a < ip → ∃ r ∈ s.leases, (s.lease r).ip = .v4 a
  | none => ∀ a : BitVec 32, conf.inRange (.v4 a) = true → ∃ r ∈ s.leases, (s.lease r).ip = .v4 a

/-- What holds of the addresses and the offsets along a run. -/
structure OffsetsInv (conf : V4ServerConf) (s : V4Server) : Prop extends AddrInv conf s where
  /-- A marked offset is that of a lease. -/
  leased : ∀ n, s.leasedOffsets.isSet n = true → ∃ r ∈ s.leases, conf.ipRange.offset (to16 (s.lease r).ip) = (n, true)

theorem OffsetsInv.exactOffsets (h : OffsetsInv conf s) : ExactOffsets conf s := by
  intro n
  constructor
  · intro hn
    obtain ⟨r, hr, hoff⟩ := h.leased n hn
    obtain ⟨hip, hle⟩ := IPRange.offset_eq_iff.1 hoff
    exact ⟨r, hr, hip, hip ▸ hle⟩
  · rintro ⟨r, hr, hip, hle⟩
    have hoff : conf.ipRange.offset (to16 (s.lease r).ip) = (n, true) :=
      IPRange.offset_eq_iff.2 ⟨hip, hip ▸ hle⟩
    have hin : conf.inRange (s.lease r).ip = true := by
      show conf.ipRange.containsInt _ = true
      rw [← IPRange.offset_snd, hoff]
    have hmark := h.marked r hr hin
    rw [hoff] at hmark
    exact hmark

/-- A marked address of the range is held by a lease. -/
theorem OffsetsInv.held (h : OffsetsInv conf s) {a : BitVec 32} (hin : conf.inRange (.v4 a) = true)
    (hset : s.leasedOffsets.isSet (conf.ipRange.offset (to16 (.v4 a))).1 = true) :
    ∃ r ∈ s.leases, (s.lease r).ip = .v4 a := by
  obtain ⟨r, hr, hoff⟩ := h.leased _ hset
  have hrin : conf.ipRange.containsInt (to16 (s.lease r).ip) = true := by
    rw [← IPRange.offset_snd, hoff]
  refine ⟨r, hr, to16_inj (h.is4 r hr) rfl (IPRange.offset_inj hrin hin ?_)⟩
  rw [hoff]

theorem OffsetsInv.firstFree (h : OffsetsInv conf s) : FirstFree conf s := by
  unfold FirstFree
  split
  · rename_i ip hip
    obtain ⟨hin, -, hbefore⟩ := nextIP_eq_some hip
    refine ⟨h.nextIP_free hip, hin, fun a ha hlt => h.held ha (hbefore _ ha ?_)⟩
    exact Nat.add_lt_add_left hlt _
  · rename_i hip
    exact fun a ha => h.held ha (nextIP_eq_none hip ha)

theorem OffsetsInv.empty : OffsetsInv conf empty where
  toAddrInv := AddrInv.empty
  leased := by
    intro n hn
    rw [V4Server.empty, BitSet.isSet_newBitSet] at hn
    cases hn

theorem OffsetsInv.rmLeaseByIndex (h : OffsetsInv conf s) (i : ℕ) : OffsetsInv conf (s.rmLeaseByIndex conf i) where
  toAddrInv := h.toAddrInv.rmLeaseByIndex i
  leased := by
    intro n hn
    cases hi : s.leases[i]? with
    | none => rw [rmLeaseByIndex_of_none hi] at hn ⊢; exact h.leased n hn
    | some r =>
      -- the bit was set before and is not that of the removed lease
      have hbit : s.leasedOffsets.isSet n = true ∧ conf.ipRange.offset (to16 (s.lease r).ip) ≠ (n, true) := by
        rw [leasedOffsets_rmLeaseByIndex hi] at hn
        split at hn
        · rw [BitSet.isSet_set] at hn
          split at hn
          · cases hn
          · rename_i hne
            exact ⟨hn, fun hoff => hne (by rw [hoff])⟩
        · rename_i hin
          refine ⟨hn, fun hoff => hin ?_⟩
          show conf.ipRange.containsInt _ = true
          rw [← IPRange.offset_snd, hoff]
      obtain ⟨x, hx, hoff⟩ := h.leased n hbit.1
      refine ⟨x, ?_, by rw [lease_rmLeaseByIndex]; exact hoff⟩
      rw [leases_rmLeaseByIndex, List.mem_eraseIdx_iff_getElem?]
      obtain ⟨j, hj⟩ := List.mem_iff_getElem?.1 hx
      refine ⟨j, fun hji => hbit.2 ?_, hj⟩
      rw [hji, hi, Option.some_inj] at hj
      rw [hj, hoff]

theorem OffsetsInv.addLease (h : OffsetsInv conf s) {r : Ref} (hr : r < s.heap.next)
    (h4 : (s.lease r).ip.is4 = true) (hfree : ∀ x ∈ s.leases, (s.lease x).ip ≠ (s.lease r).ip)
    (hok : conf.subnet.contains (s.lease r).ip = true → conf.inRange (s.lease r).ip = true) :
    OffsetsInv conf (s.addLease conf r).1 where
  toAddrInv := h.toAddrInv.addLease hr h4 hfree
  leased := by
    intro n hn
    rcases addLease_cases s r with ⟨e, heq⟩ | ⟨heq, hsub, hrange, -⟩
    · rw [heq] at hn ⊢
      exact h.leased n hn
    · rw [heq] at hn ⊢
      have hin : conf.inRange (s.lease r).ip = true := by
        cases hst : (s.lease r).isStatic with
        | true => exact hok (hsub hst)
        | false => exact hrange hst
      replace hn : (s.leasedOffsets.set (conf.ipRange.offset (to16 (s.lease r).ip)).1 true).isSet n = true := hn
      rw [BitSet.isSet_set] at hn
      split at hn
      · rename_i hnr
        refine ⟨r, by simp [V4Server.store], Prod.ext hnr.symm ?_⟩
        show (conf.ipRange.offset (to16 (s.lease r).ip)).2 = true
        rw [IPRange.offset_snd]
        exact hin
      · obtain ⟨x, hx, hoff⟩ := h.leased n hn
        exact ⟨x, by simp [V4Server.store, hx], hoff⟩

/-- The offsets of the entries and the bit set are the same. -/
theorem OffsetsInv.congr {s' : V4Server} (h : OffsetsInv conf s) (h' : AddrInv conf s') (hl : s'.leases = s.leases)
    (hip : ∀ r ∈ s.leases, (s'.lease r).ip = (s.lease r).ip) (hbits : s'.leasedOffsets = s.leasedOffsets) :
    OffsetsInv conf s' where
  toAddrInv := h'
  leased := by
    intro n hn
    rw [hbits] at hn
    obtain ⟨r, hr, hoff⟩ := h.leased n hn
    exact ⟨r, hl ▸ hr, by rw [hip r hr]; exact hoff⟩

theorem OffsetsInv.closed :
    Closed env conf (fun ip => conf.subnet.contains ip = true → conf.inRange ip = true) (OffsetsInv conf) where
  addr := fun h => h.toAddrInv
  ok_of_inRange := fun hin _ => hin
  modify := fun r _ hf h => h.congr (h.toAddrInv.modify r hf) rfl (fun x _ => ip_modify hf x) rfl
  alloc := fun l h => h.congr (h.toAddrInv.alloc l) rfl
    (fun x hx => by rw [lease_alloc_of_lt _ (h.allocated x hx)]) rfl
  remove := fun i h => h.rmLeaseByIndex i
  add := fun _ h hr h4 hfree hok => h.addLease hr h4 hfree hok
  commit := fun r name now hr h => by
    refine h.congr (h.toAddrInv.commitLease hr name now) rfl (fun x _ => ?_) rfl
    rw [lease_commitLease]
    split
    · rename_i hx; rw [hx]
    · rfl

/-- From a server with no leases, after every run whose operations break no address and add no static lease
of the subnet outside of the range, the bit set is exact and `nextIP` finds the first free address. -/
theorem exactOffsets_of_safe (env : HostEnv) (conf : V4ServerConf) (ops : List Op)
    (hsafe : Meets (step env conf)
      (Safe env conf fun ip => conf.subnet.contains ip = true → conf.inRange ip = true) empty ops) :
    ExactOffsets conf (run (step env conf) empty ops) ∧ FirstFree conf (run (step env conf) empty ops) :=
  have hinv := OffsetsInv.closed.run OffsetsInv.empty hsafe
  ⟨hinv.exactOffsets, hinv.firstFree⟩

/-- A static lease is added on `192.168.10.5`, outside of the range. -/
def outsideRun : List Op :=
  [.addStatic { (default : Lease) with ip := .v4 0xc0a80a05, hwAddr := [2, 0, 0, 0, 0, 2], hostname := "printer" }]

/-- It marks the first address of the range. -/
theorem not_exactOffsets_outsideRun : ¬ ExactOffsets lanConf (run (step asciiEnv lanConf) empty outsideRun) := by
  intro h
  obtain ⟨r, hr, hip, -⟩ := (h 0).1 (by decide +kernel)
  have hleases : (run (step asciiEnv lanConf) empty outsideRun).leases = [0] := by decide +kernel
  rw [hleases, List.mem_singleton] at hr
  subst hr
  exact absurd hip (by decide +kernel)

/-- A static lease is added in the range, a client gets an address next to it and the static lease is removed. -/
def insideRun : List Op :=
  [.addStatic { (default : Lease) with ip := .v4 0xc0a80a64, hwAddr := [2, 0, 0, 0, 0, 2], hostname := "printer" },
    .discover (lanRequest [2, 0, 0, 0, 0, 1] none "") 1 [⟨1, 2⟩],
    .removeStatic { (default : Lease) with ip := .v4 0xc0a80a64, hwAddr := [2, 0, 0, 0, 0, 2], hostname := "printer" }]

theorem exactOffsets_insideRun :
    Meets (step asciiEnv lanConf)
        (Safe asciiEnv lanConf fun ip => lanConf.subnet.contains ip = true → lanConf.inRange ip = true) empty
        insideRun ∧
      ExactOffsets lanConf (run (step asciiEnv lanConf) empty insideRun) ∧
      FirstFree lanConf (run (step asciiEnv lanConf) empty insideRun) :=
  have hsafe : Meets (step asciiEnv lanConf)
      (Safe asciiEnv lanConf fun ip => lanConf.subnet.contains ip = true → lanConf.inRange ip = true)
      empty insideRun := by decide +kernel
  ⟨hsafe, exactOffsets_of_safe asciiEnv lanConf insideRun hsafe⟩

end AdGuardHome.Dhcpd.V4Server
