import AdGuardHome.Net.Netip
import Mathlib.Data.BitVec
import Mathlib.Data.List.TakeWhile

/-!
# Address ranges of the DHCP service

`iprange.go`: inclusive ranges of addresses of one family, on `netip` addresses.
-/

namespace AdGuardHome.Dhcpsvc

open AdGuardHome.Net

/-- The longest range, in addresses past the first. -/
def maxRangeLen : ℕ := 0xffffffff

/-- `ipRange`, as `newIPRange` accepts it. -/
structure IPRange where
  start : Addr
  stop : Addr
  valid : start.isValid = true
  family : start.is4 = stop.is4
  lt : start.less stop = true
  len_le : stop.toNat - start.toNat ≤ maxRangeLen

namespace IPRange

variable (r : IPRange)

def contains (ip : Addr) : Bool := r.start.is4 == ip.is4 && !ip.less r.start && !r.stop.less ip

/-- The lower eight bytes of the 16-byte form. -/
def low64 (ip : Addr) : BitVec 64 := BitVec.ofNat 64 ip.as16

/-- The offset of an address from the beginning of the range, zero and `false` outside of it. -/
def offset (ip : Addr) : BitVec 64 × Bool :=
  if r.contains ip then (low64 ip - low64 r.start, true) else (0, false)

/-- The address `k` calls of `Next` past the beginning. -/
def nth (k : ℕ) : Addr :=
  match r.start with
  | .invalid => .invalid
  | .v4 a => .v4 (a + BitVec.ofNat 32 k)
  | .v6 a z => .v6 (a + BitVec.ofNat 128 k) z

/-- The first address of the range that satisfies the predicate. -/
def find (p : Addr → Bool) : Option Addr :=
  (((List.range (r.stop.toNat - r.start.toNat + 1)).map r.nth).takeWhile fun ip => !r.stop.less ip).find? p

/-- Whether a search without success goes on behind the last address of the family. -/
def wraps : Bool :=
  r.stop.toNat + 1 == 2 ^ r.stop.bitLen && !r.stop.less (r.nth (r.stop.toNat - r.start.toNat))

variable {r}

theorem offset_snd (ip : Addr) : (r.offset ip).2 = r.contains ip := by
  unfold offset
  split
  · rename_i h; exact h.symm
  · rename_i h; simpa using h

theorem is4_of_contains {ip : Addr} (h4 : r.start.is4 = true) (h : r.contains ip = true) : ip.is4 = true := by
  unfold contains at h
  rw [h4] at h
  cases hip : ip.is4 with
  | true => rfl
  | false => simp [hip] at h

/-- IPv4 addresses of the range are determined by their offsets. -/
theorem offset_inj {x y : Addr} (hx4 : x.is4 = true) (hy4 : y.is4 = true) (hx : r.contains x = true)
    (hy : r.contains y = true) (h : (r.offset x).1 = (r.offset y).1) : x = y := by
  unfold offset at h
  rw [if_pos hx, if_pos hy] at h
  have hlow : low64 x = low64 y := by
    have hadd := congrArg (· + low64 r.start) h
    simpa only [BitVec.sub_add_cancel] using hadd
  cases x <;> cases y <;> simp [Addr.is4] at hx4 hy4
  rename_i a b
  have hnat := congrArg BitVec.toNat hlow
  simp only [low64, Addr.as16, BitVec.toNat_ofNat] at hnat
  have ha := a.isLt
  have hb := b.isLt
  rw [Nat.mod_eq_of_lt (by omega), Nat.mod_eq_of_lt (by omega)] at hnat
  have hab : a.toNat = b.toNat := by omega
  rw [BitVec.eq_of_toNat_eq hab]

/-! ## The addresses of a range -/

/-- The addresses that `find` goes through, up to the last one. -/
def addrs (r : IPRange) : List Addr :=
  ((List.range (r.stop.toNat - r.start.toNat + 1)).map r.nth).takeWhile fun ip => !r.stop.less ip

theorem find_eq (p : Addr → Bool) : r.find p = r.addrs.find? p := rfl

theorem addrs_eq (r : IPRange) : ∃ m ≤ r.stop.toNat - r.start.toNat + 1,
    r.addrs = (List.range m).map r.nth ∧ ∀ k < m, r.stop.less (r.nth k) = false := by
  obtain ⟨m, hm, heq⟩ : ∃ m ≤ r.stop.toNat - r.start.toNat + 1, r.addrs = (List.range m).map r.nth := by
    have hprefix := List.takeWhile_prefix (l := (List.range (r.stop.toNat - r.start.toNat + 1)).map r.nth)
      fun ip => !r.stop.less ip
    have hlen := hprefix.length_le
    rw [List.length_map, List.length_range] at hlen
    refine ⟨_, hlen, (List.prefix_iff_eq_take.1 hprefix).trans ?_⟩
    rw [← List.map_take, List.take_range, Nat.min_eq_left hlen]
  refine ⟨m, hm, heq, fun k hk => ?_⟩
  have hmem : r.nth k ∈ r.addrs := by
    rw [heq]
    exact List.mem_map_of_mem (List.mem_range.2 hk)
  simpa using List.mem_takeWhile_imp hmem

theorem not_less_of_toNat {x y : Addr} (hbits : y.bitLen = x.bitLen) (h : y.toNat < x.toNat ∨ x = y) :
    x.less y = false := by
  rcases h with hlt | rfl
  · have hcmp : compare x.toNat y.toNat = .gt := Nat.compare_eq_gt.2 hlt
    simp [Addr.less, Addr.cmp, hbits, hcmp]
  · have hself : x.cmp x = .eq := Std.ReflCmp.compare_self
    simp [Addr.less, hself]

theorem ofNat_add_sub (n k : ℕ) : BitVec.ofNat 64 (n + k) - BitVec.ofNat 64 n = BitVec.ofNat 64 k := by
  rw [BitVec.ofNat_add, BitVec.add_comm, BitVec.add_sub_cancel]

section Nth

variable {k : ℕ}

/-- None of the steps within the range overflows. -/
theorem as16_nth (hk : k ≤ r.stop.toNat - r.start.toNat) :
    (r.nth k).toNat = r.start.toNat + k ∧ (r.nth k).as16 = r.start.as16 + k := by
  obtain ⟨start, stop, hvalid, hfamily, hlt, hlen⟩ := r
  cases start with
  | invalid => cases hvalid
  | v4 a =>
    have hstop : stop.toNat < 2 ^ 32 := by
      cases stop with
      | invalid => decide
      | v4 b => exact b.isLt
      | v6 b z => cases hfamily
    simp only [Addr.toNat] at hk hstop
    have ha := a.isLt
    have hnat : (a + BitVec.ofNat 32 k).toNat = a.toNat + k := by
      rw [BitVec.toNat_add, BitVec.toNat_ofNat, Nat.add_mod_mod, Nat.mod_eq_of_lt (by omega)]
    exact ⟨hnat, by simp only [nth, Addr.as16, hnat, Nat.add_assoc]⟩
  | v6 a z =>
    have hstop : stop.toNat < 2 ^ 128 := by
      cases stop with
      | invalid => decide
      | v4 b => cases hfamily
      | v6 b z' => exact b.isLt
    simp only [Addr.toNat] at hk hstop
    have ha := a.isLt
    have hnat : (a + BitVec.ofNat 128 k).toNat = a.toNat + k := by
      rw [BitVec.toNat_add, BitVec.toNat_ofNat, Nat.add_mod_mod, Nat.mod_eq_of_lt (by omega)]
    exact ⟨hnat, hnat⟩

theorem family_nth (r : IPRange) (k : ℕ) :
    (r.nth k).is4 = r.start.is4 ∧ (r.nth k).bitLen = r.start.bitLen ∧ (r.nth k).zone = r.start.zone := by
  unfold nth
  cases r.start <;> exact ⟨rfl, rfl, rfl⟩

theorem nth_zero (r : IPRange) : r.nth 0 = r.start := by
  unfold nth
  cases r.start <;> simp

/-- The `k`-th address and its offset. -/
theorem offset_nth (hk : k ≤ r.stop.toNat - r.start.toNat) (hstop : r.stop.less (r.nth k) = false) :
    r.contains (r.nth k) = true ∧ (r.offset (r.nth k)).1 = BitVec.ofNat 64 k := by
  obtain ⟨hnat, h16⟩ := as16_nth hk
  obtain ⟨h4, hbits, -⟩ := r.family_nth k
  have hless : (r.nth k).less r.start = false := by
    refine not_less_of_toNat hbits.symm ?_
    rcases Nat.eq_zero_or_pos k with rfl | hpos
    · exact .inr r.nth_zero
    · exact .inl (by omega)
  have hcontains : r.contains (r.nth k) = true := by simp [contains, h4, hless, hstop]
  refine ⟨hcontains, ?_⟩
  rw [offset, if_pos hcontains]
  show low64 (r.nth k) - low64 r.start = BitVec.ofNat 64 k
  rw [low64, low64, h16, ofNat_add_sub]

end Nth

theorem contains_of_mem_addrs {ip : Addr} (h : ip ∈ r.addrs) : r.contains ip = true := by
  obtain ⟨m, hm, heq, hstop⟩ := r.addrs_eq
  rw [heq] at h
  obtain ⟨k, hk, rfl⟩ := List.mem_map.1 h
  rw [List.mem_range] at hk
  exact (offset_nth (by omega) (hstop k hk)).1

/-- Addresses of the range are determined by their offsets. -/
theorem offset_inj_addrs {x y : Addr} (hx : x ∈ r.addrs) (hy : y ∈ r.addrs) (h : (r.offset x).1 = (r.offset y).1) :
    x = y := by
  obtain ⟨m, hm, heq, hstop⟩ := r.addrs_eq
  have hlen := r.len_le
  unfold maxRangeLen at hlen
  rw [heq] at hx hy
  obtain ⟨j, hj, rfl⟩ := List.mem_map.1 hx
  obtain ⟨k, hk, rfl⟩ := List.mem_map.1 hy
  rw [List.mem_range] at hj hk
  rw [(offset_nth (by omega) (hstop j hj)).2, (offset_nth (by omega) (hstop k hk)).2] at h
  have hnat := congrArg BitVec.toNat h
  rw [BitVec.toNat_ofNat, BitVec.toNat_ofNat, Nat.mod_eq_of_lt (by omega), Nat.mod_eq_of_lt (by omega)] at hnat
  rw [hnat]

theorem nodup_addrs (r : IPRange) : r.addrs.Nodup := by
  obtain ⟨m, hm, heq, hstop⟩ := r.addrs_eq
  have hlen := r.len_le
  unfold maxRangeLen at hlen
  rw [heq]
  refine List.Nodup.map_on (fun j hj k hk h => ?_) List.nodup_range
  rw [List.mem_range] at hj hk
  have hoff : (r.offset (r.nth j)).1 = (r.offset (r.nth k)).1 := by rw [h]
  rw [(offset_nth (by omega) (hstop j hj)).2, (offset_nth (by omega) (hstop k hk)).2] at hoff
  have hnat := congrArg BitVec.toNat hoff
  rwa [BitVec.toNat_ofNat, BitVec.toNat_ofNat, Nat.mod_eq_of_lt (by omega), Nat.mod_eq_of_lt (by omega)] at hnat

theorem toNat_le_of_not_less {x y : Addr} (hbits : x.bitLen = y.bitLen) (h : x.less y = false) :
    y.toNat ≤ x.toNat := by
  by_contra hlt
  have hcmp : compare x.toNat y.toNat = .lt := Nat.compare_eq_lt.2 (by omega)
  simp [Addr.less, Addr.cmp, hbits, hcmp] at h

theorem bitLen_of_contains {ip : Addr} (h : r.contains ip = true) : ip.bitLen = r.start.bitLen := by
  have hvalid := r.valid
  unfold contains at h
  cases hs : r.start with
  | invalid => rw [hs] at hvalid; cases hvalid
  | v4 a => cases ip <;> simp [hs, Addr.is4, Addr.bitLen] at h ⊢
  | v6 a z =>
    cases ip with
    | invalid => simp [hs, Addr.less, Addr.cmp, Addr.bitLen, Addr.is4, show compare (0 : ℕ) 128 = .lt from rfl] at h
    | v4 b => simp [hs, Addr.is4] at h
    | v6 b z' => rfl

theorem bitLen_stop (r : IPRange) : r.stop.bitLen = r.start.bitLen := by
  have hvalid := r.valid
  have hfamily := r.family
  have hlt := r.lt
  cases hs : r.start with
  | invalid => rw [hs] at hvalid; cases hvalid
  | v4 a => cases ht : r.stop <;> simp [hs, ht, Addr.is4, Addr.bitLen] at hfamily ⊢
  | v6 a z =>
    cases ht : r.stop with
    | invalid =>
      simp [hs, ht, Addr.less, Addr.cmp, Addr.bitLen, show compare (128 : ℕ) 0 = .gt from rfl] at hlt
    | v4 b => simp [hs, ht, Addr.is4] at hfamily
    | v6 b z' => rfl

/-- The addresses are those that the range contains, in the zone of its beginning. -/
theorem mem_addrs_iff {ip : Addr} : ip ∈ r.addrs ↔ r.contains ip = true ∧ ip.zone = r.start.zone := by
  constructor
  · intro h
    obtain ⟨m, -, heq, -⟩ := r.addrs_eq
    refine ⟨contains_of_mem_addrs h, ?_⟩
    rw [heq] at h
    obtain ⟨k, -, rfl⟩ := List.mem_map.1 h
    exact (r.family_nth k).2.2
  · rintro ⟨hcontains, hzone⟩
    have hbits := bitLen_of_contains hcontains
    obtain ⟨⟨h4, hless⟩, hstop⟩ : (r.start.is4 = ip.is4 ∧ ip.less r.start = false) ∧ r.stop.less ip = false := by
      simpa [contains] using hcontains
    have hstart := toNat_le_of_not_less hbits hless
    have hend := toNat_le_of_not_less (r.bitLen_stop.trans hbits.symm) hstop
    have hip : ip = r.nth (ip.toNat - r.start.toNat) := by
      obtain ⟨-, hb, hz⟩ := r.family_nth (ip.toNat - r.start.toNat)
      refine Addr.eq_of_keys (hbits.trans hb.symm) ?_ (hzone.trans hz.symm)
      rw [(as16_nth (by omega)).1]
      omega
    -- the search does not stop before the address
    have hbefore : ∀ k < ip.toNat - r.start.toNat, r.stop.less (r.nth k) = false := fun k hk => by
      refine not_less_of_toNat ((r.family_nth k).2.1.trans r.bitLen_stop.symm) (.inl ?_)
      rw [(as16_nth (by omega)).1]
      omega
    have hsplit : List.range (r.stop.toNat - r.start.toNat + 1) = List.range (ip.toNat - r.start.toNat) ++
        (ip.toNat - r.start.toNat) :: List.range' (ip.toNat - r.start.toNat + 1) (r.stop.toNat - ip.toNat) := by
      rw [show r.stop.toNat - r.start.toNat + 1 = (ip.toNat - r.start.toNat) + (r.stop.toNat - ip.toNat + 1) by omega,
        List.range_eq_range', List.range_eq_range', ← List.range'_append_1, Nat.zero_add, List.range'_succ]
    unfold addrs
    rw [hsplit, List.map_append, List.takeWhile_append_of_pos, List.map_cons, List.takeWhile_cons_of_pos]
    · rw [← hip]
      exact List.mem_append_right _ List.mem_cons_self
    · rw [← hip]
      simpa using hstop
    · intro x hx
      obtain ⟨k, hk, rfl⟩ := List.mem_map.1 hx
      simpa using hbefore k (List.mem_range.1 hk)

end IPRange

end AdGuardHome.Dhcpsvc
