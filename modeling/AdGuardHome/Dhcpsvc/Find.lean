import AdGuardHome.Dhcp.BitSet
import AdGuardHome.Dhcpsvc.Reset
import Mathlib.Data.Set.Basic
import Mathlib.Data.String.Basic
import Mathlib.Logic.Function.Iterate

/-!
# The search in an address range

The loop of `find` goes from an address to the next one.  Behind the last address of a family comes the zero address,
which is below every range, so that a search without success does not end there (`findsLeast_iff`).  A range of IPv6
addresses also contains addresses of other zones, which the loop does not visit and which share their offsets.
-/

namespace AdGuardHome.Net.Addr

/-- `Addr.Next`.  What follows on the zero address is no valid address, either, and is not told from it here. -/
def next : Addr → Addr
  | invalid => invalid
  | v4 a => if a = BitVec.allOnes 32 then invalid else v4 (a + 1)
  | v6 a z => if a = BitVec.allOnes 128 then invalid else v6 (a + 1) z

theorem less_iff {x y : Addr} (hbits : x.bitLen = y.bitLen) (hzone : x.zone = y.zone) :
    x.less y = true ↔ x.toNat < y.toNat := by
  simp only [less, cmp, hbits, hzone, Std.ReflCmp.compare_self, Ordering.then_eq, Ordering.eq_then, beq_iff_eq]
  exact Nat.compare_eq_lt

theorem toNat_lt (x : Addr) : x.toNat < 2 ^ x.bitLen := by
  cases x with
  | invalid => decide
  | v4 a => exact a.isLt
  | v6 a z => exact a.isLt

theorem eq_allOnes_iff {w : ℕ} {a : BitVec w} : a = BitVec.allOnes w ↔ a.toNat + 1 = 2 ^ w := by
  rw [← BitVec.toNat_inj, BitVec.toNat_allOnes]
  have hpos := Nat.two_pow_pos w
  omega

theorem toNat_add_one {w : ℕ} {a : BitVec w} (ha : a ≠ BitVec.allOnes w) : (a + 1#w).toNat = a.toNat + 1 := by
  have hlt : a.toNat + 1 < 2 ^ w := by
    have hne := mt eq_allOnes_iff.2 ha
    have hle := a.isLt
    omega
  have hone : (1#w).toNat = 1 := by
    rw [BitVec.toNat_ofNat]
    exact Nat.mod_eq_of_lt (by omega)
  rw [BitVec.toNat_add_of_lt (by rwa [hone]), hone]

theorem next_eq_invalid_iff {x : Addr} (h : x.isValid = true) : x.next = invalid ↔ x.toNat + 1 = 2 ^ x.bitLen := by
  cases x with
  | invalid => cases h
  | v4 a =>
    have hlast : (v4 a).next = invalid ↔ a = BitVec.allOnes 32 := by simp [next]
    exact hlast.trans eq_allOnes_iff
  | v6 a z =>
    have hlast : (v6 a z).next = invalid ↔ a = BitVec.allOnes 128 := by simp [next]
    exact hlast.trans eq_allOnes_iff

theorem toNat_next {x : Addr} (h : x.next ≠ invalid) : x.next.toNat = x.toNat + 1 := by
  cases x with
  | invalid => exact absurd rfl h
  | v4 a =>
    have ha : a ≠ BitVec.allOnes 32 := fun ha => h (if_pos ha)
    rw [next, if_neg ha]
    exact toNat_add_one ha
  | v6 a z =>
    have ha : a ≠ BitVec.allOnes 128 := fun ha => h (if_pos ha)
    rw [next, if_neg ha]
    exact toNat_add_one ha

theorem not_valid_less {x : Addr} (h : x.isValid = true) : x.less invalid = false := by
  cases x with
  | invalid => cases h
  | v4 a => rfl
  | v6 a z => rfl

end AdGuardHome.Net.Addr

namespace AdGuardHome.Dhcpsvc

open AdGuardHome.Net AdGuardHome.Dhcp

/-- `newIPRange` for a valid first address, which is what the configurations of the interfaces ask for; `str` stands
for `Addr.String`. -/
def newIPRange (str : Addr → String) (start stop : Addr) (hvalid : start.isValid = true) : Except String IPRange :=
  if hfamily : start.is4 = stop.is4 then
    if hlt : start.less stop = true then
      if hlen : stop.toNat - start.toNat ≤ maxRangeLen then .ok ⟨start, stop, hvalid, hfamily, hlt, hlen⟩
      else .error ("invalid ip range: range length must be within " ++ toString maxRangeLen)
    else
      .error ("invalid ip range: start " ++ str start ++ " is greater than or equal to end " ++ str stop)
  else .error ("invalid ip range: " ++ str start ++ " and " ++ str stop ++ " must be within the same address family")

/-- The ranges are those that are accepted. -/
theorem newIPRange_eq (str : Addr → String) (r : IPRange) : newIPRange str r.start r.stop r.valid = .ok r := by
  unfold newIPRange
  rw [dif_pos r.family, dif_pos r.lt, dif_pos r.len_le]

namespace IPRange

variable (r : IPRange) (p : Addr → Bool)

/-- The loop of `find` from an address on, with a bound on its turns; `none` when they do not suffice. -/
def findFrom : ℕ → Addr → Option Addr
  | 0, _ => none
  | turns + 1, ip =>
    if r.stop.less ip then some .invalid
    else if p ip then some ip
    else findFrom turns ip.next

/-- `find` returns the address. -/
def Finds (ip : Addr) : Prop := ∃ n, ∀ turns, n ≤ turns → r.findFrom p turns r.start = some ip

/-- The addresses of the range among the given ones. -/
def members (among : Set Addr) : Set Addr := {ip ∈ among | r.contains ip = true}

/-- The addresses in the zone of the first one of the range. -/
def sameZone : Set Addr := {ip | ip.zone = r.start.zone}

/-- The least of the addresses that satisfies the predicate, or the zero address if there is none. -/
def IsFirst (p : Addr → Bool) (addrs : Set Addr) (ip : Addr) : Prop :=
  (ip ∈ addrs ∧ p ip = true ∧ ∀ x ∈ addrs, p x = true → x.less ip = false) ∨
    (ip = .invalid ∧ ∀ x ∈ addrs, p x = false)

/-- The last address of the family is not one of them, or the search for `p` stops before. -/
def Stops (p : Addr → Bool) (addrs : Set Addr) : Prop :=
  (∀ x ∈ addrs, x.next ≠ .invalid) ∨ (∃ x ∈ addrs, p x = true) ∨ p .invalid = true

variable {r p} {ip x y : Addr} {k turns : ℕ}

theorem member_iff : ip ∈ r.members r.sameZone ↔ ip ∈ r.addrs := and_comm.trans mem_addrs_iff.symm

/-! ## Steps -/

theorem isValid_nth (r : IPRange) (k : ℕ) : (r.nth k).isValid = true := by
  have hvalid := r.valid
  unfold nth
  cases hstart : r.start with
  | invalid =>
    rw [hstart] at hvalid
    exact hvalid
  | v4 a => rfl
  | v6 a z => rfl

theorem add_ofNat_succ {w : ℕ} (a : BitVec w) (k : ℕ) : a + BitVec.ofNat w k + 1#w = a + BitVec.ofNat w (k + 1) := by
  rw [BitVec.add_assoc, BitVec.ofNat_add]

/-- A step within the family. -/
theorem next_nth (hne : (r.nth k).next ≠ .invalid) : (r.nth k).next = r.nth (k + 1) := by
  unfold nth at hne ⊢
  cases hstart : r.start with
  | invalid => rfl
  | v4 a =>
    rw [hstart] at hne
    have hlast : a + BitVec.ofNat 32 k ≠ BitVec.allOnes 32 := fun hlast => hne (if_pos hlast)
    rw [Addr.next, if_neg hlast]
    exact congrArg Addr.v4 (add_ofNat_succ a k)
  | v6 a z =>
    rw [hstart] at hne
    have hlast : a + BitVec.ofNat 128 k ≠ BitVec.allOnes 128 := fun hlast => hne (if_pos hlast)
    rw [Addr.next, if_neg hlast]
    exact congrArg (Addr.v6 · z) (add_ofNat_succ a k)

/-- Before the end of the range there is a next address. -/
theorem next_nth_of_lt (hk : k < r.stop.toNat - r.start.toNat) : (r.nth k).next = r.nth (k + 1) := by
  refine next_nth fun hlast => ?_
  have hnat := (as16_nth (r := r) (k := k) (by omega)).1
  have hbits := (r.family_nth k).2.1.trans r.bitLen_stop.symm
  have hstop := r.stop.toNat_lt
  rw [Addr.next_eq_invalid_iff (r.isValid_nth k), hbits] at hlast
  omega

theorem iterate_next (hk : k ≤ r.stop.toNat - r.start.toNat) : Addr.next^[k] r.start = r.nth k := by
  induction k with
  | zero => exact r.nth_zero.symm
  | succ k ih => rw [Function.iterate_succ_apply', ih (by omega), next_nth_of_lt (by omega)]

/-! ## The search -/

/-- The loop at a part of the range. -/
theorem findFrom_nth {n : ℕ} (hnext : ∀ j < n, (r.nth (k + j)).next = r.nth (k + j + 1))
    (hstop : ∀ j ≤ n, r.stop.less (r.nth (k + j)) = false) (turns : ℕ) :
    r.findFrom p (n + 1 + turns) (r.nth k) =
      (((List.range' k (n + 1)).map r.nth).find? p).or (r.findFrom p turns (r.nth (k + n)).next) := by
  induction n generalizing k with
  | zero =>
    rw [show 0 + 1 + turns = turns + 1 by omega, findFrom, if_neg (by simpa using hstop 0 le_rfl)]
    by_cases hp : p (r.nth k) = true <;> simp [hp]
  | succ n ih =>
    rw [show n + 1 + 1 + turns = (n + 1 + turns) + 1 by omega, findFrom, if_neg (by simpa using hstop 0 (by omega)),
      List.range'_succ, List.map_cons]
    by_cases hp : p (r.nth k) = true
    · rw [if_pos hp, List.find?_cons_of_pos hp, Option.some_or]
    · have hrest := ih (k := k + 1) (fun j hj => by
        rw [show k + 1 + j = k + (j + 1) by omega]
        exact hnext (j + 1) (by omega)) (fun j hj => by
        rw [show k + 1 + j = k + (j + 1) by omega]
        exact hstop (j + 1) (by omega))
      have hfirst : (r.nth k).next = r.nth (k + 1) := hnext 0 (by omega)
      rw [if_neg hp, List.find?_cons_of_neg hp, hfirst, hrest, show k + 1 + n = k + (n + 1) by omega]

/-- Behind the last address of the range, the search is above its end or at the zero address. -/
theorem addrs_last (r : IPRange) : ∃ n ≤ r.stop.toNat - r.start.toNat, r.addrs = (List.range (n + 1)).map r.nth ∧
    (∀ k ≤ n, r.stop.less (r.nth k) = false) ∧
    ((r.nth n).next = .invalid ∨ r.stop.less (r.nth n).next = true) := by
  obtain ⟨m, hm, heq, hstop⟩ := r.addrs_eq
  have hstart : r.start ∈ r.addrs := by
    have hless : r.stop.less r.start = false := by
      have hlt := r.lt
      rw [Addr.less, beq_iff_eq] at hlt
      have hgt : r.stop.cmp r.start = .gt := Std.OrientedCmp.gt_iff_lt.2 hlt
      simp [Addr.less, hgt]
    have hself : r.start.less r.start = false := not_less_of_toNat rfl (.inr rfl)
    exact mem_addrs_iff.2 ⟨by simp [contains, hless, hself], rfl⟩
  obtain ⟨n, rfl⟩ : ∃ n, m = n + 1 := by
    cases m with
    | zero => rw [heq] at hstart; cases hstart
    | succ n => exact ⟨n, rfl⟩
  have hn : n ≤ r.stop.toNat - r.start.toNat := by omega
  refine ⟨n, hn, heq, fun k hk => hstop k (by omega), ?_⟩
  by_contra hnot
  obtain ⟨hne, hless⟩ := not_or.1 hnot
  -- The next address would be one of the range.
  have hnat := Addr.toNat_next hne
  rw [Bool.not_eq_true] at hless
  rw [next_nth hne] at hless hnat
  rw [(as16_nth hn).1] at hnat
  obtain ⟨h4, hbits, hzone⟩ := r.family_nth (n + 1)
  have hstart : (r.nth (n + 1)).less r.start = false := not_less_of_toNat hbits.symm (.inl (by omega))
  have hmem : r.nth (n + 1) ∈ r.addrs := mem_addrs_iff.2 ⟨by simp [contains, h4, hstart, hless], hzone⟩
  rw [heq] at hmem
  obtain ⟨j, hj, hjn⟩ := List.mem_map.1 hmem
  rw [List.mem_range] at hj
  have hj' := congrArg Addr.toNat hjn
  rw [(as16_nth (r := r) (k := j) (by omega)).1] at hj'
  omega

/-! ## What is found -/

/-- The first address that satisfies the predicate, with those before it. -/
theorem isFirst_of_find {n : ℕ} (hn : n ≤ r.stop.toNat - r.start.toNat)
    (haddrs : r.addrs = (List.range (n + 1)).map r.nth) (hfind : r.find p = some ip) :
    IsFirst p (r.members r.sameZone) ip := by
  rw [find_eq] at hfind
  have hmem := member_iff.2 (List.mem_of_find?_eq_some hfind)
  have hp := List.find?_some hfind
  refine .inl ⟨hmem, hp, fun x hx hpx => ?_⟩
  rw [haddrs, List.find?_map, Option.map_eq_some_iff] at hfind
  obtain ⟨k, hk, rfl⟩ := hfind
  obtain ⟨-, hkn, hbefore⟩ := List.find?_range_eq_some.1 hk
  rw [member_iff, haddrs] at hx
  obtain ⟨j, hj, rfl⟩ := List.mem_map.1 hx
  rw [List.mem_range] at hkn hj
  have hkj : k ≤ j := by
    by_contra hlt
    have := hbefore j (by omega)
    simp [hpx] at this
  have hbits := (r.family_nth j).2.1.trans (r.family_nth k).2.1.symm
  refine not_less_of_toNat hbits.symm ?_
  rcases hkj.eq_or_lt with rfl | hlt
  · exact .inr rfl
  · have hk := (as16_nth (r := r) (k := k) (by omega)).1
    have hj := (as16_nth (r := r) (k := j) (by omega)).1
    exact .inl (by omega)

/-- The range has the last address of its family. -/
theorem exists_last_iff {n : ℕ} (hn : n ≤ r.stop.toNat - r.start.toNat)
    (haddrs : r.addrs = (List.range (n + 1)).map r.nth) :
    (∃ x ∈ r.members r.sameZone, x.next = .invalid) ↔ (r.nth n).next = .invalid := by
  constructor
  · rintro ⟨x, hx, hlast⟩
    rw [member_iff, haddrs] at hx
    obtain ⟨j, hj, rfl⟩ := List.mem_map.1 hx
    rw [List.mem_range] at hj
    rcases (Nat.lt_succ_iff.1 hj).eq_or_lt with rfl | hlt
    · exact hlast
    · rw [next_nth_of_lt (by omega)] at hlast
      have hvalid := r.isValid_nth (j + 1)
      rw [hlast] at hvalid
      cases hvalid
  · intro hlast
    refine ⟨r.nth n, member_iff.2 ?_, hlast⟩
    rw [haddrs]
    exact List.mem_map_of_mem (List.mem_range.2 (by omega))

theorem not_stop_less_invalid (r : IPRange) : r.stop.less .invalid = false := by
  refine Addr.not_valid_less ?_
  have hbits := r.bitLen_stop
  have hstart := r.valid
  cases hr : r.start <;> cases ht : r.stop <;> simp [hr, ht, Addr.bitLen, Addr.isValid] at hbits hstart ⊢

/-- At the zero address the search goes on for ever, if it is not what is looked for. -/
theorem findFrom_invalid (turns : ℕ) :
    r.findFrom p (turns + 1) .invalid = if p .invalid then some .invalid else r.findFrom p turns .invalid := by
  simp [findFrom, r.not_stop_less_invalid, Addr.next]

theorem findFrom_invalid_none (hp : p .invalid = false) (turns : ℕ) : r.findFrom p turns .invalid = none := by
  induction turns with
  | zero => rfl
  | succ turns ih => rw [findFrom_invalid, if_neg (by simp [hp]), ih]

theorem Finds.of_turns {n : ℕ} (h : ∀ turns, r.findFrom p (n + turns) r.start = some ip) : r.Finds p ip := by
  refine ⟨n, fun turns hle => ?_⟩
  obtain ⟨more, rfl⟩ := Nat.exists_eq_add_of_le hle
  exact h more

/-- The loop at the whole range. -/
theorem findFrom_start {n : ℕ} (hn : n ≤ r.stop.toNat - r.start.toNat)
    (haddrs : r.addrs = (List.range (n + 1)).map r.nth) (hstop : ∀ k ≤ n, r.stop.less (r.nth k) = false) (turns : ℕ) :
    r.findFrom p (n + 1 + turns) r.start = (r.find p).or (r.findFrom p turns (r.nth n).next) := by
  have hsearch := findFrom_nth (p := p) (k := 0) (n := n)
    (fun j hj => by rw [Nat.zero_add]; exact next_nth_of_lt (Nat.lt_of_lt_of_le hj hn))
    (fun j hj => by rw [Nat.zero_add]; exact hstop j hj) turns
  rwa [r.nth_zero, Nat.zero_add, ← List.range_eq_range', ← haddrs] at hsearch

/-- The loop finds what is found in the list of the addresses. -/
theorem Finds.of_find (h : r.find p = some ip) : r.Finds p ip := by
  obtain ⟨n, hn, haddrs, hstop, -⟩ := r.addrs_last
  exact .of_turns fun turns => by rw [findFrom_start hn haddrs hstop, h, Option.some_or]

/-- The search ends with the least address that satisfies the predicate, or the zero address, if and only if there is
such an address, or the range has not the last one of its family, or the zero address satisfies the predicate. -/
theorem findsLeast_iff (r : IPRange) (p : Addr → Bool) :
    (∃ ip, r.Finds p ip ∧ IsFirst p (r.members r.sameZone) ip) ↔ Stops p (r.members r.sameZone) := by
  obtain ⟨n, hn, haddrs, hstop, hlast⟩ := r.addrs_last
  have hturns := findFrom_start (p := p) hn haddrs hstop
  cases hfind : r.find p with
  | some y =>
    exact iff_of_true ⟨y, .of_find hfind, isFirst_of_find hn haddrs hfind⟩
      (.inr (.inl ⟨y, member_iff.2 (List.mem_of_find?_eq_some hfind), List.find?_some hfind⟩))
  | none =>
    rw [hfind] at hturns
    simp only [Option.none_or] at hturns
    have hnone : ∀ x ∈ r.members r.sameZone, p x = false := fun x hx => by
      simpa using List.find?_eq_none.1 (find_eq p ▸ hfind) x (member_iff.1 hx)
    have hzero : IsFirst p (r.members r.sameZone) .invalid := .inr ⟨rfl, hnone⟩
    rcases hlast with hlast | hless
    · rw [hlast] at hturns
      cases hp : p .invalid with
      | true =>
        have hfinds : r.Finds p .invalid := .of_turns (n := n + 2) fun turns => by
          rw [show n + 2 + turns = n + 1 + (turns + 1) by omega, hturns, findFrom_invalid, if_pos hp]
        exact iff_of_true ⟨.invalid, hfinds, hzero⟩ (.inr (.inr hp))
      | false =>
        refine iff_of_false ?_ ?_
        · rintro ⟨ip, ⟨m, hm⟩, -⟩
          have hbound := hm (n + 1 + m) (by omega)
          rw [hturns, findFrom_invalid_none hp] at hbound
          cases hbound
        · rintro (hends | ⟨x, hx, hpx⟩ | hp')
          · obtain ⟨x, hx, hnext⟩ := (exists_last_iff hn haddrs).2 hlast
            exact hends x hx hnext
          · rw [hnone x hx] at hpx
            cases hpx
          · rw [hp] at hp'
            cases hp'
    · have hfinds : r.Finds p .invalid := .of_turns (n := n + 2) fun turns => by
        rw [show n + 2 + turns = n + 1 + (turns + 1) by omega, hturns, findFrom, if_pos hless]
      refine iff_of_true ⟨.invalid, hfinds, hzero⟩ (.inl fun x hx hnext => ?_)
      rw [(exists_last_iff hn haddrs).1 ⟨x, hx, hnext⟩, r.not_stop_less_invalid] at hless
      cases hless

/-! ## Offsets -/

theorem toNat_of_contains (h : r.contains ip = true) :
    ip.bitLen = r.start.bitLen ∧ r.start.toNat ≤ ip.toNat ∧ ip.toNat ≤ r.stop.toNat := by
  have hbits := bitLen_of_contains h
  obtain ⟨⟨-, hless⟩, hstop⟩ : (r.start.is4 = ip.is4 ∧ ip.less r.start = false) ∧ r.stop.less ip = false := by
    simpa [contains] using h
  exact ⟨hbits, toNat_le_of_not_less hbits hless, toNat_le_of_not_less (r.bitLen_stop.trans hbits.symm) hstop⟩

/-- The lower halves suffice, as the range is shorter than a half. -/
theorem offset_toNat (h : r.contains ip = true) : (r.offset ip).1.toNat = ip.toNat - r.start.toNat := by
  obtain ⟨hbits, hstart, hstop⟩ := toNat_of_contains h
  have hlen := r.len_le
  unfold maxRangeLen at hlen
  have h16 : ip.as16 = r.start.as16 + (ip.toNat - r.start.toNat) := by
    cases hr : r.start <;> cases ip <;> simp [hr, Addr.bitLen, Addr.toNat, Addr.as16] at hbits hstart ⊢ <;> omega
  rw [offset, if_pos h]
  show (low64 ip - low64 r.start).toNat = ip.toNat - r.start.toNat
  rw [low64, low64, h16, ofNat_add_sub, BitVec.toNat_ofNat, Nat.mod_eq_of_lt (by omega)]

/-- What the offsets are, among the given addresses: defined for those of the range, zero for its first one, greater for
a later address, and the number of steps to an address. -/
structure OffsetsCount (r : IPRange) (among : Set Addr) : Prop where
  defined : ∀ ip ∈ among, (r.offset ip).2 = true ↔ ip ∈ r.members among
  start : r.offset r.start = (0, true)
  strictMono : ∀ x ∈ r.members among, ∀ y ∈ r.members among, x.less y = true → (r.offset x).1 < (r.offset y).1
  steps : ∀ ip ∈ r.members among, Addr.next^[(r.offset ip).1.toNat] r.start = ip

theorem contains_start (r : IPRange) : r.contains r.start = true := by
  obtain ⟨n, -, haddrs, -⟩ := r.addrs_last
  refine contains_of_mem_addrs ?_
  rw [haddrs, ← r.nth_zero]
  exact List.mem_map_of_mem (List.mem_range.2 (Nat.succ_pos n))

/-- The steps lead to the address with the same number in the zone of the first one. -/
theorem iterate_offset (h : r.contains ip = true) :
    (Addr.next^[(r.offset ip).1.toNat] r.start).bitLen = ip.bitLen ∧
      (Addr.next^[(r.offset ip).1.toNat] r.start).toNat = ip.toNat ∧
      (Addr.next^[(r.offset ip).1.toNat] r.start).zone = r.start.zone := by
  obtain ⟨hbits, hstart, hstop⟩ := toNat_of_contains h
  rw [offset_toNat h, iterate_next (by omega)]
  obtain ⟨-, hbits', hzone⟩ := r.family_nth (ip.toNat - r.start.toNat)
  refine ⟨hbits'.trans hbits.symm, ?_, hzone⟩
  rw [(as16_nth (by omega)).1]
  omega

theorem offsetsCount_sameZone (r : IPRange) : r.OffsetsCount r.sameZone where
  defined ip hip := by
    rw [offset_snd]
    exact (and_iff_right hip).symm
  start := by
    rw [offset, if_pos r.contains_start, BitVec.sub_self]
    rfl
  strictMono x hx y hy hless := by
    have hbits := (bitLen_of_contains hx.2).trans (bitLen_of_contains hy.2).symm
    rw [Addr.less_iff hbits (Eq.trans hx.1 (Eq.symm hy.1))] at hless
    obtain ⟨-, hstart, -⟩ := toNat_of_contains hx.2
    rw [BitVec.lt_def, offset_toNat hx.2, offset_toNat hy.2]
    omega
  steps ip hip := by
    obtain ⟨hbits, hnat, hzone⟩ := iterate_offset hip.2
    exact Addr.eq_of_keys hbits hnat (hzone.trans (Eq.symm hip.1))

/-! ## Zones -/

theorem members_univ_of_is4 (h4 : r.start.is4 = true) : r.members Set.univ = r.members r.sameZone := by
  refine Set.ext fun ip => and_congr_left fun hip => iff_of_true trivial ?_
  have hip4 := is4_of_contains h4 hip
  show ip.zone = r.start.zone
  cases ip <;> cases hr : r.start <;> simp_all [Addr.is4, Addr.zone]

/-- A range of IPv6 addresses contains one of another zone. -/
theorem exists_other_zone (h4 : r.start.is4 = false) : ∃ ip, r.contains ip = true ∧ ip.zone ≠ r.start.zone := by
  obtain ⟨a, z, hstart⟩ : ∃ a z, r.start = .v6 a z := by
    have hvalid := r.valid
    cases hr : r.start <;> simp_all [Addr.is4, Addr.isValid]
  by_cases hstop : r.stop.zone = r.start.zone
  · -- the first address in a zone behind that of the range
    have hlt : z < z ++ "0" := by
      have hmore : z.toList ++ [] < z.toList ++ "0".toList := List.append_left_lt (List.nil_lt_cons _ _)
      rw [String.lt_iff_toList_lt, String.toList_append]
      rwa [List.append_nil] at hmore
    have hbits : r.start.bitLen = r.stop.bitLen := r.bitLen_stop.symm
    have hnat := (Addr.less_iff hbits hstop.symm).1 r.lt
    refine ⟨.v6 a (z ++ "0"), ?_, ?_⟩
    · have hcmp : compare (z ++ "0") z = .gt := compare_gt_iff_gt.2 hlt
      have hless : (Addr.v6 a (z ++ "0")).less (.v6 a z) = false := by
        simp [Addr.less, Addr.cmp, Addr.bitLen, Addr.toNat, Addr.zone, hcmp]
      have hend : r.stop.less (.v6 a (z ++ "0")) = false := by
        refine not_less_of_toNat ?_ (.inl ?_)
        · rw [← hbits, hstart]
          rfl
        · rw [hstart] at hnat
          exact hnat
      simp [contains, hstart, hless, hend, Addr.is4]
    · simp [hstart, Addr.zone]
  · refine ⟨r.stop, ?_, hstop⟩
    have hless : r.stop.less r.start = false := by
      have hlt := r.lt
      rw [Addr.less, beq_iff_eq] at hlt
      have hgt : r.stop.cmp r.start = .gt := Std.OrientedCmp.gt_iff_lt.2 hlt
      simp [Addr.less, hgt]
    have hself : r.stop.less r.stop = false := not_less_of_toNat rfl (.inr rfl)
    simp [contains, r.family, hless, hself]

/-- It has the offset of an address that it is not. -/
theorem not_offsetsCount_univ (h4 : r.start.is4 = false) : ¬ r.OffsetsCount Set.univ := by
  intro h
  obtain ⟨ip, hip, hzone⟩ := exists_other_zone h4
  have hsteps := h.steps ip ⟨trivial, hip⟩
  have hsame := (iterate_offset hip).2.2
  rw [hsteps] at hsame
  exact hzone hsame

/-! ## Ranges, offsets and bits -/

/-- What is asked of the search, the offsets and the bits, among the given addresses. -/
structure Meets (r : IPRange) (p : Addr → Bool) (among : Set Addr) : Prop where
  find : ∃ ip, r.Finds p ip ∧ IsFirst p (r.members among) ip
  offset : r.OffsetsCount among
  isSet : ∀ ops n, (BitSet.newBitSet.sets ops).isSet n = (BitSet.lastSet ops n).getD false

theorem meets_sameZone_iff (r : IPRange) (p : Addr → Bool) :
    r.Meets p r.sameZone ↔ Stops p (r.members r.sameZone) := by
  refine ⟨fun h => (r.findsLeast_iff p).1 h.find, fun h => ⟨(r.findsLeast_iff p).2 h, r.offsetsCount_sameZone, ?_⟩⟩
  intro ops n
  rw [BitSet.isSet_sets, BitSet.isSet_newBitSet]

/-- All is as it should among all addresses just for IPv4, where no search goes on behind the last address, and
among those of one zone for IPv6, too. -/
theorem find_offset_isSet (r : IPRange) (p : Addr → Bool) :
    (r.Meets p Set.univ ↔ r.start.is4 = true ∧ Stops p (r.members Set.univ)) ∧
      (r.Meets p r.sameZone ↔ Stops p (r.members r.sameZone)) := by
  have hzone := r.meets_sameZone_iff p
  refine ⟨?_, hzone⟩
  cases h4 : r.start.is4 with
  | false => exact iff_of_false (fun h => not_offsetsCount_univ h4 h.offset) (by simp)
  | true =>
    have hmembers := members_univ_of_is4 h4
    rw [and_iff_right rfl, hmembers, ← hzone]
    have hdefined : ∀ ip, (r.offset ip).2 = true ↔ ip ∈ r.members Set.univ := fun ip => by
      rw [offset_snd]
      exact (and_iff_right trivial).symm
    constructor
    · intro h
      exact ⟨hmembers ▸ h.find, r.offsetsCount_sameZone, h.isSet⟩
    · intro h
      exact ⟨hmembers ▸ h.find, ⟨fun ip _ => hdefined ip, h.offset.start, hmembers ▸ h.offset.strictMono,
        hmembers ▸ h.offset.steps⟩, h.isSet⟩

/-- The last two addresses of IPv4. -/
def lastTwo : IPRange where
  start := .v4 0xfffffffe
  stop := .v4 0xffffffff
  valid := rfl
  family := rfl
  lt := by decide
  len_le := by decide

/-- The search in them for what is not there does not end. -/
theorem lastTwo_not_found : ¬ lastTwo.Meets (fun _ => false) Set.univ := by
  rintro ⟨⟨ip, ⟨n, hn⟩, -⟩, -, -⟩
  have hbound := hn (n + 2) (by omega)
  have hsteps : lastTwo.findFrom (fun _ => false) (n + 2) lastTwo.start =
      lastTwo.findFrom (fun _ => false) n .invalid := rfl
  rw [hsteps, findFrom_invalid_none rfl] at hbound
  cases hbound

end IPRange

end AdGuardHome.Dhcpsvc
