import AdGuardHome.Dhcp.Lease
import Mathlib.Data.BitVec

/-!
# The configuration of the DHCPv4 server

Address ranges (`iprange.go`) and the part of `V4ServerConf` that the lease operations read, with what
`Validate` checks as fields.  Ranges work on the 16-byte form of an address, read as a number.
-/

namespace AdGuardHome.Dhcpd

open AdGuardHome.Net AdGuardHome.Dhcp

/-! ## Addresses in the 16-byte form -/

/-- `net.IP(ip.AsSlice()).To16()` as a number. -/
def to16 (ip : Addr) : ℕ := ip.as16

/-- `net.IP.To4` of a 16-byte address. -/
def to4 (n : ℕ) : Option (BitVec 32) :=
  if n / 2 ^ 32 = 0xffff then some (BitVec.ofNat 32 n) else none

theorem to4_to16 (a : BitVec 32) : to4 (to16 (.v4 a)) = some a := by
  have hlt := a.isLt
  have hhi : to16 (.v4 a) / 2 ^ 32 = 0xffff := by
    show (0xffff00000000 + a.toNat) / 2 ^ 32 = 0xffff
    omega
  have hlo : BitVec.ofNat 32 (to16 (.v4 a)) = a := by
    apply BitVec.eq_of_toNat_eq
    rw [BitVec.toNat_ofNat]
    show (0xffff00000000 + a.toNat) % 2 ^ 32 = a.toNat
    omega
  rw [to4, if_pos hhi, hlo]

theorem to16_inj {x y : Addr} (hx : x.is4 = true) (hy : y.is4 = true) (h : to16 x = to16 y) : x = y := by
  cases x <;> cases y <;> simp [Addr.is4] at hx hy
  rename_i a b
  have hab : a.toNat = b.toNat := Nat.add_left_cancel h
  rw [BitVec.eq_of_toNat_eq hab]

/-! ## Ranges -/

/-- The longest range, in addresses past the first. -/
def maxRangeLen : ℕ := 0xffffffff

/-- `ipRange`: an inclusive range as `newIPRange` accepts it. -/
structure IPRange where
  start : ℕ
  stop : ℕ
  lt : start < stop
  len_le : stop - start ≤ maxRangeLen
deriving DecidableEq

/-- `none` stands for its error: the range is empty or too large. -/
def newIPRange (start stop : Addr) : Option IPRange :=
  if h : to16 start < to16 stop ∧ to16 stop - to16 start ≤ maxRangeLen then
    some ⟨to16 start, to16 stop, h.1, h.2⟩
  else none

namespace IPRange

variable (r : IPRange)

def containsInt (ip : ℕ) : Bool := decide (r.start ≤ ip) && decide (ip ≤ r.stop)

/-- The offset of an address from the beginning of the range, zero and `false` outside of it. -/
def offset (ip : ℕ) : BitVec 64 × Bool :=
  if r.containsInt ip then (BitVec.ofNat 64 (ip - r.start), true) else (0, false)

/-- The first address of the range that satisfies the predicate. -/
def find (p : ℕ → Bool) : Option ℕ := (List.range' r.start (r.stop - r.start + 1)).find? p

variable {r}

theorem containsInt_iff {ip : ℕ} : r.containsInt ip = true ↔ r.start ≤ ip ∧ ip ≤ r.stop := by
  simp [containsInt]

theorem offset_snd (ip : ℕ) : (r.offset ip).2 = r.containsInt ip := by
  unfold offset
  split
  · rename_i h; exact h.symm
  · rename_i h; simpa using h

theorem offset_toNat {ip : ℕ} (h : r.containsInt ip = true) : (r.offset ip).1.toNat = ip - r.start := by
  have hlen := r.len_le
  have hip := containsInt_iff.1 h
  unfold offset
  rw [if_pos h, BitVec.toNat_ofNat]
  apply Nat.mod_eq_of_lt
  unfold maxRangeLen at hlen
  omega

/-- An address of the range is determined by its offset. -/
theorem offset_inj {x y : ℕ} (hx : r.containsInt x = true) (hy : r.containsInt y = true)
    (h : (r.offset x).1 = (r.offset y).1) : x = y := by
  have hxy : x - r.start = y - r.start := by rw [← offset_toNat hx, ← offset_toNat hy, h]
  have hx' := containsInt_iff.1 hx
  have hy' := containsInt_iff.1 hy
  omega

/-- Bit `n` belongs to an address of the range exactly when the address is `n` past its beginning. -/
theorem offset_eq_iff {ip : ℕ} {n : BitVec 64} :
    r.offset ip = (n, true) ↔ ip = r.start + n.toNat ∧ ip ≤ r.stop := by
  constructor
  · intro h
    have hc : r.containsInt ip = true := by rw [← offset_snd, h]
    have hn : n.toNat = ip - r.start := by rw [← offset_toNat hc, h]
    have := containsInt_iff.1 hc
    omega
  · rintro ⟨hip, hle⟩
    have hc : r.containsInt ip = true := containsInt_iff.2 ⟨by omega, hle⟩
    refine Prod.ext (BitVec.eq_of_toNat_eq ?_) (by rw [offset_snd, hc])
    rw [offset_toNat hc]
    show ip - r.start = n.toNat
    omega

theorem find_eq_some {p : ℕ → Bool} {ip : ℕ} (h : r.find p = some ip) :
    r.containsInt ip = true ∧ p ip = true ∧ ∀ x, r.start ≤ x → x < ip → p x = false := by
  unfold find at h
  obtain ⟨hp, pre, post, hl, hpre⟩ := List.find?_eq_some_iff_append.1 h
  have hmem : ip ∈ List.range' r.start (r.stop - r.start + 1) := by rw [hl]; simp
  have hin := List.mem_range'_1.1 hmem
  have hlt := r.lt
  refine ⟨containsInt_iff.2 ⟨hin.1, by omega⟩, hp, fun x hx hxip => ?_⟩
  have hxmem : x ∈ List.range' r.start (r.stop - r.start + 1) := List.mem_range'_1.2 ⟨hx, by omega⟩
  have hsorted : (pre ++ ip :: post).Pairwise (· < ·) := hl ▸ List.pairwise_lt_range'
  rw [hl, List.mem_append, List.mem_cons] at hxmem
  rcases hxmem with hx' | rfl | hx'
  · simpa using hpre x hx'
  · omega
  · have := (List.pairwise_cons.1 (List.pairwise_append.1 hsorted).2.1).1 x hx'
    omega

theorem find_eq_none {p : ℕ → Bool} : r.find p = none ↔ ∀ x, r.containsInt x = true → p x = false := by
  have hlt := r.lt
  unfold find
  rw [List.find?_eq_none]
  constructor
  · intro h x hx
    have hx' := containsInt_iff.1 hx
    simpa using h x (List.mem_range'_1.2 ⟨hx'.1, by omega⟩)
  · intro h x hx
    have hx' := List.mem_range'_1.1 hx
    rw [h x (containsInt_iff.2 ⟨hx'.1, by omega⟩)]
    exact Bool.false_ne_true

end IPRange

/-! ## The configuration -/

/-- `V4ServerConf` after a successful `Validate`.  `dnsIPAddr` is the first of `dnsIPAddrs`. -/
structure V4ServerConf where
  gatewayIP : BitVec 32
  maskLen : Fin 33
  rangeStart : BitVec 32
  rangeEnd : BitVec 32
  leaseTime : Int
  icmpTimeout : ℕ
  dnsIPAddr : Addr
  ipRange : IPRange
  ipRange_eq : newIPRange (.v4 rangeStart) (.v4 rangeEnd) = some ipRange
  gateway_notin : ipRange.containsInt (to16 (.v4 gatewayIP)) = false
  start_mem : (Prefix.mk (.v4 gatewayIP) (.ofNat (maskLen + 1))).contains (.v4 rangeStart) = true
  end_mem : (Prefix.mk (.v4 gatewayIP) (.ofNat (maskLen + 1))).contains (.v4 rangeEnd) = true

namespace V4ServerConf

variable (conf : V4ServerConf)

/-- The network of the gateway. -/
def subnet : Prefix := ⟨.v4 conf.gatewayIP, .ofNat (conf.maskLen + 1)⟩

/-- Whether the dynamic range holds the address. -/
def inRange (ip : Addr) : Bool := conf.ipRange.containsInt (to16 ip)

theorem ipRange_start : conf.ipRange.start = to16 (.v4 conf.rangeStart) ∧
    conf.ipRange.stop = to16 (.v4 conf.rangeEnd) := by
  have h := conf.ipRange_eq
  unfold newIPRange at h
  split at h
  · obtain h := Option.some.inj h
    rw [← h]
    exact ⟨rfl, rfl⟩
  · cases h

/-- The range holds IPv4 addresses only. -/
theorem exists_v4_of_containsInt {ip : ℕ} (h : conf.ipRange.containsInt ip = true) :
    ∃ a, ip = to16 (.v4 a) := by
  obtain ⟨hs, he⟩ := conf.ipRange_start
  have hin := IPRange.containsInt_iff.1 h
  rw [hs, he] at hin
  have hstop := conf.rangeEnd.isLt
  refine ⟨BitVec.ofNat 32 (ip - 0xffff00000000), ?_⟩
  simp only [to16, Addr.as16] at hin ⊢
  rw [BitVec.toNat_ofNat, Nat.mod_eq_of_lt (by omega)]
  omega

theorem subnet_is4 {ip : Addr} (h : conf.subnet.contains ip = true) : ip.is4 = true := by
  unfold subnet Prefix.contains at h
  cases ip <;> simp [Addr.is4] at h ⊢

end V4ServerConf

end AdGuardHome.Dhcpd
