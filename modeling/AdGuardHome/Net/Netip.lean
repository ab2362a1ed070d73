import Mathlib.Data.Nat.Basic

/-!
# Network addresses

The parts of Go's `net/netip` and `net` that the servers use: addresses, prefixes and their orders, and
hardware addresses with the keys made from them.  An address is the zero value, an IPv4 address or an
IPv6 address with its zone; an IPv4-mapped IPv6 address is an IPv6 address.
-/

namespace AdGuardHome.Net

/-- `netip.Addr`; `invalid` is the zero value. -/
inductive Addr
  | invalid
  | v4 (a : BitVec 32)
  | v6 (a : BitVec 128) (zone : String)
deriving DecidableEq

namespace Addr

def isValid : Addr → Bool
  | invalid => false
  | _ => true

def is4 : Addr → Bool
  | v4 _ => true
  | _ => false

/-- `Addr.Is6`, also true of an IPv4-mapped IPv6 address. -/
def is6 : Addr → Bool
  | v6 _ _ => true
  | _ => false

def bitLen : Addr → ℕ
  | invalid => 0
  | v4 _ => 32
  | v6 _ _ => 128

/-- The address as a number. -/
def toNat : Addr → ℕ
  | invalid => 0
  | v4 a => a.toNat
  | v6 a _ => a.toNat

/-- The 16-byte form of the address as a number; an IPv4 address is mapped. -/
def as16 : Addr → ℕ
  | invalid => 0
  | v4 a => 0xffff00000000 + a.toNat
  | v6 a _ => a.toNat

def zone : Addr → String
  | v6 _ z => z
  | _ => ""

/-- `Addr.Unmap`: the IPv4 address inside an IPv4-mapped IPv6 address. -/
def unmap : Addr → Addr
  | v6 a z => if a >>> 32 = 0xffff then v4 (a.setWidth 32) else v6 a z
  | a => a

/-- `Addr.Compare`: by length, then by value, then by zone. -/
def cmp (x y : Addr) : Ordering :=
  (compare x.bitLen y.bitLen).then ((compare x.toNat y.toNat).then (compare x.zone y.zone))

def less (x y : Addr) : Bool := x.cmp y == .lt

end Addr

/-- `netip.Prefix`.  `netip` stores the number of bits plus one, so that zero marks an invalid prefix. -/
structure Prefix where
  addr : Addr
  bitsPlusOne : UInt8
deriving DecidableEq

namespace Prefix

/-- `Prefix.Bits`, `-1` for an invalid prefix. -/
def bits (p : Prefix) : Int := p.bitsPlusOne.toNat - 1

def isValid (p : Prefix) : Bool := p.bitsPlusOne != 0

/-- `Prefix.Contains`.  Addresses of another length and addresses with a zone are outside. -/
def contains (p : Prefix) (ip : Addr) : Bool :=
  match p.addr, ip with
  | .v4 a, .v4 b => p.isValid && a >>> (33 - p.bitsPlusOne.toNat) == b >>> (33 - p.bitsPlusOne.toNat)
  | .v6 a _, .v6 b z =>
    p.isValid && z == "" && a >>> (129 - p.bitsPlusOne.toNat) == b >>> (129 - p.bitsPlusOne.toNat)
  | _, _ => false

end Prefix

/-- `net.HardwareAddr`. -/
abbrev HardwareAddr := List UInt8

/-- The lengths of the hardware addresses that `netutil.ValidateMAC` accepts. -/
def validMACLen (n : ℕ) : Bool := n == 6 || n == 8 || n == 20

/-- The key of a hardware address in a map: a byte array of length 6, 8 or 20. -/
structure MacKey where
  bytes : List UInt8
  valid : validMACLen bytes.length = true
deriving DecidableEq

/-- `macToKey`; `none` stands for its panic on a hardware address of another length. -/
def macToKey (mac : HardwareAddr) : Option MacKey :=
  if h : validMACLen mac.length = true then some ⟨mac, h⟩ else none

/-! ## The order of addresses -/

theorem Addr.cmp_eq_lex : Addr.cmp = compareLex (compareOn Addr.bitLen)
    (compareLex (compareOn Addr.toNat) (compareOn Addr.zone)) := rfl

instance : Std.TransCmp Addr.cmp := by
  rw [Addr.cmp_eq_lex]
  infer_instance

theorem Addr.eq_of_keys {x y : Addr} (hl : x.bitLen = y.bitLen) (hn : x.toNat = y.toNat)
    (hz : x.zone = y.zone) : x = y := by
  cases x <;> cases y <;> simp_all [Addr.bitLen, Addr.toNat, Addr.zone, BitVec.toNat_inj]

instance : Std.LawfulEqCmp Addr.cmp where
  eq_of_compare := by
    intro x y h
    simp only [Addr.cmp, Ordering.then_eq_eq, Std.LawfulEqCmp.compare_eq_iff_eq] at h
    exact Addr.eq_of_keys h.1 h.2.1 h.2.2

end AdGuardHome.Net
