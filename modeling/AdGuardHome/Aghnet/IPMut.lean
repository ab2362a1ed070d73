import AdGuardHome.Net.Netip

/-!
# Anonymized addresses

The addresses of the package `net` as lists of bytes, their texts, and the function that masks them.  The type `IPMut`
holds the function that is in use; no function is the one that does nothing.
-/

namespace AdGuardHome.Aghnet

open AdGuardHome.Net

/-! ## Addresses of the package net -/

/-- `net.IP`: four bytes, sixteen bytes, or none. -/
abbrev IP := List UInt8

/-- `Addr.AsSlice`, which drops the zone. -/
def asSlice : Addr → IP
  | .invalid => []
  | .v4 a => [24, 16, 8, 0].map fun k => UInt8.ofNat (a >>> k).toNat
  | .v6 a _ => [120, 112, 104, 96, 88, 80, 72, 64, 56, 48, 40, 32, 24, 16, 8, 0].map fun k =>
    UInt8.ofNat (a >>> k).toNat

namespace IP

/-- `IP.To4`: the last four bytes of an IPv4 address, also of one in sixteen bytes. -/
def to4 (ip : IP) : Option IP :=
  if ip.length = 4 then some ip
  else if ip.length = 16 ∧ ip.take 12 = List.replicate 10 0 ++ [255, 255] then some (ip.drop 12)
  else none

/-- The groups of two bytes. -/
def groups : IP → List ℕ
  | a :: b :: ip => (a.toNat * 256 + b.toNat) :: groups ip
  | _ => []

/-- The first index and the length of the first longest run of at least two zeros; the index is 8 if there is none. -/
def zeroRun (gs : List ℕ) : ℕ × ℕ :=
  (List.range 8).foldl (fun best i =>
    let l := ((gs.drop i).takeWhile (· = 0)).length
    if 2 ≤ l ∧ best.2 < l then (i, l) else best) (8, 0)

def hexGroup (n : ℕ) : String := String.ofList (Nat.toDigits 16 n)

/-- The text of an IPv6 address. -/
def string6 (ip : IP) : String :=
  let gs := groups ip
  match zeroRun gs with
  | (_, 0) => ":".intercalate (gs.map hexGroup)
  | (start, l) =>
    ":".intercalate ((gs.take start).map hexGroup) ++ "::" ++ ":".intercalate ((gs.drop (start + l)).map hexGroup)

/-- `IP.String` for the lengths of `asSlice`. -/
def string (ip : IP) : String :=
  if ip = [] then "<nil>"
  else
    match to4 ip with
    | some ip4 => ".".intercalate (ip4.map fun b => toString b.toNat)
    | none => string6 ip

end IP

example : (asSlice (.v6 0x20010db8000000000001000000000001 "eth0")).string = "2001:db8::1:0:0:1" := by decide

/-! ## Masks -/

abbrev IPMutFunc := IP → IP

/-- `nopIPMutFunc` -/
def nopIPMutFunc : IPMutFunc := id

structure IPMut where
  f : IPMutFunc

/-- `IPMut.Store`; `none` is a nil function. -/
def IPMut.store (_ : IPMut) (f : Option IPMutFunc) : IPMut := ⟨f.getD nopIPMutFunc⟩

/-- `AnonymizeIP`: zeros for the last two bytes of an IPv4 address and for the last ten of an IPv6 address. -/
def anonymizeIP : IPMutFunc := fun ip =>
  if ip.to4.isSome then ip.take (ip.length - 2) ++ List.replicate 2 0
  else if ip.length = 16 then ip.take 6 ++ List.replicate 10 0
  else ip

example : (anonymizeIP (asSlice (.v4 0xc0a80105))).string = "192.168.0.0" := by decide

end AdGuardHome.Aghnet
