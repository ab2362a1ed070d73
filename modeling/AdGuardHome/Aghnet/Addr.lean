import AdGuardHome.Net.Netip

/-!
# Normalized domain names, generated hostnames and lists of servers

`GenerateHostname` writes an address with dashes: `192-168-10-1`.
-/

namespace AdGuardHome.Aghnet

open AdGuardHome.Net

/-- `strings.TrimSuffix(host, ".")`. -/
def trimDot (host : String) : String :=
  if host.toList.getLast? = some '.' then String.ofList host.toList.dropLast else host

/-- `NormalizeDomain`. -/
def normalizeDomain (host : String) : String :=
  if host = "." then host else (trimDot host).toLower

/-- `IsCommentOrEmpty`. -/
def isCommentOrEmpty (s : String) : Bool := s.toList.head? = none ∨ s.toList.head? = some '#'

/-- `stringutil.FilterOut` of the comments. -/
def filterOutComments (ss : List String) : List String := ss.filter (!isCommentOrEmpty ·)

/-- The four bytes of an IPv4 address, in decimal. -/
def decimalBytes (a : BitVec 32) : List String :=
  [24, 16, 8, 0].map fun k => toString ((a >>> k).toNat % 256)

/-- The eight groups of an IPv6 address, in four hexadecimal digits each. -/
def hexGroups (a : BitVec 128) : List String :=
  [112, 96, 80, 64, 48, 32, 16, 0].map fun k =>
    String.ofList ([12, 8, 4, 0].map fun j => Nat.digitChar ((a >>> (k + j)).toNat % 16))

/-- `GenerateHostname`.  The source panics on the zero address, which no lease holds. -/
def generateHostname (ip : Addr) : String :=
  match ip.unmap with
  | .invalid => ""
  | .v4 a => "-".intercalate (decimalBytes a)
  | .v6 a z =>
    let zone := if z = "" then [] else '%' :: z.toList.map fun c => if c = ':' then '-' else c
    "-".intercalate (hexGroups a) ++ String.ofList zone

example : generateHostname (.v4 0xc0a80a01) = "192-168-10-1" := by decide

end AdGuardHome.Aghnet
