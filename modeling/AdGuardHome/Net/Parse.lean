import AdGuardHome.Net.Netip

/-!
# Texts of addresses and prefixes

`netip.ParseAddr`, `netip.ParsePrefix` and `net.ParseMAC`.  The texts are lists of characters; `none` is an error.
-/

namespace AdGuardHome.Net

/-- `Addr.WithZone("")`. -/
def Addr.withoutZone : Addr → Addr
  | .v6 a _ => .v6 a ""
  | a => a

def digit? (c : Char) : Option ℕ := if '0' ≤ c ∧ c ≤ '9' then some (c.toNat - '0'.toNat) else none

def hexDigit? (c : Char) : Option ℕ :=
  if '0' ≤ c ∧ c ≤ '9' then some (c.toNat - '0'.toNat)
  else if 'a' ≤ c ∧ c ≤ 'f' then some (c.toNat - 'a'.toNat + 10)
  else if 'A' ≤ c ∧ c ≤ 'F' then some (c.toNat - 'A'.toNat + 10)
  else none

/-- The value of a decimal field: at most 255, with no leading zero. -/
def parseOctet (cs : List Char) : Option ℕ :=
  if cs = [] ∨ 1 < cs.length ∧ cs.head? = some '0' then none else
  (cs.mapM digit?).bind fun ds =>
    let v := ds.foldl (fun v d => v * 10 + d) 0
    if 255 < v then none else some v

/-- `parseIPv4Fields`: four decimal fields with dots between them. -/
def parseIPv4Fields (cs : List Char) : Option (List ℕ) :=
  let fields := cs.splitOn '.'
  if fields.length ≠ 4 then none else fields.mapM parseOctet

def ofBytes (bs : List ℕ) : ℕ := bs.foldl (fun v b => v * 256 + b) 0

def parseIPv4 (cs : List Char) : Option Addr :=
  (parseIPv4Fields cs).map fun bs => .v4 (BitVec.ofNat 32 (ofBytes bs))

/-- The loop of `parseIPv6`: the bytes read, the position of the ellipsis and the text that is left.  There are
`fuel` fields of two bytes left. -/
def parseIPv6Fields : ℕ → List ℕ → Option ℕ → List Char → Option (List ℕ × Option ℕ × List Char)
  | 0, ip, ellipsis, s => some (ip, ellipsis, s)
  | fuel + 1, ip, ellipsis, s =>
    let digits := s.takeWhile fun c => (hexDigit? c).isSome
    let rest := s.drop digits.length
    let acc := (digits.filterMap hexDigit?).foldl (fun v d => v * 16 + d) 0
    if digits = [] ∨ 4 < digits.length then none
    else if rest.head? = some '.' then
      -- An IPv4 address in the last four bytes.
      if ellipsis = none ∧ ip.length ≠ 12 ∨ 16 < ip.length + 4 then none
      else (parseIPv4Fields s).map fun bs => (ip ++ bs, ellipsis, [])
    else
      let ip := ip ++ [acc / 256, acc % 256]
      match rest with
      | [] => some (ip, ellipsis, [])
      | [_] => none
      | c₀ :: c₁ :: rest =>
        if c₀ ≠ ':' then none
        else if c₁ = ':' then
          if ellipsis ≠ none then none
          else if rest = [] then some (ip, some ip.length, [])
          else parseIPv6Fields fuel ip (some ip.length) rest
        else parseIPv6Fields fuel ip ellipsis (c₁ :: rest)

/-- Fills the ellipsis with zeros. -/
def expandEllipsis (ip : List ℕ) (ellipsis : Option ℕ) : Option (List ℕ) :=
  match ellipsis with
  | none => if ip.length < 16 then none else some ip
  | some k => if ip.length < 16 then some (ip.take k ++ List.replicate (16 - ip.length) 0 ++ ip.drop k) else none

def parseIPv6 (cs : List Char) : Option Addr :=
  let s := cs.takeWhile (· ≠ '%')
  let zone := cs.drop (s.length + 1)
  if s.length < cs.length ∧ zone = [] then none
  else if s = [':', ':'] then some (.v6 0 (String.ofList zone))
  else
    let (ellipsis, s) := match s with
      | ':' :: ':' :: s => (some 0, s)
      | s => (none, s)
    match parseIPv6Fields 8 [] ellipsis s with
    | some (ip, ellipsis, []) =>
      (expandEllipsis ip ellipsis).map fun ip => .v6 (BitVec.ofNat 128 (ofBytes ip)) (String.ofList zone)
    | _ => none

/-- `netip.ParseAddr`. -/
def parseAddr (s : String) : Option Addr :=
  match s.toList.find? fun c => c = '.' ∨ c = ':' ∨ c = '%' with
  | some '.' => parseIPv4 s.toList
  | some ':' => parseIPv6 s.toList
  | _ => none

/-- The length of a prefix in its text: no sign and no leading zero. -/
def parseBits (cs : List Char) : Option ℕ :=
  if cs = [] ∨ 1 < cs.length ∧ cs.head? = some '0' then none
  else (cs.mapM digit?).map fun ds => ds.foldl (fun v d => v * 10 + d) 0

/-- `netip.ParsePrefix`. -/
def parsePrefix (s : String) : Option Prefix :=
  let bitsStr := s.toList.reverse.takeWhile (· ≠ '/') |>.reverse
  if bitsStr.length = s.toList.length then none else
  let addrStr := String.ofList (s.toList.take (s.toList.length - bitsStr.length - 1))
  (parseAddr addrStr).bind fun ip =>
    if ip.zone ≠ "" then none else
    (parseBits bitsStr).bind fun bits =>
      if ip.bitLen < bits then none else some ⟨ip, UInt8.ofNat (bits + 1)⟩

example : parseAddr "fe80::1%eth0" = some (.v6 0xfe800000000000000000000000000001 "eth0") := by decide

/-- The bytes of the groups of two hexadecimal digits. -/
def hexBytes : List Char → Option (List UInt8)
  | [] => some []
  | [_] => none
  | c :: d :: cs =>
    match hexDigit? c, hexDigit? d, hexBytes cs with
    | some hi, some lo, some bs => some (UInt8.ofNat (hi * 16 + lo) :: bs)
    | _, _, _ => none

/-- The bytes of groups of `digits` hexadecimal digits with the separator between them. -/
def parseMACGroups (sep : Char) (digits : ℕ) (cs : List Char) : Option HardwareAddr :=
  let groups := cs.splitOn sep
  if groups.all (·.length == digits) then
    (hexBytes groups.flatten).bind fun mac => if validMACLen mac.length then some mac else none
  else none

/-- `net.ParseMAC` -/
def parseMAC (s : String) : Option HardwareAddr :=
  let cs := s.toList
  if cs[2]? = some ':' then parseMACGroups ':' 2 cs
  else if cs[2]? = some '-' then parseMACGroups '-' 2 cs
  else if cs[4]? = some '.' then parseMACGroups '.' 4 cs
  else none

end AdGuardHome.Net
