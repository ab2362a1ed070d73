import AdGuardHome.Aghnet.Text

/-!
# Addresses with ports

`netip.AddrPort`, its text and the parsers of `netip` and `aghnet`.  The text of an address with a port is read back as
the same address and port.
-/

namespace AdGuardHome.Aghnet

open AdGuardHome.Lib AdGuardHome.Net

/-- `netip.AddrPort` -/
structure AddrPort where
  addr : Addr
  port : UInt16
deriving DecidableEq

/-- `netip.AddrPort{}` -/
def AddrPort.zero : AddrPort := ⟨.invalid, 0⟩

/-- `Addr.IsUnspecified` -/
def isUnspecified : Addr → Bool
  | .invalid => false
  | .v4 a => a == 0
  | .v6 a zone => a == 0 && zone == ""

/-- `AddrPort.String` -/
def AddrPort.string (p : AddrPort) : String :=
  match p.addr with
  | .invalid => "invalid AddrPort"
  | .v4 a => addrString (.v4 a) ++ ":" ++ toString p.port.toNat
  | .v6 a zone => "[" ++ addrString (.v6 a zone) ++ "]:" ++ toString p.port.toNat

/-- `strconv.ParseUint` with the base 10. -/
def parseUint (bitSize : ℕ) (cs : List Char) : Option ℕ :=
  if cs = [] then none else
  (cs.mapM digit?).bind fun ds =>
    let v := ds.foldl (fun v d => v * 10 + d) 0
    if v < 2 ^ bitSize then some v else none

/-- The characters before and after the last `c`. -/
def splitLast (c : Char) : List Char → Option (List Char × List Char)
  | [] => none
  | d :: cs =>
    match splitLast c cs with
    | some (before, after) => some (d :: before, after)
    | none => if d = c then some ([], cs) else none

/-- `splitAddrPort`: the address, the port, and whether the address is in brackets. -/
def splitAddrPort (cs : List Char) : Option (List Char × List Char × Bool) :=
  (splitLast ':' cs).bind fun (ip, port) =>
    if ip = [] ∨ port = [] then none
    else if ip.head? = some '[' then
      if ip.length < 2 ∨ ip.getLast? ≠ some ']' then none
      else some (ip.tail.dropLast, port, true)
    else some (ip, port, false)

/-- `netip.ParseAddrPort` -/
def parseAddrPort (s : String) : Option AddrPort :=
  (splitAddrPort s.toList).bind fun (ip, port, v6) =>
    (parseUint 16 port).bind fun port16 =>
      (parseAddr (String.ofList ip)).bind fun addr =>
        if v6 ∧ addr.is4 ∨ ¬ v6 ∧ addr.is6 then none else some ⟨addr, UInt16.ofNat port16⟩

/-- `aghnet.ParseAddrPort`.  `urlHost` is the `Host` of what `url.Parse` returns. -/
def parseAddrPortURL (urlHost : String → Option String) (s : String) (defaultPort : UInt16) : Option AddrPort :=
  let s :=
    match urlHost s with
    | some host => if host ≠ "" then host else s
    | none => s
  match parseAddrPort s with
  | some ipp => some ipp
  | none => (parseAddr s).map fun ip => ⟨ip, defaultPort⟩

/-! ## What is parsed -/

theorem isValid_of_parseAddrPort {s : String} {p : AddrPort} (h : parseAddrPort s = some p) :
    p.addr.isValid = true := by
  obtain ⟨⟨ip, port, v6⟩, _, h⟩ := Option.bind_eq_some_iff.1 h
  obtain ⟨port16, _, h⟩ := Option.bind_eq_some_iff.1 h
  obtain ⟨addr, haddr, h⟩ := Option.bind_eq_some_iff.1 h
  split at h
  · cases h
  · cases h
    exact isValid_of_parseAddr haddr

theorem isValid_of_parseAddrPortURL {urlHost : String → Option String} {s : String} {defaultPort : UInt16}
    {p : AddrPort} (h : parseAddrPortURL urlHost s defaultPort = some p) : p.addr.isValid = true := by
  simp only [parseAddrPortURL] at h
  generalize (match urlHost s with
    | some host => if host ≠ "" then host else s
    | none => s) = text at h
  cases hparse : parseAddrPort text with
  | some ipp =>
    rw [hparse] at h
    cases h
    exact isValid_of_parseAddrPort hparse
  | none =>
    rw [hparse] at h
    obtain ⟨ip, hip, rfl⟩ := Option.map_eq_some_iff.1 h
    exact isValid_of_parseAddr hip

/-! ## Round trip -/

theorem parseUint_toDigits {n bitSize : ℕ} (h : n < 2 ^ bitSize) : parseUint bitSize (Nat.toDigits 10 n) = some n := by
  obtain ⟨ds, hds, hn⟩ := mapM_digit? n
  simp only [parseUint]
  rw [if_neg Nat.toDigits_ne_nil, hds, Option.bind_some, hn, if_pos h]

theorem splitLast_notMem {c : Char} {cs : List Char} (h : c ∉ cs) : splitLast c cs = none := by
  induction cs with
  | nil => rfl
  | cons d cs ih =>
    rw [List.mem_cons, not_or] at h
    rw [splitLast, ih h.2]
    exact if_neg (Ne.symm h.1)

theorem splitLast_append {c : Char} (as : List Char) {bs : List Char} (h : c ∉ bs) :
    splitLast c (as ++ c :: bs) = some (as, bs) := by
  induction as with
  | nil =>
    rw [List.nil_append, splitLast, splitLast_notMem h]
    exact if_pos rfl
  | cons a as ih => rw [List.cons_append, splitLast, ih]

theorem addrString_ne_nil {a : Addr} (h : a.isValid = true) : (addrString a).toList ≠ [] := by
  intro hnil
  have hempty : addrString a = "" := String.toList_injective hnil
  have hparse := parseAddr_addrString h
  rw [hempty] at hparse
  cases hparse

/-- The text of a valid address with a port is read as the address and the port. -/
theorem parseAddrPort_string {p : AddrPort} (h : p.addr.isValid = true) : parseAddrPort p.string = some p := by
  obtain ⟨addr, port⟩ := p
  have hport : parseUint 16 (Nat.toDigits 10 port.toNat) = some port.toNat := parseUint_toDigits port.toNat_lt
  have hdigits : ':' ∉ Nat.toDigits 10 port.toNat := not_mem_toDigits (by decide) _
  have hne := addrString_ne_nil h
  have haddr := parseAddr_addrString h
  cases addr with
  | invalid => cases h
  | v4 a =>
    have hlist : (AddrPort.mk (.v4 a) port).string.toList
        = (addrString (.v4 a)).toList ++ ':' :: Nat.toDigits 10 port.toNat := by
      simp [AddrPort.string, String.toList_append]
    have hnot : '[' ∉ (addrString (.v4 a)).toList :=
      not_mem_addrString h rfl (by decide) (by decide) (by decide) (by decide)
    have hbracket : (addrString (.v4 a)).toList.head? ≠ some '[' := fun hhead => hnot (List.mem_of_head? hhead)
    have hsplit : splitAddrPort (AddrPort.mk (.v4 a) port).string.toList
        = some ((addrString (.v4 a)).toList, Nat.toDigits 10 port.toNat, false) := by
      rw [splitAddrPort, hlist, splitLast_append _ hdigits, Option.bind_some]
      simp only [hne, Nat.toDigits_ne_nil, or_self, if_false, if_neg hbracket]
    rw [parseAddrPort, hsplit, Option.bind_some]
    simp only [hport, Option.bind_some, String.ofList_toList, haddr]
    simp [Addr.is4, Addr.is6]
  | v6 a zone =>
    have hlist : (AddrPort.mk (.v6 a zone) port).string.toList
        = ('[' :: (addrString (.v6 a zone)).toList ++ [']']) ++ ':' :: Nat.toDigits 10 port.toNat := by
      simp [AddrPort.string, String.toList_append]
    have hsplit : splitAddrPort (AddrPort.mk (.v6 a zone) port).string.toList
        = some ((addrString (.v6 a zone)).toList, Nat.toDigits 10 port.toNat, true) := by
      have hlast : ('[' :: (addrString (.v6 a zone)).toList ++ [']']).getLast? = some ']' := List.getLast?_concat
      rw [splitAddrPort, hlist, splitLast_append _ hdigits, Option.bind_some]
      simp only [hlast]
      simp [Nat.toDigits_ne_nil]
    rw [parseAddrPort, hsplit, Option.bind_some]
    simp only [hport, Option.bind_some, String.ofList_toList, haddr]
    simp [Addr.is4, Addr.is6]

end AdGuardHome.Aghnet
