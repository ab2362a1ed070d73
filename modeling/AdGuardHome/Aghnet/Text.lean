import AdGuardHome.Aghnet.ParseIP

/-!
# Texts of addresses, prefixes and hardware addresses

`Addr.String`, `Prefix.String` and `HardwareAddr.String`.  The text of a valid address is read back as the address, with
its zone, and that of a hardware address by `net.ParseMAC`; but the text of eight bytes is that of an IPv6 address, too.
-/

namespace AdGuardHome.Aghnet

open AdGuardHome.Lib AdGuardHome.Net

/-! ## Texts -/

/-- The decimal bytes with dots between them. -/
def dotted (bs : List UInt8) : String := ".".intercalate (bs.map fun b => toString b.toNat)

/-- `Addr.Is4In6`, of the bits. -/
def is4In6 (a : BitVec 128) : Bool := a >>> 32 == 0xffff

/-- `Addr.String` -/
def addrString : Addr → String
  | .invalid => "invalid IP"
  | .v4 a => dotted (asSlice (.v4 a))
  | .v6 a zone =>
    (if is4In6 a then "::ffff:" ++ dotted (asSlice (.v4 (a.setWidth 32))) else IP.string6 (asSlice (.v6 a zone))) ++
      if zone = "" then "" else "%" ++ zone

/-- `Prefix.String` -/
def prefixString (p : Prefix) : String :=
  if p.isValid then addrString p.addr ++ "/" ++ toString p.bits else "invalid Prefix"

/-- The two digits of a byte. -/
def byteChars (b : UInt8) : List Char := [(b.toNat / 16).digitChar, (b.toNat % 16).digitChar]

/-- `HardwareAddr.String` -/
def macString (mac : HardwareAddr) : String := String.ofList ([':'].intercalate (mac.map byteChars))

example : addrString (.v6 0xffffc0a80001 "eth0") = "::ffff:192.168.0.1%eth0" := by decide

/-! ## Numbers and bytes -/

theorem ofBytes_append_list (as bs : List ℕ) : ofBytes (as ++ bs) = ofBytes as * 256 ^ bs.length + ofBytes bs := by
  induction bs using List.reverseRecOn with
  | nil => simp [ofBytes]
  | append_singleton bs b ih =>
    rw [← List.append_assoc, ofBytes_append, ih, ofBytes_append, List.length_append, List.length_singleton, pow_succ,
      Nat.add_mul, Nat.mul_assoc, Nat.add_assoc]

/-- The bytes of a number, the lowest last, are the number. -/
theorem ofBytes_div (n m : ℕ) :
    ofBytes (((List.range n).reverse.map fun i => UInt8.ofNat (m / 256 ^ i)).map UInt8.toNat) = m % 256 ^ n := by
  induction n generalizing m with
  | zero => simp [ofBytes, Nat.mod_one]
  | succ n ih =>
    have hdiv : ∀ i, m / 256 ^ (i + 1) = m / 256 / 256 ^ i := by
      intro i
      rw [pow_succ', Nat.div_div_eq_div_mul]
    rw [List.range_succ_eq_map, List.reverse_cons, List.map_append, ← List.map_reverse, List.map_map]
    simp only [Function.comp_def, Nat.succ_eq_add_one, hdiv, List.map_append, List.map_singleton, pow_zero, Nat.div_one]
    rw [ofBytes_append, ih, pow_succ', Nat.mod_mul, Nat.add_comm, Nat.mul_comm]
    simp

theorem ofBytes_asSlice_v4 (a : BitVec 32) : ofBytes ((asSlice (.v4 a)).map UInt8.toNat) = a.toNat := by
  rw [asSlice_v4, ofBytes_div]
  exact Nat.mod_eq_of_lt a.isLt

theorem ofBytes_asSlice_v6 (a : BitVec 128) (zone : String) :
    ofBytes ((asSlice (.v6 a zone)).map UInt8.toNat) = a.toNat := by
  rw [asSlice_v6, ofBytes_div]
  exact Nat.mod_eq_of_lt a.isLt

/-! ## Addresses -/

theorem toList_dotted (bs : List UInt8) :
    (dotted bs).toList = ['.'].intercalate (bs.map fun b => Nat.toDigits 10 b.toNat) := toList_intercalate_dot bs

theorem not_mem_dotted {c : Char} (hdigit : c.isDigit = false) (hdot : c ≠ '.') (bs : List UInt8) :
    c ∉ (dotted bs).toList := by
  rw [toList_dotted]
  intro h
  rcases mem_intercalate h with h | ⟨l, hl, h⟩
  · exact hdot (List.mem_singleton.1 h)
  · obtain ⟨b, -, rfl⟩ := List.mem_map.1 hl
    exact not_mem_toDigits hdigit _ h

theorem not_mem_string6 {c : Char} (hhex : (hexDigit? c).isSome = false) (hcolon : c ≠ ':') (ip : IP) :
    c ∉ (IP.string6 ip).toList := by
  rw [toList_string6]
  split
  · exact not_mem_joined hhex hcolon _
  · simp [not_mem_joined hhex hcolon, hcolon]

/-- The text of an address and a zone is read as the address in the zone. -/
theorem parseIPv6_zone {cs zone : List Char} {a : BitVec 128} (hcs : '%' ∉ cs) (hzone : zone ≠ [])
    (h : parseIPv6 cs = some (.v6 a "")) : parseIPv6 (cs ++ '%' :: zone) = some (.v6 a (String.ofList zone)) := by
  have hne : ∀ c ∈ cs, (decide (c ≠ '%')) = true := fun c hc => decide_eq_true fun heq => hcs (heq ▸ hc)
  have htake : (cs ++ '%' :: zone).takeWhile (fun c => decide (c ≠ '%')) = cs := by
    rw [List.takeWhile_append_of_pos hne]
    simp
  have htake' : cs.takeWhile (fun c => decide (c ≠ '%')) = cs := List.takeWhile_eq_self_iff.2 hne
  have hdrop : (cs ++ '%' :: zone).drop (cs.length + 1) = zone := by simp
  unfold parseIPv6 at h ⊢
  simp only [htake, htake', hdrop] at h ⊢
  rw [if_neg (by simp)] at h
  rw [if_neg (by simp [hzone])]
  split at h
  · rename_i hcolons
    rw [if_pos hcolons]
    obtain ⟨rfl, -⟩ := Addr.v6.inj (Option.some.inj h)
    rfl
  · rename_i hcolons
    rw [if_neg hcolons]
    split at h
    · rename_i ip ellipsis hfields
      obtain ⟨bs, hbs, heq⟩ := Option.map_eq_some_iff.1 h
      obtain ⟨rfl, -⟩ := Addr.v6.inj heq
      rw [hbs]
      rfl
    · cases h

/-- Decimal bytes after two bytes and an ellipsis are the last four bytes of an address. -/
theorem parseIPv6Fields_dotted {bs : List UInt8} (hbs : bs.length = 4) (fuel : ℕ) :
    parseIPv6Fields (fuel + 1) [255, 255] (some 0) (dotted bs).toList =
      some ([255, 255] ++ bs.map UInt8.toNat, some 0, []) := by
  obtain ⟨b, b', bs', rfl⟩ : ∃ b b' bs', bs = b :: b' :: bs' := by
    match bs, hbs with
    | b :: b' :: bs', _ => exact ⟨b, b', bs', rfl⟩
  have hdec : ∀ c ∈ Nat.toDigits 10 b.toNat, (hexDigit? c).isSome = true := by
    intro c hc
    have hdigit := Nat.isDigit_of_mem_toDigits (by decide) (by decide) hc
    simp only [Char.isDigit, Bool.and_eq_true, decide_eq_true_eq] at hdigit
    have hrange : '0' ≤ c ∧ c ≤ '9' := hdigit
    rw [hexDigit?, if_pos hrange]
    rfl
  obtain ⟨rest, hrest⟩ : ∃ rest, (dotted (b :: b' :: bs')).toList = Nat.toDigits 10 b.toNat ++ '.' :: rest := by
    refine ⟨['.'].intercalate ((b' :: bs').map fun b => Nat.toDigits 10 b.toNat), ?_⟩
    rw [toList_dotted, List.map_cons, List.map_cons, intercalate_cons]
    rfl
  have htake : (dotted (b :: b' :: bs')).toList.takeWhile (fun c => (hexDigit? c).isSome) = Nat.toDigits 10 b.toNat := by
    rw [hrest, List.takeWhile_append_of_pos hdec]
    simp [hexDigit?]
  have hdrop : (dotted (b :: b' :: bs')).toList.drop (Nat.toDigits 10 b.toNat).length = '.' :: rest := by
    rw [hrest, List.drop_left]
  have hlen : (Nat.toDigits 10 b.toNat).length ≤ 4 := by
    have hb := b.toNat_lt
    exact (Nat.length_toDigits_le_iff (by decide) (by decide)).2 (by omega)
  have hne : ¬ (Nat.toDigits 10 b.toNat = [] ∨ 4 < (Nat.toDigits 10 b.toNat).length) := by
    rintro (h | h)
    · exact Nat.toDigits_ne_nil h
    · omega
  rw [parseIPv6Fields]
  simp only [htake, hdrop]
  rw [if_neg hne, if_pos (by rfl), if_neg (by simp), toList_dotted, parseIPv4Fields_dotted hbs]
  rfl

/-- The text of an IPv4-mapped address. -/
theorem parseIPv6_mapped {bs : List UInt8} (hbs : bs.length = 4) :
    parseIPv6 ("::ffff:" ++ dotted bs).toList =
      some (.v6 (BitVec.ofNat 128 (0xffff * 2 ^ 32 + ofBytes (bs.map UInt8.toNat))) "") := by
  have hzone : '%' ∉ ("::ffff:" ++ dotted bs).toList := by
    rw [String.toList_append, List.mem_append, not_or]
    exact ⟨by decide, not_mem_dotted (by decide) (by decide) bs⟩
  have htext : ("::ffff:" ++ dotted bs).toList = ':' :: ':' :: (hexChars 0xffff ++ ':' :: (dotted bs).toList) := by
    rw [String.toList_append]
    rfl
  obtain ⟨c, cs, hcs, hc⟩ : ∃ c cs, (dotted bs).toList = c :: cs ∧ c ≠ ':' := by
    have hnil : (dotted bs).toList ≠ [] := by
      intro h
      have hfields := parseIPv4Fields_dotted hbs
      rw [← toList_dotted, h] at hfields
      cases hfields
    obtain ⟨c, cs, hcs⟩ := List.exists_cons_of_ne_nil hnil
    refine ⟨c, cs, hcs, fun hc => not_mem_dotted (c := ':') (by decide) (by decide) bs ?_⟩
    rw [hcs, hc]
    exact List.mem_cons_self
  have hfields : parseIPv6Fields 8 [] (some 0) (hexChars 0xffff ++ ':' :: (dotted bs).toList) =
      some ([255, 255] ++ bs.map UInt8.toNat, some 0, []) := by
    rw [parseIPv6Fields_group (by decide) (by simp), hcs]
    simp only [ne_eq, not_true_eq_false, if_false, hc]
    rw [← hcs, ← parseIPv6Fields_dotted hbs 6]
    rfl
  have hne : ("::ffff:" ++ dotted bs).toList ≠ [':', ':'] := by
    rw [htext]
    intro h
    cases h
  rw [parseIPv6_fields hzone hne (.inl ⟨htext, rfl⟩) hfields]
  have hexpand : expandEllipsis ([255, 255] ++ bs.map UInt8.toNat) (some 0) =
      some (List.replicate 10 0 ++ [255, 255] ++ bs.map UInt8.toNat) := by
    simp [expandEllipsis, hbs]
  have hprefix : ofBytes (List.replicate 10 0 ++ [255, 255]) = 0xffff := by decide
  rw [hexpand, Option.map_some, ofBytes_append_list, hprefix, List.length_map, hbs]
  norm_num

/-- The first of the characters that tell what kind of an address the text of sixteen bytes is. -/
theorem find?_string6 {ip : IP} (h : ip.length = 16) :
    (IP.string6 ip).toList.find? (fun c => c = '.' ∨ c = ':' ∨ c = '%') = some ':' := by
  have hgs : (IP.groups ip).length = 8 := by rw [length_groups, h]
  rw [toList_string6]
  split
  · match IP.groups ip, hgs with
    | g :: g' :: gs, _ =>
      rw [joined_cons]
      exact find?_joined rfl
  · match (IP.groups ip).take (IP.zeroRun (IP.groups ip)).1 with
    | [] => rfl
    | [g] =>
      rw [joined_singleton]
      exact find?_joined rfl
    | g :: g' :: gs =>
      rw [joined_cons, List.append_assoc]
      exact find?_joined rfl

/-- The text of a valid address is read as the address. -/
theorem parseAddr_addrString {a : Addr} (h : a.isValid = true) : parseAddr (addrString a) = some a := by
  cases a with
  | invalid => cases h
  | v4 a =>
    have hlen : (asSlice (.v4 a)).length = 4 := rfl
    rw [addrString, dotted, parseAddr_dotted hlen, ofBytes_asSlice_v4, BitVec.ofNat_toNat, BitVec.setWidth_eq]
  | v6 a zone =>
    -- the text without the zone
    obtain ⟨text, hcolon, hpercent, hparse, htext⟩ : ∃ text : String,
        text.toList.find? (fun c => c = '.' ∨ c = ':' ∨ c = '%') = some ':' ∧ '%' ∉ text.toList ∧
          parseIPv6 text.toList = some (.v6 a "") ∧
            addrString (.v6 a zone) = text ++ if zone = "" then "" else "%" ++ zone := by
      by_cases hmapped : is4In6 a = true
      · have hlen : (asSlice (.v4 (a.setWidth 32))).length = 4 := rfl
        refine ⟨"::ffff:" ++ dotted (asSlice (.v4 (a.setWidth 32))), ?_, ?_, ?_, by rw [addrString, if_pos hmapped]⟩
        · rw [String.toList_append]
          rfl
        · rw [String.toList_append, List.mem_append, not_or]
          exact ⟨by decide, not_mem_dotted (by decide) (by decide) _⟩
        · have hbits : a.toNat / 2 ^ 32 = 0xffff := by
            have hshift := congrArg BitVec.toNat (eq_of_beq hmapped)
            simpa [BitVec.toNat_ushiftRight, Nat.shiftRight_eq_div_pow] using hshift
          have hnum : 0xffff * 2 ^ 32 + (a.setWidth 32).toNat = a.toNat := by
            rw [BitVec.toNat_setWidth]
            omega
          rw [parseIPv6_mapped hlen, ofBytes_asSlice_v4, hnum, BitVec.ofNat_toNat, BitVec.setWidth_eq]
      · have hlen : (asSlice (.v6 a zone)).length = 16 := rfl
        have hparse := parseAddr_string6 hlen
        rw [ofBytes_asSlice_v6, BitVec.ofNat_toNat, BitVec.setWidth_eq] at hparse
        have hfirst := find?_string6 hlen
        rw [parseAddr, hfirst] at hparse
        exact ⟨_, hfirst, not_mem_string6 (by decide) (by decide) _, hparse, by rw [addrString, if_neg hmapped]⟩
    rw [htext]
    split
    · rename_i hzone
      rw [hzone, String.append_empty, parseAddr, hcolon]
      exact hparse
    · rename_i hzone
      have hlist : (text ++ ("%" ++ zone)).toList = text.toList ++ '%' :: zone.toList := by
        rw [String.toList_append, String.toList_append]
        rfl
      have hnil : zone.toList ≠ [] := fun hnil => hzone (String.toList_injective hnil)
      rw [parseAddr, hlist, List.find?_append, hcolon, Option.some_or]
      simp only
      rw [parseIPv6_zone hpercent hnil hparse, String.ofList_toList]

/-! ## The characters of an address -/

/-- A character of a text that is read as an address, before its zone. -/
def addrChar (c : Char) : Bool := (hexDigit? c).isSome || c == ':' || c == '.'

theorem addrChar_of_digit? {c : Char} {d : ℕ} (h : digit? c = some d) : addrChar c = true := by
  unfold digit? at h
  split at h
  · rename_i hrange
    rw [addrChar, hexDigit?, if_pos hrange]
    rfl
  · cases h

theorem mapM_some_mem {α β : Type} {f : α → Option β} : ∀ {as : List α} {bs : List β}, as.mapM f = some bs →
    ∀ a ∈ as, ∃ b, f a = some b
  | [], _, _, a, ha => by cases ha
  | a :: as, bs, h, a', ha' => by
    rw [List.mapM_cons] at h
    obtain ⟨b, hb, h⟩ := Option.bind_eq_some_iff.1 h
    obtain ⟨bs', hbs', -⟩ := Option.bind_eq_some_iff.1 h
    rcases List.mem_cons.1 ha' with rfl | ha'
    · exact ⟨b, hb⟩
    · exact mapM_some_mem hbs' a' ha'

theorem parseOctet_chars {cs : List Char} {n : ℕ} (h : parseOctet cs = some n) : ∀ c ∈ cs, addrChar c = true := by
  unfold parseOctet at h
  split at h
  · cases h
  · obtain ⟨ds, hds, -⟩ := Option.bind_eq_some_iff.1 h
    intro c hc
    obtain ⟨d, hd⟩ := mapM_some_mem hds c hc
    exact addrChar_of_digit? hd

theorem parseIPv4Fields_chars {cs : List Char} {bs : List ℕ} (h : parseIPv4Fields cs = some bs) :
    ∀ c ∈ cs, addrChar c = true := by
  unfold parseIPv4Fields at h
  simp only at h
  split at h
  · cases h
  · intro c hc
    have hjoin : ['.'].intercalate (cs.splitOn '.') = cs := List.intercalate_splitOn '.'
    rw [← hjoin] at hc
    rcases mem_intercalate hc with hc | ⟨l, hl, hc⟩
    · rw [List.mem_singleton.1 hc]
      rfl
    · obtain ⟨n, hn⟩ := mapM_some_mem h l hl
      exact parseOctet_chars hn c hc

theorem parseIPv6Fields_chars {fuel : ℕ} {ip : List ℕ} {ellipsis : Option ℕ} {s : List Char} {ip' : List ℕ}
    {ellipsis' : Option ℕ} (h : parseIPv6Fields fuel ip ellipsis s = some (ip', ellipsis', [])) :
    ∀ c ∈ s, addrChar c = true := by
  induction fuel generalizing ip ellipsis s with
  | zero =>
    rw [parseIPv6Fields] at h
    cases h
    simp
  | succ fuel ih =>
    have hsplit : s = s.takeWhile (fun c => (hexDigit? c).isSome) ++
        s.drop (s.takeWhile (fun c => (hexDigit? c).isSome)).length :=
      (List.prefix_iff_eq_append.1 (List.takeWhile_prefix _)).symm
    have hdigits : ∀ c ∈ s.takeWhile (fun c => (hexDigit? c).isSome), addrChar c = true := by
      intro c hc
      have hhex : (hexDigit? c).isSome = true := List.mem_takeWhile_imp (p := fun c => (hexDigit? c).isSome) hc
      rw [addrChar, hhex]
      rfl
    rw [parseIPv6Fields] at h
    simp only at h
    split at h
    · cases h
    split at h
    · split at h
      · cases h
      · obtain ⟨bs, hbs, -⟩ := Option.map_eq_some_iff.1 h
        exact parseIPv4Fields_chars hbs
    · suffices hrest : ∀ c ∈ s.drop (s.takeWhile (fun c => (hexDigit? c).isSome)).length, addrChar c = true by
        intro c hc
        rw [hsplit] at hc
        rcases List.mem_append.1 hc with hc | hc
        · exact hdigits c hc
        · exact hrest c hc
      split at h
      · rename_i hnil
        simp [hnil]
      · cases h
      · rename_i c₀ c₁ rest hcons
        rw [hcons]
        split at h
        · cases h
        rename_i hc₀
        rw [not_not] at hc₀
        rw [hc₀]
        split at h
        · rename_i hc₁
          rw [hc₁]
          split at h
          · cases h
          split at h
          · rename_i hnil
            rw [hnil]
            simp only [List.forall_mem_cons]
            exact ⟨rfl, rfl, by simp⟩
          · have htail := ih h
            intro c hc
            rcases List.mem_cons.1 hc with rfl | hc
            · rfl
            · rcases List.mem_cons.1 hc with rfl | hc
              · rfl
              · exact htail c hc
        · have htail := ih h
          intro c hc
          rcases List.mem_cons.1 hc with rfl | hc
          · rfl
          · exact htail c hc

/-- A text without a zone that is read as an address has hexadecimal digits, colons and dots only. -/
theorem parseAddr_chars {s : String} {a : Addr} (h : parseAddr s = some a) (hzone : '%' ∉ s.toList) :
    ∀ c ∈ s.toList, addrChar c = true := by
  unfold parseAddr at h
  split at h
  · obtain ⟨bs, hbs, -⟩ := Option.map_eq_some_iff.1 h
    exact parseIPv4Fields_chars hbs
  · have htake : s.toList.takeWhile (fun c => decide (c ≠ '%')) = s.toList :=
      List.takeWhile_eq_self_iff.2 fun c hc => decide_eq_true fun heq => hzone (heq ▸ hc)
    unfold parseIPv6 at h
    simp only [htake] at h
    split at h
    · cases h
    split at h
    · rename_i hcolons
      rw [hcolons]
      simp [addrChar]
    · split at h
      · rename_i ip ellipsis hfields
        have hchars := parseIPv6Fields_chars hfields
        intro c hc
        split at hchars
        · rename_i s' heq
          rw [heq] at hc
          rcases List.mem_cons.1 hc with rfl | hc
          · rfl
          · rcases List.mem_cons.1 hc with rfl | hc
            · rfl
            · exact hchars c hc
        · exact hchars c hc
      · cases h
  · cases h

theorem isValid_of_parseAddr {s : String} {a : Addr} (h : parseAddr s = some a) : a.isValid = true := by
  unfold parseAddr at h
  split at h
  · obtain ⟨bs, -, rfl⟩ := Option.map_eq_some_iff.1 h
    rfl
  · unfold parseIPv6 at h
    simp only at h
    split at h
    · cases h
    split at h
    · cases h
      rfl
    · split at h
      · obtain ⟨bs, -, rfl⟩ := Option.map_eq_some_iff.1 h
        rfl
      · cases h
  · cases h

/-! ## Prefixes -/

/-- What `ParsePrefix` can return: an address without a zone and at most as many bits as it has. -/
structure ParsedPrefix (p : Prefix) : Prop where
  addr : p.addr.isValid = true
  zone : p.addr.zone = ""
  bits : ∃ k, k ≤ p.addr.bitLen ∧ p.bitsPlusOne = UInt8.ofNat (k + 1)

theorem parsedPrefix_of_parsePrefix {s : String} {p : Prefix} (h : parsePrefix s = some p) : ParsedPrefix p := by
  unfold parsePrefix at h
  simp only at h
  split at h
  · cases h
  · obtain ⟨a, ha, h⟩ := Option.bind_eq_some_iff.1 h
    split at h
    · cases h
    rename_i hzone
    obtain ⟨k, -, h⟩ := Option.bind_eq_some_iff.1 h
    split at h
    · cases h
    rename_i hk
    cases h
    exact ⟨isValid_of_parseAddr ha, not_not.1 hzone, k, not_lt.1 hk, rfl⟩

theorem not_mem_addrString {a : Addr} (h : a.isValid = true) (hzone : a.zone = "") {c : Char}
    (hhex : (hexDigit? c).isSome = false) (hdigit : c.isDigit = false) (hcolon : c ≠ ':') (hdot : c ≠ '.')  :
    c ∉ (addrString a).toList := by
  cases a with
  | invalid => cases h
  | v4 a => exact not_mem_dotted hdigit hdot _
  | v6 a zone =>
    have hzone : zone = "" := hzone
    rw [addrString, if_pos hzone, String.append_empty]
    split
    · rw [String.toList_append, List.mem_append, not_or]
      refine ⟨fun hmem => ?_, not_mem_dotted hdigit hdot _⟩
      have hall : ("::ffff:".toList.all fun c => (hexDigit? c).isSome || c == ':') = true := by decide
      rcases Bool.or_eq_true_iff.1 (List.all_eq_true.1 hall c hmem) with hc | hc
      · rw [hc] at hhex
        cases hhex
      · exact hcolon (eq_of_beq hc)
    · exact not_mem_string6 hhex hcolon _

theorem bits_of_bitsPlusOne {p : Prefix} {k : ℕ} (hk : k ≤ p.addr.bitLen) (h : p.bitsPlusOne = UInt8.ofNat (k + 1)) :
    p.isValid = true ∧ p.bits = k := by
  have hlen : p.addr.bitLen ≤ 128 := by
    cases p.addr with
    | invalid => exact Nat.zero_le _
    | v4 a => exact (by decide : 32 ≤ 128)
    | v6 a zone => exact le_rfl
  have hnat : p.bitsPlusOne.toNat = k + 1 := by
    rw [h, UInt8.toNat_ofNat']
    omega
  constructor
  · rw [Prefix.isValid, bne_iff_ne]
    intro h0
    rw [h0] at hnat
    cases hnat
  · rw [Prefix.bits, hnat]
    push_cast
    omega

theorem toList_prefixString {p : Prefix} {k : ℕ} (hk : k ≤ p.addr.bitLen) (h : p.bitsPlusOne = UInt8.ofNat (k + 1)) :
    (prefixString p).toList = (addrString p.addr).toList ++ '/' :: Nat.toDigits 10 k := by
  obtain ⟨hvalid, hbits⟩ := bits_of_bitsPlusOne hk h
  rw [prefixString, if_pos hvalid, hbits, String.toList_append, String.toList_append, List.append_assoc]
  congr 1
  show '/' :: (toString k).toList = _
  rw [Nat.toString_eq_ofList_toDigits]
  simp

/-- The text of a prefix is not that of an address. -/
theorem parseAddr_prefixString {p : Prefix} (h : ParsedPrefix p) : parseAddr (prefixString p) = none := by
  obtain ⟨k, hk, hbits⟩ := h.bits
  have htext := toList_prefixString hk hbits
  cases hparse : parseAddr (prefixString p) with
  | none => rfl
  | some a =>
    have hzone : '%' ∉ (prefixString p).toList := by
      rw [htext, List.mem_append, not_or, List.mem_cons, not_or]
      exact ⟨not_mem_addrString h.addr h.zone (by decide) (by decide) (by decide) (by decide), by decide,
        not_mem_toDigits (by decide) k⟩
    have hslash := parseAddr_chars hparse hzone '/' (by rw [htext]; simp)
    exact absurd hslash (by decide)

/-- The text of a prefix is read as the prefix. -/
theorem parsePrefix_prefixString {p : Prefix} (h : ParsedPrefix p) : parsePrefix (prefixString p) = some p := by
  obtain ⟨k, hk, hbits⟩ := h.bits
  have htext := toList_prefixString hk hbits
  have hslash : ∀ c ∈ (Nat.toDigits 10 k).reverse, (decide (c ≠ '/')) = true := by
    intro c hc
    refine decide_eq_true ?_
    rintro rfl
    exact not_mem_toDigits (by decide) k (List.mem_reverse.1 hc)
  have hbitsStr : ((prefixString p).toList.reverse.takeWhile fun c => decide (c ≠ '/')).reverse = Nat.toDigits 10 k := by
    rw [htext, List.reverse_append, List.reverse_cons, List.append_assoc, List.takeWhile_append_of_pos hslash]
    simp
  have hlen : (prefixString p).toList.length = (addrString p.addr).toList.length + 1 + (Nat.toDigits 10 k).length := by
    rw [htext, List.length_append, List.length_cons]
    omega
  have hbitsParse : parseBits (Nat.toDigits 10 k) = some k := by
    obtain ⟨ds, hds, hn⟩ := mapM_digit? k
    have hne : ¬ (Nat.toDigits 10 k = [] ∨ 1 < (Nat.toDigits 10 k).length ∧ (Nat.toDigits 10 k).head? = some '0') := by
      rintro (hnil | hzero)
      · exact Nat.toDigits_ne_nil hnil
      · exact toDigits_no_leading_zero k hzero
    rw [parseBits, if_neg hne, hds, Option.map_some, hn]
  unfold parsePrefix
  simp only [hbitsStr, hlen]
  rw [if_neg (by omega)]
  have htake : (prefixString p).toList.take ((addrString p.addr).toList.length + 1 + (Nat.toDigits 10 k).length
      - (Nat.toDigits 10 k).length - 1) = (addrString p.addr).toList := by
    rw [htext]
    have hsub : (addrString p.addr).toList.length + 1 + (Nat.toDigits 10 k).length - (Nat.toDigits 10 k).length - 1 =
        (addrString p.addr).toList.length := by omega
    rw [hsub, List.take_left]
  rw [htake, String.ofList_toList, parseAddr_addrString h.addr, Option.bind_some, if_neg (not_not.2 h.zone), hbitsParse,
    Option.bind_some, if_neg (not_lt.2 hk), ← hbits]

/-! ## Hardware addresses -/

/-- The bytes with colons between them. -/
def macChars (mac : HardwareAddr) : List Char := [':'].intercalate (mac.map byteChars)

theorem macChars_cons (b b' : UInt8) (mac : HardwareAddr) :
    macChars (b :: b' :: mac) = byteChars b ++ ':' :: macChars (b' :: mac) := by
  simp [macChars]

theorem macChars_singleton (b : UInt8) : macChars [b] = byteChars b := by
  simp [macChars]

theorem hexDigit?_hi (b : UInt8) : hexDigit? (b.toNat / 16).digitChar = some (b.toNat / 16) := by
  have hb := b.toNat_lt
  exact hexDigit?_digitChar (by omega)

theorem hexDigit?_lo (b : UInt8) : hexDigit? (b.toNat % 16).digitChar = some (b.toNat % 16) :=
  hexDigit?_digitChar (Nat.mod_lt _ (by decide))

theorem mem_byteChars {b : UInt8} {c : Char} (h : c ∈ byteChars b) : (hexDigit? c).isSome = true := by
  simp only [byteChars, List.mem_cons, List.not_mem_nil, or_false] at h
  rcases h with rfl | rfl
  · rw [hexDigit?_hi]
    rfl
  · rw [hexDigit?_lo]
    rfl

theorem not_mem_macChars {c : Char} (hhex : (hexDigit? c).isSome = false) (hcolon : c ≠ ':') (mac : HardwareAddr) :
    c ∉ macChars mac := by
  intro h
  rcases mem_intercalate h with h | ⟨l, hl, h⟩
  · exact hcolon (List.mem_singleton.1 h)
  · obtain ⟨b, -, rfl⟩ := List.mem_map.1 hl
    rw [mem_byteChars h] at hhex
    cases hhex

theorem macChars_starts (b : UInt8) (mac : HardwareAddr) :
    ∃ c cs, macChars (b :: mac) = c :: cs ∧ c ≠ ':' ∧ c ≠ '.' ∧ c ≠ '%' := by
  obtain ⟨cs, hcs⟩ : ∃ cs, macChars (b :: mac) = (b.toNat / 16).digitChar :: cs := by
    cases mac with
    | nil => exact ⟨_, macChars_singleton b⟩
    | cons b' mac => exact ⟨_, macChars_cons b b' mac⟩
  have hhex : (hexDigit? (b.toNat / 16).digitChar).isSome = true := by
    rw [hexDigit?_hi]
    rfl
  refine ⟨_, cs, hcs, ?_, ?_, ?_⟩ <;> intro h <;> rw [h] at hhex <;> cases hhex

theorem hexBytes_flatten (mac : HardwareAddr) : hexBytes (mac.map byteChars).flatten = some mac := by
  induction mac with
  | nil => rfl
  | cons b mac ih =>
    have hsum : b.toNat / 16 * 16 + b.toNat % 16 = b.toNat := by omega
    rw [List.map_cons, List.flatten_cons, byteChars, List.cons_append, List.cons_append, List.nil_append, hexBytes,
      hexDigit?_hi, hexDigit?_lo, ih]
    simp only [hsum, UInt8.ofNat_toNat]

theorem exists_cons_cons_of_validMACLen {mac : HardwareAddr} (h : validMACLen mac.length = true) :
    ∃ b b' mac', mac = b :: b' :: mac' := by
  rcases mac with _ | ⟨b, _ | ⟨b', mac'⟩⟩
  · cases h
  · cases h
  · exact ⟨b, b', mac', rfl⟩

/-- The text of a hardware address is read as the address. -/
theorem parseMAC_macString {mac : HardwareAddr} (h : validMACLen mac.length = true) :
    parseMAC (macString mac) = some mac := by
  obtain ⟨b, b', mac', rfl⟩ := exists_cons_cons_of_validMACLen h
  have hcolon : (macString (b :: b' :: mac')).toList[2]? = some ':' := by
    show (String.ofList (macChars _)).toList[2]? = _
    rw [String.toList_ofList, macChars_cons]
    rfl
  have hsplit : (macString (b :: b' :: mac')).toList.splitOn ':' = (b :: b' :: mac').map byteChars := by
    rw [macString, String.toList_ofList]
    apply List.splitOn_intercalate
    · intro l hl hmem
      obtain ⟨b, -, rfl⟩ := List.mem_map.1 hl
      exact absurd (mem_byteChars hmem) (by decide)
    · simp
  have hall : ((b :: b' :: mac').map byteChars).all (·.length == 2) = true := by
    rw [List.all_map, List.all_eq_true]
    exact fun _ _ => rfl
  unfold parseMAC
  simp only [hcolon, if_true]
  unfold parseMACGroups
  simp only [hsplit, hall, if_true, hexBytes_flatten, Option.bind_some, h]

/-- A text without a slash is not that of a prefix. -/
theorem parsePrefix_of_no_slash {s : String} (h : '/' ∉ s.toList) : parsePrefix s = none := by
  have hslash : ∀ c ∈ s.toList.reverse, (decide (c ≠ '/')) = true := by
    intro c hc
    refine decide_eq_true ?_
    rintro rfl
    exact h (List.mem_reverse.1 hc)
  have htake : (s.toList.reverse.takeWhile fun c => decide (c ≠ '/')).reverse = s.toList := by
    rw [List.takeWhile_eq_self_iff.2 hslash, List.reverse_reverse]
  unfold parsePrefix
  show (if ((s.toList.reverse.takeWhile fun c => decide (c ≠ '/')).reverse).length = s.toList.length
    then none else _) = none
  rw [htake, if_pos rfl]

theorem parsePrefix_macString (mac : HardwareAddr) : parsePrefix (macString mac) = none := by
  apply parsePrefix_of_no_slash
  rw [macString, String.toList_ofList]
  exact not_mem_macChars (by decide) (by decide) mac

/-- The bytes are read as the groups of an address. -/
theorem parseIPv6Fields_macChars {mac : HardwareAddr} (h : mac ≠ []) (fuel : ℕ) (ip : List ℕ) :
    parseIPv6Fields fuel ip none (macChars mac) =
      some (ip ++ (mac.take fuel).flatMap fun b => [0, b.toNat], none, macChars (mac.drop fuel)) := by
  induction fuel generalizing mac ip with
  | zero => simp [parseIPv6Fields]
  | succ fuel ih =>
    obtain ⟨b, mac, rfl⟩ := List.exists_cons_of_ne_nil h
    have hb := b.toNat_lt
    have hvalue : ((byteChars b).filterMap hexDigit?).foldl (fun v d => v * 16 + d) 0 = b.toNat := by
      simp [byteChars, hexDigit?_hi, hexDigit?_lo]
      omega
    have hbyte : [b.toNat / 256, b.toNat % 256] = [0, b.toNat] := by
      rw [Nat.div_eq_of_lt hb, Nat.mod_eq_of_lt hb]
    cases mac with
    | nil =>
      have hnil : ∀ c ∈ ([] : List Char).head?, c = ':' := by simp
      have hstep := @parseIPv6Fields_digits b.toNat ip none fuel (byteChars b) (fun c hc => mem_byteChars hc)
        (by simp [byteChars]) (by simp [byteChars]) hvalue [] hnil
      rw [List.append_nil, hbyte] at hstep
      rw [macChars_singleton, hstep]
      simp [macChars]
    | cons b' mac =>
      obtain ⟨c, cs, hcs, hc, -⟩ := macChars_starts b' mac
      rw [macChars_cons, parseIPv6Fields_digits (fun c hc => mem_byteChars hc) (by simp [byteChars])
        (by simp [byteChars]) hvalue (by simp), hcs]
      simp only [ne_eq, not_true_eq_false, if_false, hc, hbyte]
      rw [← hcs, ih (List.cons_ne_nil b' mac)]
      simp

/-- The first separator is a colon. -/
theorem parseAddr_macString_eq {mac : HardwareAddr} (h : validMACLen mac.length = true) :
    parseAddr (macString mac) = parseIPv6 (macChars mac) := by
  obtain ⟨b, b', mac', rfl⟩ := exists_cons_cons_of_validMACLen h
  have hfind : (macChars (b :: b' :: mac')).find? (fun c => c = '.' ∨ c = ':' ∨ c = '%') = some ':' := by
    rw [macChars_cons]
    refine find?_first ?_ (.inr (.inl rfl)) _
    intro c hc
    have hhex := mem_byteChars hc
    rintro (rfl | rfl | rfl) <;> cases hhex
  have htext : (macString (b :: b' :: mac')).toList = macChars (b :: b' :: mac') := String.toList_ofList
  rw [parseAddr]
  simp only [htext, hfind]

section Colons

variable {mac : HardwareAddr}

theorem percent_not_mem_macChars : '%' ∉ macChars mac := not_mem_macChars (by decide) (by decide) mac

theorem head?_macChars_ne (hne : mac ≠ []) : (macChars mac).head? ≠ some ':' := by
  obtain ⟨b, mac, rfl⟩ := List.exists_cons_of_ne_nil hne
  obtain ⟨c, cs, hcs, hc, -⟩ := macChars_starts b mac
  rw [hcs]
  intro heq
  exact hc (Option.some.inj heq)

theorem macChars_ne_colons (hne : mac ≠ []) : macChars mac ≠ [':', ':'] := by
  intro heq
  have hhead := head?_macChars_ne hne
  rw [heq] at hhead
  exact hhead rfl

/-- Up to eight bytes are the groups of an address, and they must be eight. -/
theorem parseIPv6_macChars (hne : mac ≠ []) (hle : mac.length ≤ 8) :
    parseIPv6 (macChars mac) =
      if mac.length = 8 then some (.v6 (BitVec.ofNat 128 (ofBytes (mac.flatMap fun b => [0, b.toNat]))) "")
      else none := by
  have hfields := parseIPv6Fields_macChars hne 8 []
  have hlen : (mac.flatMap fun b => [0, b.toNat]).length = 2 * mac.length := by
    simp [List.length_flatMap]
    omega
  rw [List.drop_eq_nil_of_le hle, List.take_of_length_le hle] at hfields
  rw [parseIPv6_fields percent_not_mem_macChars (macChars_ne_colons hne) (.inr ⟨rfl, head?_macChars_ne hne, rfl⟩)
    hfields, expandEllipsis, List.nil_append, hlen]
  by_cases height : mac.length = 8
  · rw [if_neg (by omega), if_pos height]
    rfl
  · rw [if_pos (by omega), if_neg height]
    rfl

/-- More than eight bytes leave text after the last group. -/
theorem parseIPv6_macChars_long (hlt : 8 < mac.length) : parseIPv6 (macChars mac) = none := by
  have hne : mac ≠ [] := List.ne_nil_of_length_pos (by omega)
  have hhead := head?_macChars_ne hne
  have hfields := parseIPv6Fields_macChars hne 8 []
  obtain ⟨b, mac', hdrop⟩ : ∃ b mac', mac.drop 8 = b :: mac' :=
    List.exists_cons_of_ne_nil (by simpa [List.drop_eq_nil_iff] using hlt)
  obtain ⟨c, cs, hcs, -⟩ := macChars_starts b mac'
  rw [hdrop, hcs] at hfields
  have htake : (macChars mac).takeWhile (fun c => decide (c ≠ '%')) = macChars mac :=
    List.takeWhile_eq_self_iff.2 fun c hc => decide_eq_true fun heq => percent_not_mem_macChars (heq ▸ hc)
  unfold parseIPv6
  simp only [htake]
  rw [if_neg (by simp), if_neg (macChars_ne_colons hne)]
  split
  · rename_i ip ellipsis hsome
    split at hsome
    · rename_i heq
      rw [heq] at hhead
      exact absurd rfl hhead
    · rw [hfields] at hsome
      cases hsome
  · rfl

/-- Eight bytes, and no other number that a hardware address can have, are read as an IPv6 address. -/
theorem parseAddr_macString (h : validMACLen mac.length = true) :
    if mac.length = 8 then ∃ a, parseAddr (macString mac) = some (.v6 a "") else parseAddr (macString mac) = none := by
  have hne : mac ≠ [] := by
    rintro rfl
    cases h
  rw [parseAddr_macString_eq h]
  by_cases hle : mac.length ≤ 8
  · rw [parseIPv6_macChars hne hle]
    split
    · exact ⟨_, rfl⟩
    · rfl
  · rw [if_neg (by omega)]
    exact parseIPv6_macChars_long (by omega)

end Colons

end AdGuardHome.Aghnet
