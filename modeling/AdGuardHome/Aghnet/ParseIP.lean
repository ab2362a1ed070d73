import AdGuardHome.Aghnet.IPMut
import AdGuardHome.Lib.Digits
import AdGuardHome.Net.Parse
import Mathlib.Data.List.Induction
import Mathlib.Data.List.TakeWhile
import Mathlib.Tactic.IntervalCases

/-!
# Reading the text of an address

`net.ParseIP` reads the text that `IP.String` writes for an address as an address with the same text.
-/

namespace AdGuardHome.Aghnet

open AdGuardHome.Lib AdGuardHome.Net

/-- `Addr.As16` as bytes. -/
def bytes16 : Addr → IP
  | .v4 a => List.replicate 10 0 ++ [255, 255] ++ asSlice (.v4 a)
  | a => asSlice a

/-- `net.ParseIP`; no bytes are the nil address. -/
def parseIP (s : String) : IP :=
  match parseAddr s with
  | none => []
  | some a => if a.zone ≠ "" then [] else bytes16 a

/-! ## The bytes of a number -/

theorem ofBytes_append (bs : List ℕ) (b : ℕ) : ofBytes (bs ++ [b]) = ofBytes bs * 256 + b := by
  simp [ofBytes]

theorem ofBytes_lt (bs : List UInt8) : ofBytes (bs.map UInt8.toNat) < 256 ^ bs.length := by
  induction bs using List.reverseRecOn with
  | nil => simp [ofBytes]
  | append_singleton bs b ih =>
    have hb := b.toNat_lt
    rw [List.map_append, List.map_singleton, ofBytes_append, List.length_append, List.length_singleton, pow_succ]
    omega

theorem bytes_ofBytes (bs : List UInt8) :
    ((List.range bs.length).reverse.map fun i => UInt8.ofNat (ofBytes (bs.map UInt8.toNat) / 256 ^ i)) = bs := by
  induction bs using List.reverseRecOn with
  | nil => rfl
  | append_singleton bs b ih =>
    have hb := b.toNat_lt
    have hdiv : ∀ i, (ofBytes (bs.map UInt8.toNat) * 256 + b.toNat) / 256 ^ (i + 1)
        = ofBytes (bs.map UInt8.toNat) / 256 ^ i := by
      intro i
      rw [pow_succ', ← Nat.div_div_eq_div_mul]
      congr 1
      omega
    rw [List.map_append, List.map_singleton, ofBytes_append, List.length_append, List.length_singleton,
      List.range_succ_eq_map, List.reverse_cons, List.map_append, ← List.map_reverse, List.map_map]
    simp only [Function.comp_def, Nat.succ_eq_add_one, hdiv, ih, List.map_singleton, pow_zero, Nat.div_one]
    congr 2
    apply UInt8.toNat_inj.1
    simp

theorem asSlice_v6 (a : BitVec 128) (zone : String) :
    asSlice (.v6 a zone) = (List.range 16).reverse.map fun i => UInt8.ofNat (a.toNat / 256 ^ i) := by
  simp [asSlice, List.range_succ, Nat.shiftRight_eq_div_pow]

theorem asSlice_v4 (a : BitVec 32) :
    asSlice (.v4 a) = (List.range 4).reverse.map fun i => UInt8.ofNat (a.toNat / 256 ^ i) := by
  simp [asSlice, List.range_succ, Nat.shiftRight_eq_div_pow]

theorem asSlice_v6_ofBytes {bs : List UInt8} (h : bs.length = 16) (zone : String) :
    asSlice (.v6 (BitVec.ofNat 128 (ofBytes (bs.map UInt8.toNat))) zone) = bs := by
  have hlt := ofBytes_lt bs
  rw [h] at hlt
  rw [asSlice_v6, BitVec.toNat_ofNat, Nat.mod_eq_of_lt (by omega), ← h]
  exact bytes_ofBytes bs

theorem asSlice_v4_ofBytes {bs : List UInt8} (h : bs.length = 4) :
    asSlice (.v4 (BitVec.ofNat 32 (ofBytes (bs.map UInt8.toNat)))) = bs := by
  have hlt := ofBytes_lt bs
  rw [h] at hlt
  rw [asSlice_v4, BitVec.toNat_ofNat, Nat.mod_eq_of_lt (by omega), ← h]
  exact bytes_ofBytes bs

/-! ## Decimal fields -/

theorem digit?_digitChar {d : ℕ} (h : d < 10) : digit? d.digitChar = some d := by
  interval_cases d <;> decide

theorem mapM_digit? (n : ℕ) :
    ∃ ds, (Nat.toDigits 10 n).mapM digit? = some ds ∧ ds.foldl (fun v d => v * 10 + d) 0 = n := by
  induction n using Nat.strong_induction_on with
  | _ n ih =>
    rw [Nat.toDigits_eq_if (by decide)]
    split
    · rename_i hlt
      exact ⟨[n], by simp [digit?_digitChar hlt], by simp⟩
    · obtain ⟨ds, hds, hn⟩ := ih (n / 10) (by omega)
      refine ⟨ds ++ [n % 10], ?_, ?_⟩
      · rw [List.mapM_append, hds]
        simp [digit?_digitChar (Nat.mod_lt n (by decide : 0 < 10))]
      · rw [List.foldl_append, hn]
        simp
        omega

theorem parseOctet_toDigits (b : UInt8) : parseOctet (Nat.toDigits 10 b.toNat) = some b.toNat := by
  obtain ⟨ds, hds, hn⟩ := mapM_digit? b.toNat
  have hb := b.toNat_lt
  unfold parseOctet
  rw [if_neg (by simp only [Nat.toDigits_ne_nil, false_or]; exact toDigits_no_leading_zero _), hds, Option.bind_some]
  simp only [hn]
  rw [if_neg (by omega)]

/-! ## IPv4 -/

theorem toList_intercalate_dot (bs : List UInt8) :
    (".".intercalate (bs.map fun b => toString b.toNat)).toList
      = ['.'].intercalate (bs.map fun b => Nat.toDigits 10 b.toNat) := by
  rw [String.toList_intercalate, List.map_map]
  simp [Function.comp_def]

theorem not_mem_toDigits {c : Char} (hc : c.isDigit = false) (n : ℕ) : c ∉ Nat.toDigits 10 n := by
  intro h
  rw [Nat.isDigit_of_mem_toDigits (by decide) (by decide) h] at hc
  contradiction

theorem mapM_parseOctet (bs : List UInt8) :
    (bs.map fun b => Nat.toDigits 10 b.toNat).mapM parseOctet = some (bs.map UInt8.toNat) := by
  induction bs with
  | nil => rfl
  | cons b bs ih =>
    rw [List.map_cons, List.mapM_cons, parseOctet_toDigits, ih]
    rfl

theorem parseIPv4Fields_dotted {bs : List UInt8} (h : bs.length = 4) :
    parseIPv4Fields (['.'].intercalate (bs.map fun b => Nat.toDigits 10 b.toNat)) = some (bs.map UInt8.toNat) := by
  have hsplit : (['.'].intercalate (bs.map fun b => Nat.toDigits 10 b.toNat)).splitOn '.'
      = bs.map fun b => Nat.toDigits 10 b.toNat := by
    apply List.splitOn_intercalate
    · intro l hl
      obtain ⟨b, -, rfl⟩ := List.mem_map.1 hl
      exact not_mem_toDigits (by decide) _
    · intro hnil
      rw [List.map_eq_nil_iff.1 hnil] at h
      cases h
  unfold parseIPv4Fields
  simp only [hsplit, List.length_map, h, ne_eq, not_true_eq_false, if_false]
  exact mapM_parseOctet bs

/-- The first of the characters that tell what kind of an address the text is. -/
theorem find?_first {pre : List Char} {d : Char} (hpre : ∀ c ∈ pre, ¬ (c = '.' ∨ c = ':' ∨ c = '%'))
    (hd : d = '.' ∨ d = ':' ∨ d = '%') (post : List Char) :
    (pre ++ d :: post).find? (fun c => c = '.' ∨ c = ':' ∨ c = '%') = some d := by
  rw [List.find?_append, List.find?_eq_none.2 (by simpa using hpre), List.find?_cons_of_pos (by simpa using hd)]
  rfl

theorem intercalate_cons {α : Type} (sep l l' : List α) (ls : List (List α)) :
    sep.intercalate (l :: l' :: ls) = l ++ (sep ++ sep.intercalate (l' :: ls)) := by
  simp [List.intercalate, List.intersperse]

/-- The text of four bytes is read as the address of the bytes. -/
theorem parseAddr_dotted {bs : List UInt8} (h : bs.length = 4) :
    parseAddr (".".intercalate (bs.map fun b => toString b.toNat))
      = some (.v4 (BitVec.ofNat 32 (ofBytes (bs.map UInt8.toNat)))) := by
  have hfind : (['.'].intercalate (bs.map fun b => Nat.toDigits 10 b.toNat)).find?
      (fun c => c = '.' ∨ c = ':' ∨ c = '%') = some '.' := by
    obtain ⟨b, b', bs, rfl⟩ : ∃ b b' bs', bs = b :: b' :: bs' := by
      match bs, h with
      | b :: b' :: bs', _ => exact ⟨b, b', bs', rfl⟩
    rw [List.map_cons, List.map_cons, intercalate_cons]
    refine find?_first ?_ (.inl rfl) _
    rintro c hc (rfl | rfl | rfl)
    · exact not_mem_toDigits (by decide) _ hc
    · exact not_mem_toDigits (by decide) _ hc
    · exact not_mem_toDigits (by decide) _ hc
  rw [parseAddr, toList_intercalate_dot, hfind]
  simp only [parseIPv4, parseIPv4Fields_dotted h]
  rfl

/-! ## IPv6 -/

/-- The digits of a group. -/
def hexChars (g : ℕ) : List Char := Nat.toDigits 16 g

theorem hexDigit?_digitChar {d : ℕ} (h : d < 16) : hexDigit? d.digitChar = some d := by
  interval_cases d <;> decide

theorem isSome_of_mem_hexChars {g : ℕ} {c : Char} (h : c ∈ hexChars g) : (hexDigit? c).isSome = true := by
  unfold hexChars at h
  induction g using Nat.strong_induction_on with
  | _ g ih =>
    rw [Nat.toDigits_eq_if (by decide)] at h
    split at h
    · rename_i hlt
      rw [List.mem_singleton.1 h, hexDigit?_digitChar hlt]
      rfl
    · obtain h | h := List.mem_append.1 h
      · exact ih (g / 16) (by omega) h
      · rw [List.mem_singleton.1 h, hexDigit?_digitChar (Nat.mod_lt _ (by decide))]
        rfl

theorem foldl_hexChars (g : ℕ) : ((hexChars g).filterMap hexDigit?).foldl (fun v d => v * 16 + d) 0 = g := by
  unfold hexChars
  induction g using Nat.strong_induction_on with
  | _ g ih =>
    rw [Nat.toDigits_eq_if (by decide)]
    split
    · rename_i hlt
      simp [hexDigit?_digitChar hlt]
    · rw [List.filterMap_append, List.foldl_append, ih (g / 16) (by omega)]
      simp [hexDigit?_digitChar (Nat.mod_lt g (by decide : 0 < 16))]
      omega

/-- The bytes of groups. -/
def groupBytes (gs : List ℕ) : List ℕ := gs.flatMap fun g => [g / 256, g % 256]

/-- The groups with colons between them. -/
def joined (gs : List ℕ) : List Char := [':'].intercalate (gs.map hexChars)

variable {g : ℕ} {gs : List ℕ} {ip : List ℕ} {ellipsis : Option ℕ} {fuel : ℕ}

/-- The digits of a group that is followed by a colon or by nothing. -/
theorem parseIPv6Fields_digits {ds : List Char} (hds : ∀ c ∈ ds, (hexDigit? c).isSome = true) (hne : ds ≠ [])
    (hlen : ds.length ≤ 4) (hg : (ds.filterMap hexDigit?).foldl (fun v d => v * 16 + d) 0 = g) {r : List Char}
    (hr : ∀ c ∈ r.head?, c = ':') :
    parseIPv6Fields (fuel + 1) ip ellipsis (ds ++ r)
      = match r with
        | [] => some (ip ++ [g / 256, g % 256], ellipsis, [])
        | [_] => none
        | c₀ :: c₁ :: rest =>
          if c₀ ≠ ':' then none
          else if c₁ = ':' then
            if ellipsis ≠ none then none
            else if rest = [] then some (ip ++ [g / 256, g % 256], some (ip.length + 2), [])
            else parseIPv6Fields fuel (ip ++ [g / 256, g % 256]) (some (ip.length + 2)) rest
          else parseIPv6Fields fuel (ip ++ [g / 256, g % 256]) ellipsis (c₁ :: rest) := by
  have htake : (ds ++ r).takeWhile (fun c => (hexDigit? c).isSome) = ds := by
    rw [List.takeWhile_append_of_pos hds]
    cases r with
    | nil => simp
    | cons c r =>
      rw [hr c rfl]
      simp [hexDigit?]
  have hdot : r.head? ≠ some '.' := by
    intro hdot
    have := hr '.' hdot
    contradiction
  rw [parseIPv6Fields]
  simp only [htake, List.drop_left, hg]
  have hdigits : ¬ (ds = [] ∨ 4 < ds.length) := by
    rintro (h | h)
    · exact hne h
    · omega
  rw [if_neg hdigits, if_neg hdot]
  rcases r with _ | ⟨c₀, _ | ⟨c₁, rest⟩⟩ <;> simp

/-- A group that is followed by a colon or by nothing. -/
theorem parseIPv6Fields_group (hg : g < 65536) {r : List Char} (hr : ∀ c ∈ r.head?, c = ':') :
    parseIPv6Fields (fuel + 1) ip ellipsis (hexChars g ++ r)
      = match r with
        | [] => some (ip ++ [g / 256, g % 256], ellipsis, [])
        | [_] => none
        | c₀ :: c₁ :: rest =>
          if c₀ ≠ ':' then none
          else if c₁ = ':' then
            if ellipsis ≠ none then none
            else if rest = [] then some (ip ++ [g / 256, g % 256], some (ip.length + 2), [])
            else parseIPv6Fields fuel (ip ++ [g / 256, g % 256]) (some (ip.length + 2)) rest
          else parseIPv6Fields fuel (ip ++ [g / 256, g % 256]) ellipsis (c₁ :: rest) := by
  have hlen : (hexChars g).length ≤ 4 := (Nat.length_toDigits_le_iff (by decide) (by decide)).2 hg
  exact parseIPv6Fields_digits (fun c hc => isSome_of_mem_hexChars hc) Nat.toDigits_ne_nil hlen (foldl_hexChars g) hr

theorem joined_cons (g g' : ℕ) (gs : List ℕ) : joined (g :: g' :: gs) = hexChars g ++ ':' :: joined (g' :: gs) := by
  simp [joined]

theorem joined_singleton (g : ℕ) : joined [g] = hexChars g := by
  simp [joined]

theorem not_mem_joined {c : Char} (hc : (hexDigit? c).isSome = false) (hcolon : c ≠ ':') (gs : List ℕ) :
    c ∉ joined gs := by
  have hhex : ∀ g, c ∉ hexChars g := by
    intro g h
    rw [isSome_of_mem_hexChars h] at hc
    contradiction
  induction gs with
  | nil => simp [joined]
  | cons g gs ih =>
    cases gs with
    | nil =>
      rw [joined_singleton]
      exact hhex g
    | cons g' gs =>
      rw [joined_cons]
      simp [hhex, hcolon, ih]

theorem hexChars_starts (g : ℕ) : ∃ c cs, hexChars g = c :: cs ∧ c ≠ ':' ∧ c ≠ '.' ∧ c ≠ '%' := by
  obtain ⟨c, cs, h⟩ := List.exists_cons_of_ne_nil (show hexChars g ≠ [] from Nat.toDigits_ne_nil)
  have hc : (hexDigit? c).isSome = true := isSome_of_mem_hexChars (g := g) (by simp [h])
  refine ⟨c, cs, h, ?_, ?_, ?_⟩ <;> rintro rfl <;> revert hc <;> decide

theorem joined_starts (h : gs ≠ []) : ∃ c cs, joined gs = c :: cs ∧ c ≠ ':' := by
  obtain ⟨g, gs, rfl⟩ := List.exists_cons_of_ne_nil h
  obtain ⟨c, cs, hg, hc, -⟩ := hexChars_starts g
  cases gs with
  | nil => exact ⟨c, cs, by rw [joined_singleton, hg], hc⟩
  | cons g' gs => exact ⟨c, _, by rw [joined_cons, hg, List.cons_append], hc⟩

/-- Groups up to the end of the text. -/
theorem parseIPv6Fields_joined (h : gs ≠ []) (hgs : ∀ g ∈ gs, g < 65536) (hfuel : gs.length ≤ fuel) :
    parseIPv6Fields fuel ip ellipsis (joined gs) = some (ip ++ groupBytes gs, ellipsis, []) := by
  induction gs generalizing fuel ip with
  | nil => exact absurd rfl h
  | cons g gs ih =>
    obtain ⟨fuel, rfl⟩ : ∃ n, fuel = n + 1 := ⟨fuel - 1, by simp at hfuel; omega⟩
    have hg := hgs g (by simp)
    cases gs with
    | nil =>
      have hnil : ∀ c ∈ ([] : List Char).head?, c = ':' := by simp
      have := @parseIPv6Fields_group g ip ellipsis fuel hg [] hnil
      rw [joined_singleton]
      simpa [groupBytes] using this
    | cons g' gs =>
      obtain ⟨c, cs, hstart, hc⟩ := joined_starts (List.cons_ne_nil g' gs)
      rw [joined_cons, parseIPv6Fields_group hg (by simp), hstart]
      simp only [ne_eq, not_true_eq_false, if_false, hc]
      rw [← hstart, ih (by simp) (fun g hg => hgs g (by simp [hg])) (by simpa using hfuel)]
      simp [groupBytes]

/-- Groups up to the ellipsis, and those after it. -/
theorem parseIPv6Fields_ellipsis {hs : List ℕ} (h : gs ≠ []) (hgs : ∀ g ∈ gs, g < 65536) (hhs : ∀ g ∈ hs, g < 65536)
    (hfuel : gs.length + hs.length ≤ fuel) :
    parseIPv6Fields fuel ip none (joined gs ++ ':' :: ':' :: joined hs)
      = some (ip ++ groupBytes gs ++ groupBytes hs, some (ip ++ groupBytes gs).length, []) := by
  induction gs generalizing fuel ip with
  | nil => exact absurd rfl h
  | cons g gs ih =>
    obtain ⟨fuel, rfl⟩ : ∃ n, fuel = n + 1 := ⟨fuel - 1, by simp at hfuel; omega⟩
    have hg := hgs g (by simp)
    cases gs with
    | nil =>
      rw [joined_singleton, parseIPv6Fields_group hg (by simp)]
      simp only [ne_eq, not_true_eq_false, if_false, if_true]
      by_cases hnil : hs = []
      · subst hnil
        simp [joined, groupBytes]
      · obtain ⟨c, cs, hstart, -⟩ := joined_starts hnil
        rw [if_neg (by simp [hstart]), parseIPv6Fields_joined hnil hhs (by simp at hfuel; omega)]
        simp [groupBytes]
    | cons g' gs =>
      obtain ⟨c, cs, hstart, hc⟩ := joined_starts (List.cons_ne_nil g' gs)
      rw [joined_cons, List.append_assoc, List.cons_append, parseIPv6Fields_group hg (by simp), hstart, List.cons_append]
      simp only [ne_eq, not_true_eq_false, if_false, hc]
      rw [← List.cons_append, ← hstart,
        ih (by simp) (fun g hg => hgs g (by simp [hg])) (by simp at hfuel ⊢; omega)]
      simp [groupBytes]

/-! ### The run of zeros -/

/-- A run of zeros in the groups. -/
structure ZeroRun (gs : List ℕ) (run : ℕ × ℕ) : Prop where
  le : run.1 + run.2 ≤ gs.length
  split : gs = gs.take run.1 ++ List.replicate run.2 0 ++ gs.drop (run.1 + run.2)

theorem zeroRun_at (gs : List ℕ) {i : ℕ} (hi : i ≤ gs.length) :
    ZeroRun gs (i, ((gs.drop i).takeWhile (· = 0)).length) := by
  obtain ⟨rest, hrest⟩ := List.takeWhile_prefix (p := fun g : ℕ => (g = 0 : Bool)) (l := gs.drop i)
  have hzero : (gs.drop i).takeWhile (· = 0) = List.replicate ((gs.drop i).takeWhile (· = 0)).length 0 :=
    List.eq_replicate_iff.2 ⟨rfl, fun g hg => by simpa using List.mem_takeWhile_imp hg⟩
  generalize (gs.drop i).takeWhile (· = 0) = zeros at hzero hrest
  have hlen := congrArg List.length hrest
  rw [List.length_append, List.length_drop] at hlen
  refine ⟨by simp only; omega, ?_⟩
  simp only
  rw [← hzero, ← List.drop_drop, ← hrest, List.drop_left, List.append_assoc, hrest, List.take_append_drop]

theorem zeroRun_spec {gs : List ℕ} (hgs : gs.length = 8) : ZeroRun gs (IP.zeroRun gs) := by
  have hfold : ∀ (is : List ℕ) (best : ℕ × ℕ), (∀ i ∈ is, i ≤ gs.length) → ZeroRun gs best →
      ZeroRun gs (is.foldl (fun best i =>
        let l := ((gs.drop i).takeWhile (· = 0)).length
        if 2 ≤ l ∧ best.2 < l then (i, l) else best) best) := by
    intro is
    induction is with
    | nil => exact fun best _ h => h
    | cons i is ih =>
      intro best his h
      rw [List.foldl_cons]
      refine ih _ (fun j hj => his j (by simp [hj])) ?_
      simp only
      split
      · exact zeroRun_at gs (his i (by simp))
      · exact h
  refine hfold _ _ ?_ ⟨by simp [hgs], by simp [← hgs]⟩
  intro i hi
  rw [List.mem_range] at hi
  omega

/-! ### The text -/

theorem length_groups : ∀ ip : IP, (IP.groups ip).length = ip.length / 2
  | [] => rfl
  | [_] => by simp [IP.groups]
  | a :: b :: ip => by
    rw [IP.groups, List.length_cons, length_groups ip, List.length_cons, List.length_cons]
    omega

theorem groups_lt : ∀ (ip : IP), ∀ g ∈ IP.groups ip, g < 65536
  | [], g, h => by cases h
  | [_], g, h => by cases h
  | a :: b :: ip, g, h => by
    rw [IP.groups, List.mem_cons] at h
    obtain rfl | h := h
    · have := a.toNat_lt
      have := b.toNat_lt
      omega
    · exact groups_lt ip g h

theorem groupBytes_groups : ∀ {ip : IP}, ip.length % 2 = 0 → groupBytes (IP.groups ip) = ip.map UInt8.toNat
  | [], _ => rfl
  | [_], h => by simp at h
  | a :: b :: ip, h => by
    have hb := b.toNat_lt
    have hrest := @groupBytes_groups ip (by simp at h; omega)
    simp only [groupBytes] at hrest
    simp only [groupBytes, IP.groups, List.flatMap_cons, hrest, List.map_cons, List.cons_append, List.nil_append]
    congr 1
    · omega
    · congr 1
      omega

theorem groupBytes_append (gs hs : List ℕ) : groupBytes (gs ++ hs) = groupBytes gs ++ groupBytes hs :=
  List.flatMap_append

theorem groupBytes_replicate (n : ℕ) : groupBytes (List.replicate n 0) = List.replicate (2 * n) 0 := by
  induction n with
  | zero => rfl
  | succ n ih =>
    have hn : 2 * (n + 1) = 2 * n + 1 + 1 := by omega
    rw [hn, List.replicate_succ, List.replicate_succ, List.replicate_succ, ← ih]
    rfl

theorem length_groupBytes (gs : List ℕ) : (groupBytes gs).length = 2 * gs.length := by
  simp [groupBytes]
  omega

theorem toList_string6 (ip : IP) :
    (IP.string6 ip).toList
      = if (IP.zeroRun (IP.groups ip)).2 = 0 then joined (IP.groups ip)
        else joined ((IP.groups ip).take (IP.zeroRun (IP.groups ip)).1) ++ ':' :: ':' ::
          joined ((IP.groups ip).drop ((IP.zeroRun (IP.groups ip)).1 + (IP.zeroRun (IP.groups ip)).2)) := by
  have hjoin : ∀ gs : List ℕ, (":".intercalate (gs.map IP.hexGroup)).toList = joined gs := by
    intro gs
    rw [String.toList_intercalate, List.map_map]
    congr 1
    apply List.map_congr_left
    intro g _
    simp [IP.hexGroup, hexChars]
  unfold IP.string6
  simp only
  split
  · rename_i h
    rw [h, if_pos rfl, hjoin]
  · rename_i start l hl h
    rw [h, if_neg (by simpa using hl), String.toList_append, String.toList_append, hjoin, hjoin]
    simp

/-- The bytes of the groups with the run of zeros in place of the ellipsis. -/
theorem expandEllipsis_groups {gs : List ℕ} {run : ℕ × ℕ} (h : ZeroRun gs run) (hgs : gs.length = 8)
    (hpos : run.2 ≠ 0) :
    expandEllipsis (groupBytes (gs.take run.1) ++ groupBytes (gs.drop (run.1 + run.2)))
      (some (groupBytes (gs.take run.1)).length) = some (groupBytes gs) := by
  have hle := h.le
  have hlen : (groupBytes (gs.take run.1) ++ groupBytes (gs.drop (run.1 + run.2))).length = 16 - 2 * run.2 := by
    rw [List.length_append, length_groupBytes, length_groupBytes, List.length_take, List.length_drop]
    omega
  unfold expandEllipsis
  simp only [hlen]
  rw [if_pos (by omega), List.take_left, List.drop_left, show 16 - (16 - 2 * run.2) = 2 * run.2 by omega,
    ← groupBytes_replicate, ← groupBytes_append, ← groupBytes_append, ← h.split]

/-- What `parseIPv6` makes of a text without a zone. -/
theorem parseIPv6_fields {cs : List Char} (hzone : '%' ∉ cs) (hne : cs ≠ [':', ':']) {ellipsis ellipsis' : Option ℕ}
    {s : List Char} {ip : List ℕ}
    (hs : (cs = ':' :: ':' :: s ∧ ellipsis = some 0) ∨ (cs = s ∧ cs.head? ≠ some ':' ∧ ellipsis = none))
    (hfields : parseIPv6Fields 8 [] ellipsis s = some (ip, ellipsis', [])) :
    parseIPv6 cs = (expandEllipsis ip ellipsis').map fun ip => .v6 (BitVec.ofNat 128 (ofBytes ip)) "" := by
  have htake : cs.takeWhile (fun c => (c ≠ '%' : Bool)) = cs :=
    List.takeWhile_eq_self_iff.2 fun c hc => by
      have : c ≠ '%' := fun h => hzone (h ▸ hc)
      simpa using this
  have hresult : ∀ p : Option ℕ × List Char, p = (ellipsis, s) →
      parseIPv6Fields 8 [] p.1 p.2 = some (ip, ellipsis', []) := by
    rintro _ rfl
    exact hfields
  unfold parseIPv6
  simp only [htake]
  rw [if_neg (by simp), if_neg hne, List.drop_eq_nil_of_le (by omega), hresult]
  obtain ⟨rfl, rfl⟩ | ⟨rfl, hhead, rfl⟩ := hs
  · rfl
  · split
    · simp at hhead
    · rfl

theorem parseIPv6_ellipsis {gs hs : List ℕ} (hgs : ∀ g ∈ gs, g < 65536) (hhs : ∀ g ∈ hs, g < 65536)
    (hlen : gs.length + hs.length ≤ 8) :
    parseIPv6 (joined gs ++ ':' :: ':' :: joined hs)
      = (expandEllipsis (groupBytes gs ++ groupBytes hs) (some (groupBytes gs).length)).map fun ip =>
          .v6 (BitVec.ofNat 128 (ofBytes ip)) "" := by
  have hzone : '%' ∉ joined gs ++ ':' :: ':' :: joined hs := by
    have := fun gs => not_mem_joined (c := '%') (by decide) (by decide) gs
    simp [this]
  by_cases hg : gs = []
  · subst hg
    by_cases hh : hs = []
    · subst hh
      decide +kernel
    · obtain ⟨c, cs, hstart, -⟩ := joined_starts hh
      refine parseIPv6_fields hzone ?_ (.inl ⟨rfl, rfl⟩) ?_
      · rw [hstart]
        intro heq
        cases heq
      rw [parseIPv6Fields_joined hh hhs (by simpa using hlen)]
      rfl
  · obtain ⟨c, cs, hstart, hc⟩ := joined_starts hg
    refine parseIPv6_fields hzone ?_ (.inr ⟨rfl, ?_, rfl⟩) ?_
    · rw [hstart, List.cons_append]
      intro heq
      exact hc (List.cons.inj heq).1
    · simpa [hstart] using hc
    · rw [parseIPv6Fields_ellipsis hg hgs hhs hlen]
      rfl

theorem parseIPv6_joined {gs : List ℕ} (hgs : ∀ g ∈ gs, g < 65536) (hlen : gs.length = 8) :
    parseIPv6 (joined gs) = some (.v6 (BitVec.ofNat 128 (ofBytes (groupBytes gs))) "") := by
  have hne : gs ≠ [] := by
    rintro rfl
    simp at hlen
  obtain ⟨c, cs, hstart, hc⟩ := joined_starts hne
  rw [parseIPv6_fields (not_mem_joined (by decide) (by decide) gs) ?_ (.inr ⟨rfl, ?_, rfl⟩)
    (parseIPv6Fields_joined hne hgs hlen.le)]
  · rw [List.nil_append, expandEllipsis, length_groupBytes, hlen, if_neg (by decide)]
    rfl
  · rw [hstart]
    intro heq
    exact hc (List.cons.inj heq).1
  · simpa [hstart] using hc

/-- The first of the characters that tell what kind of an address the text is is a colon. -/
theorem find?_joined {g : ℕ} {cs : List Char} (hcs : cs.head? = some ':') :
    (hexChars g ++ cs).find? (fun c => c = '.' ∨ c = ':' ∨ c = '%') = some ':' := by
  obtain ⟨c, cs, rfl⟩ := List.exists_cons_of_ne_nil (show cs ≠ [] by rintro rfl; simp at hcs)
  obtain rfl : c = ':' := by simpa using hcs
  refine find?_first ?_ (.inr (.inl rfl)) _
  intro c hc
  have hsome := isSome_of_mem_hexChars hc
  rintro (rfl | rfl | rfl) <;> revert hsome <;> decide

/-- The text of sixteen bytes in groups is read as the address of the bytes. -/
theorem parseAddr_string6 {ip : IP} (h : ip.length = 16) :
    parseAddr (IP.string6 ip) = some (.v6 (BitVec.ofNat 128 (ofBytes (ip.map UInt8.toNat))) "") := by
  have hgs : (IP.groups ip).length = 8 := by rw [length_groups, h]
  have hlt := groups_lt ip
  have hbytes : groupBytes (IP.groups ip) = ip.map UInt8.toNat := groupBytes_groups (by omega)
  have hrun := zeroRun_spec hgs
  rw [← hbytes]
  unfold parseAddr
  rw [toList_string6]
  generalize IP.groups ip = gs at hgs hlt hrun
  generalize IP.zeroRun gs = run at hrun
  split_ifs with hzero
  · have hfind : (joined gs).find? (fun c => c = '.' ∨ c = ':' ∨ c = '%') = some ':' := by
      match gs, hgs with
      | g :: g' :: gs', _ =>
        rw [joined_cons]
        exact find?_joined rfl
    rw [hfind]
    exact parseIPv6_joined hlt hgs
  · have hfind : (joined (gs.take run.1) ++ ':' :: ':' :: joined (gs.drop (run.1 + run.2))).find?
        (fun c => c = '.' ∨ c = ':' ∨ c = '%') = some ':' := by
      match gs.take run.1 with
      | [] => rfl
      | [g] =>
        rw [joined_singleton]
        exact find?_joined rfl
      | g :: g' :: gs' =>
        rw [joined_cons, List.append_assoc]
        exact find?_joined rfl
    have hle := hrun.le
    rw [hfind]
    simp only
    rw [parseIPv6_ellipsis (fun g hg => hlt g (List.mem_of_mem_take hg)) (fun g hg => hlt g (List.mem_of_mem_drop hg))
      (by rw [List.length_take, List.length_drop]; omega), expandEllipsis_groups hrun hgs hzero]
    rfl

theorem length_of_to4 {ip ip4 : IP} (h : IP.to4 ip = some ip4) : ip4.length = 4 := by
  unfold IP.to4 at h
  split_ifs at h with hlen hmapped
  · obtain rfl := Option.some.inj h
    exact hlen
  · obtain rfl := Option.some.inj h
    rw [List.length_drop, hmapped.1]

theorem mem_intercalate {α : Type} {sep : List α} {ls : List (List α)} {a : α} (h : a ∈ sep.intercalate ls) :
    a ∈ sep ∨ ∃ l ∈ ls, a ∈ l := by
  induction ls with
  | nil => simp at h
  | cons l ls ih =>
    cases ls with
    | nil => exact .inr ⟨l, by simp, by simpa using h⟩
    | cons l' ls =>
      rw [intercalate_cons, List.mem_append, List.mem_append] at h
      obtain h | h | h := h
      · exact .inr ⟨l, by simp, h⟩
      · exact .inl h
      · exact (ih h).imp_right fun ⟨l'', hl, ha⟩ => ⟨l'', by simp [hl], ha⟩

/-- The text of an address has digits, dots and colons only. -/
theorem not_mem_string {c : Char} (hhex : (hexDigit? c).isSome = false) (hdigit : c.isDigit = false) (hcolon : c ≠ ':')
    (hdot : c ≠ '.') {ip : IP} (hip : ip ≠ []) : c ∉ ip.string.toList := by
  rw [IP.string, if_neg hip]
  split
  · rw [toList_intercalate_dot]
    intro h
    obtain h | ⟨l, hl, h⟩ := mem_intercalate h
    · exact hdot (List.mem_singleton.1 h)
    · obtain ⟨b, -, rfl⟩ := List.mem_map.1 hl
      exact not_mem_toDigits hdigit _ h
  · rw [toList_string6]
    split
    · exact not_mem_joined hhex hcolon _
    · simp [not_mem_joined hhex hcolon, hcolon]

/-- `ParseIP` reads the text of an address as the address in sixteen bytes. -/
theorem parseIP_string {ip : IP} (h : ip.length = 4 ∨ ip.length = 16) : parseIP ip.string =
    match IP.to4 ip with
    | some ip4 => List.replicate 10 0 ++ [255, 255] ++ ip4
    | none => ip := by
  have hne : ip ≠ [] := by
    rintro rfl
    simp at h
  cases h4 : IP.to4 ip with
  | some ip4 =>
    have hlen := length_of_to4 h4
    have hstring : ip.string = ".".intercalate (ip4.map fun b => toString b.toNat) := by
      rw [IP.string, if_neg hne, h4]
    rw [hstring, parseIP, parseAddr_dotted hlen]
    simp only [Addr.zone, ne_eq, not_true_eq_false, if_false, bytes16, asSlice_v4_ofBytes hlen]
  | none =>
    have hlen : ip.length = 16 := by
      refine h.resolve_left fun hlen => ?_
      rw [IP.to4, if_pos hlen] at h4
      contradiction
    have hstring : ip.string = IP.string6 ip := by
      rw [IP.string, if_neg hne, h4]
    rw [hstring, parseIP, parseAddr_string6 hlen]
    simp only [Addr.zone, ne_eq, not_true_eq_false, if_false, bytes16, asSlice_v6_ofBytes hlen]

/-- `ParseIP` reads the text of an address as an address with the same text. -/
theorem string_parseIP {ip : IP} (h : ip.length = 4 ∨ ip.length = 16) : (parseIP ip.string).string = ip.string := by
  have hne : ip ≠ [] := by
    rintro rfl
    simp at h
  rw [parseIP_string h]
  cases h4 : IP.to4 ip with
  | some ip4 =>
    have hlen := length_of_to4 h4
    have h16 : IP.to4 (List.replicate 10 0 ++ [255, 255] ++ ip4) = some ip4 := by
      rw [IP.to4, if_neg (by simp [hlen]), if_pos ⟨by simp [hlen], by simp⟩]
      simp
    dsimp only
    rw [IP.string, if_neg (by simp), h16, IP.string, if_neg hne, h4]
  | none => rfl

end AdGuardHome.Aghnet
