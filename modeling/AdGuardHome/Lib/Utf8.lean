import Mathlib.Data.List.Basic
import Mathlib.Order.Basic

/-!
# UTF-8

The bytes of a text and the text of bytes, where the bytes that are no text stand for the replacement character, and
the search for a text of ASCII characters, which is the same in both; and strings of any bytes.
-/

namespace AdGuardHome.Lib

/-- The bytes of a text. -/
def utf8 (cs : List Char) : List UInt8 := cs.flatMap String.utf8EncodeChar

/-- The characters of the first bytes, at most so many. -/
def runesLoop : ℕ → List UInt8 → List Char
  | 0, _ => []
  | _, [] => []
  | n + 1, b :: bs =>
    match (b :: bs).toByteArray.utf8DecodeChar? 0 with
    | some c => c :: runesLoop n ((b :: bs).drop c.utf8Size)
    | none => '\ufffd' :: runesLoop n bs

/-- The text of the bytes: a byte with which no character starts stands for the replacement character. -/
def runes (bs : List UInt8) : List Char := runesLoop bs.length bs

@[simp]
theorem utf8_nil : utf8 [] = [] := rfl

@[simp]
theorem utf8_cons (c : Char) (cs : List Char) : utf8 (c :: cs) = String.utf8EncodeChar c ++ utf8 cs := rfl

@[simp]
theorem utf8_append (cs ds : List Char) : utf8 (cs ++ ds) = utf8 cs ++ utf8 ds := List.flatMap_append

theorem encode_ne_nil (c : Char) : String.utf8EncodeChar c ≠ [] := by
  intro h
  have := String.length_utf8EncodeChar c
  rw [h] at this
  exact absurd this.symm (Nat.pos_iff_ne_zero.1 c.utf8Size_pos)

theorem runesLoop_utf8 (cs : List Char) {n : ℕ} (h : (utf8 cs).length ≤ n) : runesLoop n (utf8 cs) = cs := by
  induction cs generalizing n with
  | nil => cases n <;> rfl
  | cons c cs ih =>
    have hlen := String.length_utf8EncodeChar c
    have hpos := c.utf8Size_pos
    have hdec : (utf8 (c :: cs)).toByteArray.utf8DecodeChar? 0 = some c := by
      rw [utf8_cons, List.toByteArray_append]
      exact ByteArray.utf8DecodeChar?_utf8EncodeChar_append
    rw [utf8_cons, List.length_append] at h
    obtain ⟨n, rfl⟩ : ∃ m, n = m + 1 := ⟨n - 1, by omega⟩
    obtain ⟨b, bs, hbs⟩ := List.exists_cons_of_ne_nil (show utf8 (c :: cs) ≠ [] by
      rw [utf8_cons]
      exact List.append_ne_nil_of_left_ne_nil (encode_ne_nil c) _)
    rw [hbs] at hdec ⊢
    rw [runesLoop, hdec]
    simp only
    rw [← hbs, utf8_cons, ← hlen, List.drop_left, ih (by omega)]

/-- The text of the bytes of a text. -/
theorem runes_utf8 (cs : List Char) : runes (utf8 cs) = cs := runesLoop_utf8 cs (Nat.le_refl _)

/-! ## ASCII texts -/

def Ascii (cs : List Char) : Prop := ∀ c ∈ cs, c.toNat < 128

instance (cs : List Char) : Decidable (Ascii cs) := List.decidableBAll _ cs

theorem encode_ascii {c : Char} (h : c.toNat < 128) : String.utf8EncodeChar c = [c.val.toUInt8] := by
  apply String.utf8EncodeChar_eq_singleton
  rw [Char.utf8Size_eq_one_iff, UInt32.le_iff_toNat_le]
  exact Nat.le_of_lt_succ h

theorem le_or_of_le {x y : UInt8} (h : 128 ≤ y) : 128 ≤ x ||| y := by
  rw [UInt8.le_iff_toNat_le] at *
  rw [UInt8.toNat_or]
  exact Nat.le_trans h Nat.right_le_or

/-- The bytes of a character outside ASCII are not ASCII. -/
theorem le_of_mem_encode {c : Char} (h : 128 ≤ c.toNat) {b : UInt8} (hb : b ∈ String.utf8EncodeChar c) : 128 ≤ b := by
  obtain hc | hc | hc | hc := c.utf8Size_eq
  · rw [Char.utf8Size_eq_one_iff, UInt32.le_iff_toNat_le] at hc
    exact absurd (show c.toNat ≤ 127 from hc) (by omega)
  · rw [String.utf8EncodeChar_eq_cons_cons hc] at hb
    simp only [List.mem_cons, List.not_mem_nil, or_false] at hb
    obtain rfl | rfl := hb <;> exact le_or_of_le (by decide)
  · rw [String.utf8EncodeChar_eq_cons_cons_cons hc] at hb
    simp only [List.mem_cons, List.not_mem_nil, or_false] at hb
    obtain rfl | rfl | rfl := hb <;> exact le_or_of_le (by decide)
  · rw [String.utf8EncodeChar_eq_cons_cons_cons_cons hc] at hb
    simp only [List.mem_cons, List.not_mem_nil, or_false] at hb
    obtain rfl | rfl | rfl | rfl := hb <;> exact le_or_of_le (by decide)

theorem ascii_lt {c : Char} (h : c.toNat < 128) : ¬ 128 ≤ c.val.toUInt8 := by
  rw [UInt8.le_iff_toNat_le, UInt32.toNat_toUInt8]
  have : c.val.toNat < 128 := h
  have h128 : (128 : UInt8).toNat = 128 := rfl
  omega

theorem ascii_injective {c d : Char} (hc : c.toNat < 128) (hd : d.toNat < 128) (h : c.val.toUInt8 = d.val.toUInt8) :
    c = d := by
  have hnat := congrArg UInt8.toNat h
  rw [UInt32.toNat_toUInt8, UInt32.toNat_toUInt8] at hnat
  have hc' : c.val.toNat < 128 := hc
  have hd' : d.val.toNat < 128 := hd
  apply Char.ext
  apply UInt32.toNat_inj.1
  omega

theorem mem_utf8 {cs : List Char} {b : UInt8} : b ∈ utf8 cs ↔ ∃ c ∈ cs, b ∈ String.utf8EncodeChar c := List.mem_flatMap

theorem mem_utf8_of_ascii {cs : List Char} (h : Ascii cs) {b : UInt8} (hb : b ∈ utf8 cs) :
    ∃ c ∈ cs, b = c.val.toUInt8 := by
  obtain ⟨c, hc, hb⟩ := mem_utf8.1 hb
  rw [encode_ascii (h c hc)] at hb
  exact ⟨c, hc, List.mem_singleton.1 hb⟩

/-- The byte of an ASCII character is in the bytes of a text only if the character is in the text. -/
theorem not_mem_utf8 {c : Char} (hc : c.toNat < 128) {cs : List Char} (h : c ∉ cs) : c.val.toUInt8 ∉ utf8 cs := by
  intro hmem
  obtain ⟨d, hd, hb⟩ := mem_utf8.1 hmem
  by_cases hdc : d.toNat < 128
  · rw [encode_ascii hdc, List.mem_singleton] at hb
    exact h (ascii_injective hc hdc hb ▸ hd)
  · exact ascii_lt hc (le_of_mem_encode (by omega) hb)

/-- An ASCII text is at the start of a text just as its bytes are at the start of the bytes. -/
theorem prefix_utf8 {p cs : List Char} (hp : Ascii p) : utf8 p <+: utf8 cs ↔ p <+: cs := by
  constructor
  · intro h
    induction p generalizing cs with
    | nil => exact List.nil_prefix
    | cons c p ih =>
      have hc := hp c (by simp)
      rw [utf8_cons, encode_ascii hc, List.singleton_append] at h
      cases cs with
      | nil => simp at h
      | cons d cs =>
        by_cases hd : d.toNat < 128
        · rw [utf8_cons, encode_ascii hd, List.singleton_append, List.cons_prefix_cons] at h
          obtain rfl := ascii_injective hc hd h.1
          exact List.cons_prefix_cons.2 ⟨rfl, ih (fun x hx => hp x (by simp [hx])) h.2⟩
        · obtain ⟨b, bs, hb⟩ := List.exists_cons_of_ne_nil (encode_ne_nil d)
          have hlarge := le_of_mem_encode (by omega) (show b ∈ String.utf8EncodeChar d by simp [hb])
          rw [utf8_cons, hb, List.cons_append, List.cons_prefix_cons] at h
          rw [← h.1] at hlarge
          exact absurd hlarge (ascii_lt hc)
  · rintro ⟨r, rfl⟩
    exact ⟨utf8 r, (utf8_append _ _).symm⟩

/-- An ASCII text is found in the bytes of a text only where it is in the text. -/
theorem prefix_drop_utf8 {c : Char} {p cs : List Char} {i : ℕ} (hp : Ascii (c :: p))
    (h : utf8 (c :: p) <+: (utf8 cs).drop i) : ∃ j, (utf8 (cs.take j)).length = i ∧ c :: p <+: cs.drop j := by
  induction cs generalizing i with
  | nil =>
    have hc := hp c (by simp)
    simp [encode_ascii hc] at h
  | cons d cs ih =>
    have hlen := String.length_utf8EncodeChar d
    by_cases hi : d.utf8Size ≤ i
    · obtain ⟨k, rfl⟩ := Nat.exists_eq_add_of_le hi
      rw [utf8_cons d, List.drop_append, List.drop_eq_nil_of_le (by omega), List.nil_append, hlen,
        Nat.add_sub_cancel_left] at h
      obtain ⟨j, hj, hpre⟩ := ih h
      exact ⟨j + 1, by rw [List.take_succ_cons, utf8_cons, List.length_append, hlen, hj], hpre⟩
    · by_cases h0 : i = 0
      · subst h0
        exact ⟨0, rfl, (prefix_utf8 hp).1 h⟩
      · exfalso
        have hc := hp c (by simp)
        rw [utf8_cons, encode_ascii hc, List.singleton_append, utf8_cons d,
          List.drop_append_of_le_length (by omega)] at h
        obtain ⟨b, bs, hb⟩ := List.exists_cons_of_ne_nil (show (String.utf8EncodeChar d).drop i ≠ [] by
          rw [Ne, List.drop_eq_nil_iff]
          omega)
        have hbd : b ∈ String.utf8EncodeChar d := List.mem_of_mem_drop (by rw [hb]; simp)
        have hlarge : 128 ≤ b := by
          refine le_of_mem_encode ?_ hbd
          by_contra hd
          rw [encode_ascii (by omega), List.length_singleton] at hlen
          omega
        rw [hb, List.cons_append, List.cons_prefix_cons] at h
        rw [← h.1] at hlarge
        exact ascii_lt hc hlarge

/-! ## Strings of bytes -/

/-- A string of bytes, which need not be UTF-8. -/
structure GoString where
  bytes : List UInt8
deriving DecidableEq

namespace GoString

/-- The string of a text. -/
@[coe] def ofText (s : String) : GoString := ⟨utf8 s.toList⟩

instance : Coe String GoString := ⟨ofText⟩

instance : Inhabited GoString := ⟨""⟩

/-- Strings are in the order of their bytes. -/
instance : LT GoString := ⟨fun s t => s.bytes < t.bytes⟩

instance (s t : GoString) : Decidable (s < t) := inferInstanceAs (Decidable (s.bytes < t.bytes))

/-- The string is UTF-8. -/
def IsUtf8 (s : GoString) : Prop := ∃ text : String, s = text

/-- The text of the string, with replacement characters for what is not UTF-8. -/
def text (s : GoString) : String := String.ofList (runes s.bytes)

@[simp]
theorem text_coe (s : String) : text s = s := by rw [text, ofText, runes_utf8, String.ofList_toList]

theorem isUtf8_iff {s : GoString} : s.IsUtf8 ↔ (s.text : GoString) = s := by
  constructor
  · rintro ⟨text, rfl⟩
    rw [text_coe]
  · exact fun h => ⟨s.text, h.symm⟩

instance (s : GoString) : Decidable s.IsUtf8 := decidable_of_iff _ isUtf8_iff.symm

end GoString

end AdGuardHome.Lib
