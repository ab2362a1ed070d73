import Mathlib.Data.List.Basic

/-!
# Hexadecimal strings

`hexEncode` writes two lower-case digits for a byte, `hexDecode` reads digits of either case.  What is written is
read back (`hexDecode_hexEncode`), so different bytes have different strings (`hexEncode_injective`).
-/

namespace AdGuardHome.Lib

/-- The lower-case digit of a number below 16. -/
def hexDigit (n : ℕ) : UInt8 := if n < 10 then UInt8.ofNat (48 + n) else UInt8.ofNat (87 + n)

/-- The value of a digit. -/
def hexValue (b : UInt8) : Option ℕ :=
  if 48 ≤ b.toNat ∧ b.toNat ≤ 57 then some (b.toNat - 48)
  else if 97 ≤ b.toNat ∧ b.toNat ≤ 102 then some (b.toNat - 87)
  else if 65 ≤ b.toNat ∧ b.toNat ≤ 70 then some (b.toNat - 55)
  else none

/-- Two digits for every byte. -/
def hexEncode (bs : List UInt8) : List UInt8 := bs.flatMap fun b => [hexDigit (b.toNat / 16), hexDigit (b.toNat % 16)]

/-- The bytes of a string of an even number of digits. -/
def hexDecode : List UInt8 → Option (List UInt8)
  | [] => some []
  | [_] => none
  | a :: b :: s =>
    match hexValue a, hexValue b, hexDecode s with
    | some x, some y, some bs => some (UInt8.ofNat (16 * x + y) :: bs)
    | _, _, _ => none

theorem hexValue_hexDigit : ∀ {n : ℕ}, n < 16 → hexValue (hexDigit n) = some n := by decide

theorem hexDecode_hexEncode (bs : List UInt8) : hexDecode (hexEncode bs) = some bs := by
  induction bs with
  | nil => rfl
  | cons b bs ih =>
    have hb := b.toNat_lt
    have hcons : hexEncode (b :: bs) = hexDigit (b.toNat / 16) :: hexDigit (b.toNat % 16) :: hexEncode bs := rfl
    have hsum : 16 * (b.toNat / 16) + b.toNat % 16 = b.toNat := by omega
    rw [hcons, hexDecode, hexValue_hexDigit (by omega), hexValue_hexDigit (by omega), ih]
    simp [hsum]

theorem hexEncode_injective {as bs : List UInt8} (h : hexEncode as = hexEncode bs) : as = bs := by
  have hdec := congrArg hexDecode h
  rw [hexDecode_hexEncode, hexDecode_hexEncode] at hdec
  exact Option.some.inj hdec

@[simp] theorem length_hexEncode (bs : List UInt8) : (hexEncode bs).length = 2 * bs.length := by
  simp [hexEncode, List.length_flatMap]
  omega

theorem toNat_hexDigit : ∀ {n : ℕ}, n < 16 → 48 ≤ (hexDigit n).toNat := by decide

/-- A byte below the digits is not in an encoding. -/
theorem not_mem_hexEncode {b : UInt8} (hb : b.toNat < 48) (bs : List UInt8) : b ∉ hexEncode bs := by
  intro hmem
  obtain ⟨c, -, hc⟩ := List.mem_flatMap.1 hmem
  have hc' := c.toNat_lt
  have h1 := toNat_hexDigit (n := c.toNat / 16) (by omega)
  have h2 := toNat_hexDigit (n := c.toNat % 16) (by omega)
  simp only [List.mem_cons, List.not_mem_nil, or_false] at hc
  obtain rfl | rfl := hc <;> omega

end AdGuardHome.Lib
