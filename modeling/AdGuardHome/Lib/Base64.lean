import Mathlib.Data.List.Basic
import Mathlib.Tactic.IntervalCases

/-!
# Base64

The standard encoding with padding: what is written is read back.
-/

namespace AdGuardHome.Lib

/-- The digit of a number below 64. -/
def base64Digit (n : ℕ) : Char :=
  if n < 26 then Char.ofNat (65 + n)
  else if n < 52 then Char.ofNat (71 + n)
  else if n < 62 then Char.ofNat (n - 4)
  else if n = 62 then '+'
  else '/'

/-- The value of a digit. -/
def base64Value (c : Char) : Option ℕ :=
  if 'A' ≤ c ∧ c ≤ 'Z' then some (c.toNat - 65)
  else if 'a' ≤ c ∧ c ≤ 'z' then some (c.toNat - 71)
  else if '0' ≤ c ∧ c ≤ '9' then some (c.toNat + 4)
  else if c = '+' then some 62
  else if c = '/' then some 63
  else none

def base64Encode : List UInt8 → List Char
  | [] => []
  | [a] => [base64Digit (a.toNat / 4), base64Digit (a.toNat % 4 * 16), '=', '=']
  | [a, b] =>
    [base64Digit (a.toNat / 4), base64Digit (a.toNat % 4 * 16 + b.toNat / 16), base64Digit (b.toNat % 16 * 4), '=']
  | a :: b :: c :: bs =>
    base64Digit (a.toNat / 4) :: base64Digit (a.toNat % 4 * 16 + b.toNat / 16) ::
      base64Digit (b.toNat % 16 * 4 + c.toNat / 64) :: base64Digit (c.toNat % 64) :: base64Encode bs

/-- The bytes of groups of four digits, up to an error if there is one, and whether there is none. -/
def base64Groups : List Char → List UInt8 × Bool
  | [] => ([], true)
  | a :: b :: c :: d :: cs =>
    match base64Value a, base64Value b, base64Value c, base64Value d with
    | some x, some y, some z, some w =>
      let p := base64Groups cs
      (UInt8.ofNat (x * 4 + y / 16) :: UInt8.ofNat (y % 16 * 16 + z / 4) :: UInt8.ofNat (z % 4 * 64 + w) :: p.1, p.2)
    | some x, some y, some z, none =>
      if d = '=' then ([UInt8.ofNat (x * 4 + y / 16), UInt8.ofNat (y % 16 * 16 + z / 4)], cs.isEmpty) else ([], false)
    | some x, some y, none, _ =>
      if c = '=' ∧ d = '=' then ([UInt8.ofNat (x * 4 + y / 16)], cs.isEmpty) else ([], false)
    | _, _, _, _ => ([], false)
  | _ => ([], false)

/-- The bytes of a text, in which line breaks do not count. -/
def base64Decode (cs : List Char) : List UInt8 × Bool := base64Groups (cs.filter fun c => c ≠ '\r' ∧ c ≠ '\n')

theorem base64Value_digit {n : ℕ} (h : n < 64) : base64Value (base64Digit n) = some n := by
  interval_cases n <;> decide

theorem base64Groups_encode (bs : List UInt8) : base64Groups (base64Encode bs) = (bs, true) := by
  fun_induction base64Encode bs with
  | case1 => rfl
  | case2 a =>
    have ha := a.toNat_lt
    have hpad : base64Value '=' = none := by decide
    rw [base64Groups]
    simp only [base64Value_digit (show a.toNat / 4 < 64 by omega),
      base64Value_digit (show a.toNat % 4 * 16 < 64 by omega), hpad]
    rw [if_pos ⟨trivial, trivial⟩, show a.toNat / 4 * 4 + a.toNat % 4 * 16 / 16 = a.toNat by omega, UInt8.ofNat_toNat]
    rfl
  | case3 a b =>
    have ha := a.toNat_lt
    have hb := b.toNat_lt
    have hpad : base64Value '=' = none := by decide
    rw [base64Groups]
    simp only [base64Value_digit (show a.toNat / 4 < 64 by omega),
      base64Value_digit (show a.toNat % 4 * 16 + b.toNat / 16 < 64 by omega),
      base64Value_digit (show b.toNat % 16 * 4 < 64 by omega), hpad, if_true]
    rw [show a.toNat / 4 * 4 + (a.toNat % 4 * 16 + b.toNat / 16) / 16 = a.toNat by omega,
      show (a.toNat % 4 * 16 + b.toNat / 16) % 16 * 16 + b.toNat % 16 * 4 / 4 = b.toNat by omega, UInt8.ofNat_toNat,
      UInt8.ofNat_toNat]
    rfl
  | case4 a b c bs ih =>
    have ha := a.toNat_lt
    have hb := b.toNat_lt
    have hc := c.toNat_lt
    rw [base64Groups]
    simp only [base64Value_digit (show a.toNat / 4 < 64 by omega),
      base64Value_digit (show a.toNat % 4 * 16 + b.toNat / 16 < 64 by omega),
      base64Value_digit (show b.toNat % 16 * 4 + c.toNat / 64 < 64 by omega),
      base64Value_digit (show c.toNat % 64 < 64 by omega), ih]
    rw [show a.toNat / 4 * 4 + (a.toNat % 4 * 16 + b.toNat / 16) / 16 = a.toNat by omega,
      show (a.toNat % 4 * 16 + b.toNat / 16) % 16 * 16 + (b.toNat % 16 * 4 + c.toNat / 64) / 4 = b.toNat by omega,
      show (b.toNat % 16 * 4 + c.toNat / 64) % 4 * 64 + c.toNat % 64 = c.toNat by omega, UInt8.ofNat_toNat,
      UInt8.ofNat_toNat, UInt8.ofNat_toNat]

theorem base64Digit_ne_break {n : ℕ} (h : n < 64) : base64Digit n ≠ '\r' ∧ base64Digit n ≠ '\n' := by
  interval_cases n <;> decide

theorem base64Encode_no_break (bs : List UInt8) : ∀ c ∈ base64Encode bs, c ≠ '\r' ∧ c ≠ '\n' := by
  fun_induction base64Encode bs with
  | case1 => simp
  | case2 a =>
    have ha := a.toNat_lt
    simp [base64Digit_ne_break (show a.toNat / 4 < 64 by omega),
      base64Digit_ne_break (show a.toNat % 4 * 16 < 64 by omega)]
  | case3 a b =>
    have ha := a.toNat_lt
    have hb := b.toNat_lt
    simp [base64Digit_ne_break (show a.toNat / 4 < 64 by omega),
      base64Digit_ne_break (show a.toNat % 4 * 16 + b.toNat / 16 < 64 by omega),
      base64Digit_ne_break (show b.toNat % 16 * 4 < 64 by omega)]
  | case4 a b c bs ih =>
    have ha := a.toNat_lt
    have hb := b.toNat_lt
    have hc := c.toNat_lt
    simp only [List.mem_cons, forall_eq_or_imp]
    exact ⟨base64Digit_ne_break (by omega), base64Digit_ne_break (by omega), base64Digit_ne_break (by omega),
      base64Digit_ne_break (by omega), ih⟩

/-- What is written is read back. -/
theorem base64Decode_encode (bs : List UInt8) : base64Decode (base64Encode bs) = (bs, true) := by
  rw [base64Decode, List.filter_eq_self.2 fun c hc => by simpa using base64Encode_no_break bs c hc,
    base64Groups_encode]

end AdGuardHome.Lib
