import Mathlib.Data.Int.Log
import Mathlib.Data.Rat.Floor
import Mathlib.Tactic.Ring
import Mathlib.Tactic.FieldSimp

/-!
# 64-bit floating-point numbers

The finite numbers of the binary format with 53 bits as rational numbers: every operation is that on rational numbers
with its result rounded to the nearest number of the format, the one with an even significand of two.  A result with
the absolute value `2 ^ 1024` or more stands for an infinity.  Integers of less than 53 bits are not rounded.
-/

namespace AdGuardHome.Lib.Float64

/-- The nearest integer, the even one of two. -/
def roundEven (q : ℚ) : ℤ :=
  if q - ⌊q⌋ < 1 / 2 ∨ q - ⌊q⌋ = 1 / 2 ∧ ⌊q⌋ % 2 = 0 then ⌊q⌋ else ⌊q⌋ + 1

/-- The nearest multiple of a unit. -/
def roundAt (unit q : ℚ) : ℚ := roundEven (q / unit) * unit

/-- The nearest number of the format. -/
def float64 (q : ℚ) : ℚ := roundAt (2 ^ max (Int.log 2 |q| - 52) (-1074)) q

def isInf (q : ℚ) : Bool := 2 ^ 1024 ≤ |q|

/-- The integer part, or what an implementation gives for a number that is out of range. -/
def toInt64 (outOfRange : ℚ → ℤ) (q : ℚ) : ℤ :=
  let n := if 0 ≤ q then ⌊q⌋ else ⌈q⌉
  if -2 ^ 63 ≤ n ∧ n < 2 ^ 63 then n else outOfRange q

/-- The nearest decimal with so many significant digits. -/
def roundDecimal (digits : ℕ) (q : ℚ) : ℚ := roundAt (10 ^ (Int.log 10 |q| + 1 - digits)) q

/-- The shortest decimal that is rounded to a number of the format. -/
def shortest (q : ℚ) : ℚ :=
  (((List.range 17).map fun k => roundDecimal (k + 1) q).find? fun d => float64 d = q).getD q

theorem roundEven_intCast (n : ℤ) : roundEven n = n := by
  simp [roundEven]

theorem roundAt_mul {unit : ℚ} (h : unit ≠ 0) (n : ℤ) : roundAt unit (n * unit) = n * unit := by
  rw [roundAt, mul_div_assoc, div_self h, mul_one, roundEven_intCast]

/-- An integer of less than 53 bits is a multiple of the unit that it is rounded at. -/
theorem float64_intCast {n : ℤ} (h : |n| < 2 ^ 53) : float64 n = n := by
  have hlog : Int.log 2 |(n : ℚ)| ≤ 52 := by
    rcases eq_or_ne n 0 with rfl | hn
    · simp
    · have hpos : (0 : ℚ) < |(n : ℚ)| := abs_pos.2 (Int.cast_ne_zero.2 hn)
      have hlt : |(n : ℚ)| < ((2 : ℕ) : ℚ) ^ (53 : ℤ) := by exact_mod_cast h
      have := (Int.lt_zpow_iff_log_lt (by decide) hpos).1 hlt
      omega
  obtain ⟨k, hk⟩ : ∃ k : ℕ, max (Int.log 2 |(n : ℚ)| - 52) (-1074) = -k :=
    ⟨(-max (Int.log 2 |(n : ℚ)| - 52) (-1074)).toNat, by omega⟩
  have hunit : (2 : ℚ) ^ (-(k : ℤ)) ≠ 0 := zpow_ne_zero _ two_ne_zero
  have hmul : (n : ℚ) = ((n * 2 ^ k : ℤ) : ℚ) * 2 ^ (-(k : ℤ)) := by
    rw [zpow_neg, zpow_natCast]
    push_cast
    field_simp
  rw [float64, hk]
  conv_lhs => rw [hmul]
  rw [roundAt_mul hunit, ← hmul]

theorem isInf_intCast {n : ℤ} (h : |n| < 2 ^ 53) : isInf n = false := by
  have hlt : |(n : ℚ)| < 2 ^ 53 := by exact_mod_cast h
  have hpow : (2 : ℚ) ^ 53 ≤ 2 ^ 1024 := pow_le_pow_right₀ one_le_two (by decide)
  unfold isInf
  exact decide_eq_false (not_le_of_gt (lt_of_lt_of_le hlt hpow))

/-- The shortest decimal of a number is read as the number. -/
theorem float64_shortest {q : ℚ} (h : float64 q = q) : float64 (shortest q) = q := by
  unfold shortest
  cases hfind : ((List.range 17).map fun k => roundDecimal (k + 1) q).find? fun d => float64 d = q with
  | none => exact h
  | some d => simpa using List.find?_some hfind

theorem toInt64_intCast (outOfRange : ℚ → ℤ) {n : ℤ} (h : |n| < 2 ^ 63) : toInt64 outOfRange n = n := by
  have hn : (if (0 : ℚ) ≤ n then ⌊(n : ℚ)⌋ else ⌈(n : ℚ)⌉) = n := by
    split
    · exact Int.floor_intCast n
    · exact Int.ceil_intCast n
  have hrange := abs_lt.1 h
  simp only [toInt64, hn]
  exact if_pos ⟨hrange.1.le, hrange.2⟩

end AdGuardHome.Lib.Float64
