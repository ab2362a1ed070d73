import AdGuardHome.Lib.GoMap
import Mathlib.Data.BitVec

/-!
# Sparse bit sets

The set of leased offsets: a map from word numbers to 64-bit words.  `isSet_set` is the only fact
about it that the servers need.
-/

namespace AdGuardHome.Dhcp

open AdGuardHome.Lib

/-- A sparse bit set. -/
structure BitSet where
  words : GoMap (BitVec 64) (BitVec 64)

namespace BitSet

def bitsPerWord : BitVec 64 := 64

/-- The set with no bit set. -/
def newBitSet : BitSet := ⟨GoMap.empty⟩

/-- Whether bit `n` is set. -/
def isSet (s : BitSet) (n : BitVec 64) : Bool :=
  let wordIdx := n / bitsPerWord
  let bitIdx := n % bitsPerWord
  match s.words.get wordIdx with
  | none => false
  | some word => word &&& (1#64 <<< bitIdx) != 0

/-- Sets or unsets bit `n`. -/
def set (s : BitSet) (n : BitVec 64) (ok : Bool) : BitSet :=
  let wordIdx := n / bitsPerWord
  let bitIdx := n % bitsPerWord
  let word := (s.words.get wordIdx).getD 0
  ⟨s.words.set wordIdx (if ok then word ||| (1#64 <<< bitIdx) else word &&& ~~~(1#64 <<< bitIdx))⟩

@[simp] theorem isSet_newBitSet (n : BitVec 64) : newBitSet.isSet n = false := by
  simp [isSet, newBitSet]

theorem toNat_mod_bitsPerWord_lt (n : BitVec 64) : (n % bitsPerWord).toNat < 64 := by
  rw [BitVec.toNat_umod]
  exact Nat.mod_lt _ (by decide)

theorem getLsbD_one_shiftLeft {i : BitVec 64} (hi : i.toNat < 64) (j : ℕ) :
    (1#64 <<< i).getLsbD j = decide (j = i.toNat) := by
  rw [BitVec.shiftLeft_eq', BitVec.getLsbD_shiftLeft, BitVec.getLsbD_one]
  by_cases hj : j = i.toNat
  · subst hj; simp [hi]
  · simp only [hj, decide_false]
    by_cases hlt : j < i.toNat
    · simp [hlt]
    · have : j - i.toNat ≠ 0 := by omega
      simp [this]

/-- Masking with one bit tests that bit. -/
theorem and_one_shiftLeft_ne_zero (w : BitVec 64) {i : BitVec 64} (hi : i.toNat < 64) :
    (w &&& (1#64 <<< i) != 0) = w.getLsbD i.toNat := by
  rw [Bool.eq_iff_iff, bne_iff_ne]
  constructor
  · intro h
    by_contra hw
    apply h
    apply BitVec.eq_of_getLsbD_eq
    intro j _
    rw [BitVec.getLsbD_and, getLsbD_one_shiftLeft hi]
    by_cases hj : j = i.toNat
    · subst hj; simpa using hw
    · simp [hj]
  · intro hw h
    have hbit : (w &&& (1#64 <<< i)).getLsbD i.toNat = false := by rw [h]; exact BitVec.getLsbD_zero
    rw [BitVec.getLsbD_and, getLsbD_one_shiftLeft hi, hw] at hbit
    simp at hbit

theorem isSet_eq (s : BitSet) (n : BitVec 64) :
    s.isSet n = ((s.words.get (n / bitsPerWord)).getD 0).getLsbD (n % bitsPerWord).toNat := by
  unfold isSet
  dsimp only
  cases s.words.get (n / bitsPerWord) with
  | none => exact BitVec.getLsbD_zero.symm
  | some word => exact and_one_shiftLeft_ne_zero word (toNat_mod_bitsPerWord_lt n)

/-- A number is determined by its word and its place in the word. -/
theorem eq_of_word_bit {m n : BitVec 64} (hq : m / bitsPerWord = n / bitsPerWord)
    (hr : (m % bitsPerWord).toNat = (n % bitsPerWord).toNat) : m = n := by
  apply BitVec.eq_of_toNat_eq
  have hq' := congrArg BitVec.toNat hq
  rw [BitVec.toNat_udiv, BitVec.toNat_udiv] at hq'
  rw [BitVec.toNat_umod, BitVec.toNat_umod] at hr
  rw [← Nat.div_add_mod m.toNat bitsPerWord.toNat, hq', hr, Nat.div_add_mod]

/-- The word that `set` stores, bit by bit. -/
theorem getLsbD_setBit (w : BitVec 64) {i : BitVec 64} (hi : i.toNat < 64) (ok : Bool) {j : ℕ} (hj : j < 64) :
    (if ok then w ||| (1#64 <<< i) else w &&& ~~~(1#64 <<< i)).getLsbD j =
      if j = i.toNat then ok else w.getLsbD j := by
  cases ok
  · rw [if_neg Bool.false_ne_true, BitVec.getLsbD_and, BitVec.getLsbD_not, getLsbD_one_shiftLeft hi]
    by_cases h : j = i.toNat <;> simp [h, hj]
  · rw [if_pos rfl, BitVec.getLsbD_or, getLsbD_one_shiftLeft hi]
    by_cases h : j = i.toNat <;> simp [h]

/-- Setting a bit changes that bit only. -/
theorem isSet_set (s : BitSet) (n m : BitVec 64) (ok : Bool) :
    (s.set n ok).isSet m = if m = n then ok else s.isSet m := by
  rw [isSet_eq, isSet_eq]
  unfold set
  dsimp only
  rw [GoMap.get_set]
  by_cases hq : m / bitsPerWord = n / bitsPerWord
  · rw [if_pos hq, hq, Option.getD_some,
      getLsbD_setBit _ (toNat_mod_bitsPerWord_lt n) ok (toNat_mod_bitsPerWord_lt m)]
    by_cases hr : (m % bitsPerWord).toNat = (n % bitsPerWord).toNat
    · rw [if_pos hr, if_pos (eq_of_word_bit hq hr)]
    · rw [if_neg hr, if_neg (fun h : m = n => hr (by rw [h]))]
  · rw [if_neg hq, if_neg (fun h : m = n => hq (by rw [h]))]

/-! ## Several calls -/

/-- The set after calls of `set`. -/
def sets (s : BitSet) (ops : List (BitVec 64 × Bool)) : BitSet := ops.foldl (fun s op => s.set op.1 op.2) s

/-- The value in the last of the calls for a bit, if there is one. -/
def lastSet (ops : List (BitVec 64 × Bool)) (n : BitVec 64) : Option Bool :=
  (ops.reverse.find? fun op => op.1 = n).map Prod.snd

/-- A bit has the value that it was set to last. -/
theorem isSet_sets (s : BitSet) (ops : List (BitVec 64 × Bool)) (n : BitVec 64) :
    (s.sets ops).isSet n = (lastSet ops n).getD (s.isSet n) := by
  induction ops using List.reverseRecOn with
  | nil => rfl
  | append_singleton ops op ih =>
    have hsets : s.sets (ops ++ [op]) = (s.sets ops).set op.1 op.2 := List.foldl_concat _ _ _ _
    rw [hsets, isSet_set, lastSet, List.reverse_concat]
    by_cases hn : n = op.1
    · rw [if_pos hn, List.find?_cons_of_pos (by simp [hn]), Option.map_some, Option.getD_some]
    · rw [if_neg hn, List.find?_cons_of_neg (by simpa using Ne.symm hn)]
      exact ih

end BitSet

end AdGuardHome.Dhcp
