import Mathlib.Data.List.Induction
import Mathlib.Data.Nat.Notation
import Mathlib.Tactic.Ring

/-!
# Big-endian numbers and records with a length

Numbers of a fixed width as bytes, the highest byte first, and the records of two-byte codes and two-byte lengths that
many network protocols use for their options.
-/

namespace AdGuardHome.Lib

/-- The number that the bytes stand for. -/
def ofBigEndian (bs : List UInt8) : ℕ := bs.foldl (fun n b => n * 256 + b.toNat) 0

/-- The lower bytes of a number. -/
def toBigEndian : ℕ → ℕ → List UInt8
  | 0, _ => []
  | n + 1, v => toBigEndian n (v / 256) ++ [UInt8.ofNat (v % 256)]

theorem ofBigEndian_concat (bs : List UInt8) (b : UInt8) : ofBigEndian (bs ++ [b]) = ofBigEndian bs * 256 + b.toNat := by
  unfold ofBigEndian
  rw [List.foldl_append]
  rfl

@[simp] theorem length_toBigEndian (n v : ℕ) : (toBigEndian n v).length = n := by
  induction n generalizing v with
  | zero => rfl
  | succ n ih => simp [toBigEndian, ih]

theorem ofBigEndian_lt (bs : List UInt8) : ofBigEndian bs < 256 ^ bs.length := by
  induction bs using List.reverseRecOn with
  | nil => decide
  | append_singleton bs b ih =>
    have hb := b.toNat_lt
    rw [ofBigEndian_concat, List.length_append, List.length_singleton, Nat.pow_succ]
    omega

theorem ofBigEndian_toBigEndian {n v : ℕ} (h : v < 256 ^ n) : ofBigEndian (toBigEndian n v) = v := by
  induction n generalizing v with
  | zero =>
    rw [Nat.pow_zero, Nat.lt_one_iff] at h
    rw [h]
    rfl
  | succ n ih =>
    have hdiv : v / 256 < 256 ^ n := by
      rw [Nat.pow_succ] at h
      exact Nat.div_lt_of_lt_mul (by rwa [Nat.mul_comm])
    have hmod : (UInt8.ofNat (v % 256)).toNat = v % 256 := by
      rw [UInt8.toNat_ofNat']
      omega
    rw [toBigEndian, ofBigEndian_concat, ih hdiv, hmod]
    omega

theorem toBigEndian_ofBigEndian (bs : List UInt8) : toBigEndian bs.length (ofBigEndian bs) = bs := by
  induction bs using List.reverseRecOn with
  | nil => rfl
  | append_singleton bs b ih =>
    have hb := b.toNat_lt
    rw [List.length_append, List.length_singleton, toBigEndian, ofBigEndian_concat,
      show (ofBigEndian bs * 256 + b.toNat) / 256 = ofBigEndian bs by omega,
      show (ofBigEndian bs * 256 + b.toNat) % 256 = b.toNat by omega, ih, UInt8.ofNat_toNat]

/-! ## Records -/

/-- A record with a code; its length has to fit into two bytes. -/
structure Record where
  code : UInt16
  data : List UInt8
  short : data.length < 256 ^ 2

namespace Record

def encode (r : Record) : List UInt8 := toBigEndian 2 r.code.toNat ++ toBigEndian 2 r.data.length ++ r.data

theorem length_encode (r : Record) : r.encode.length = 4 + r.data.length := by
  unfold encode
  simp only [List.length_append, length_toBigEndian]

/-- The header and the data of a record in front of other bytes. -/
theorem parts_encode_append (r : Record) (rest : List UInt8) :
    ofBigEndian ((r.encode ++ rest).take 2) = r.code.toNat ∧
      ofBigEndian (((r.encode ++ rest).take 4).drop 2) = r.data.length ∧
      ((r.encode ++ rest).take (4 + r.data.length)).drop 4 = r.data ∧
      (r.encode ++ rest).drop (4 + r.data.length) = rest := by
  have hcode := length_toBigEndian 2 r.code.toNat
  have hlen := length_toBigEndian 2 r.data.length
  have hheader : (toBigEndian 2 r.code.toNat ++ toBigEndian 2 r.data.length).length = 4 := by
    rw [List.length_append, hcode, hlen]
  refine ⟨?_, ?_, ?_, ?_⟩
  · unfold encode
    rw [List.append_assoc, List.append_assoc, List.take_left' hcode]
    exact ofBigEndian_toBigEndian r.code.toNat_lt
  · unfold encode
    rw [List.append_assoc, List.take_left' hheader, List.drop_left' hcode]
    exact ofBigEndian_toBigEndian r.short
  · rw [List.take_left' r.length_encode]
    exact List.drop_left' hheader
  · exact List.drop_left' r.length_encode

/-- Bytes that have room for a record start with one. -/
theorem exists_encode {bs : List UInt8} (h : 4 + ofBigEndian ((bs.take 4).drop 2) ≤ bs.length) :
    ∃ r : Record, bs = r.encode ++ bs.drop (4 + r.data.length) := by
  have hcode := ofBigEndian_lt (bs.take 2)
  have hlen := ofBigEndian_lt ((bs.take 4).drop 2)
  have hcode2 : (bs.take 2).length = 2 := by
    rw [List.length_take]
    omega
  have hlen2 : ((bs.take 4).drop 2).length = 2 := by
    rw [List.length_drop, List.length_take]
    omega
  have hc := toBigEndian_ofBigEndian (bs.take 2)
  have hl := toBigEndian_ofBigEndian ((bs.take 4).drop 2)
  rw [hcode2] at hcode hc
  rw [hlen2] at hlen hl
  have hdata : ((bs.drop 4).take (ofBigEndian ((bs.take 4).drop 2))).length = ofBigEndian ((bs.take 4).drop 2) := by
    rw [List.length_take, List.length_drop]
    omega
  have hcodeNat : (UInt16.ofNat (ofBigEndian (bs.take 2))).toNat = ofBigEndian (bs.take 2) := by
    rw [UInt16.toNat_ofNat']
    omega
  refine ⟨⟨UInt16.ofNat (ofBigEndian (bs.take 2)), (bs.drop 4).take (ofBigEndian ((bs.take 4).drop 2)),
    by rw [hdata]; exact hlen⟩, ?_⟩
  have hsplit : bs.take 2 ++ (bs.take 4).drop 2 = bs.take 4 := by
    rw [show bs.take 2 = (bs.take 4).take 2 by rw [List.take_take]; rfl, List.take_append_drop]
  simp only [encode, hdata, hcodeNat, hc, hl, hsplit]
  rw [List.append_assoc, ← List.drop_drop, List.take_append_drop, List.take_append_drop]

end Record

end AdGuardHome.Lib
