import AdGuardHome.Lib.Utf8
import AdGuardHome.Querylog.Timestamp
import Mathlib.Data.List.TakeWhile
import Mathlib.Data.Nat.Find
import Mathlib.Tactic.IntervalCases

/-!
# Texts of times

A time in the RFC 3339 format, as the encoder of the query log writes it, is read as the same time.
-/

namespace AdGuardHome.Querylog

open AdGuardHome.Lib

/-- The year of a day. -/
def yearOf (days : ℤ) : ℕ := Nat.findGreatest (fun y => daysSinceYearOne y 1 1 ≤ days) (days / 365 + 1).toNat

/-- The month of a day of the year. -/
def monthOf (y : ℕ) (days : ℤ) : ℕ := Nat.findGreatest (fun m => 1 ≤ m ∧ daysSinceYearOne y m 1 ≤ days) 12

/-- So many decimal digits. -/
def padded : ℕ → ℕ → List Char
  | 0, _ => []
  | w + 1, n => padded w (n / 10) ++ [Char.ofNat (48 + n % 10)]

/-- The fraction of a second, without zeros at the end. -/
def fraction (nsec : ℕ) : List Char :=
  if nsec = 0 then [] else '.' :: ((padded 9 nsec).reverse.dropWhile (· = '0')).reverse

/-- The offset of a zone in minutes. -/
def zoneText (offset : ℤ) : List Char :=
  if offset = 0 then ['Z']
  else (if offset < 0 then '-' else '+') :: (padded 2 (offset.natAbs / 60) ++ ':' :: padded 2 (offset.natAbs % 60))

/-- `Time.MarshalJSON` without the quotation marks, for a time in a zone with the offset in minutes: `none` is an
error.  The nanoseconds of a time are less than a second. -/
def formatRFC3339Nano (offset : ℤ) (t : Time) : Option (List Char) :=
  let sec := t.sec + offset * 60
  let days := sec / 86400
  let y := yearOf days
  let m := monthOf y days
  let d := (days - daysSinceYearOne y m 1 + 1).toNat
  let s := (sec % 86400).toNat
  if days < daysSinceYearOne 0 1 1 ∨ daysSinceYearOne 10000 1 1 ≤ days ∨ 24 * 60 ≤ offset.natAbs ∨ 10 ^ 9 ≤ t.nsec then none
  else some <|
    padded 4 y ++ '-' :: (padded 2 m ++ '-' :: (padded 2 d ++ 'T' :: (padded 2 (s / 3600) ++ ':' ::
      (padded 2 (s / 60 % 60) ++ ':' :: (padded 2 (s % 60) ++ (fraction t.nsec ++ zoneText offset))))))

example : formatRFC3339Nano 120 ⟨63808128305, 120000000⟩ = some "2023-01-01T02:05:05.12+02:00".toList := by
  decide +kernel

/-! ## Days -/

theorem daysSinceYearOne_month (y : ℕ) {m : ℕ} (h : 1 ≤ m) :
    daysSinceYearOne y (m + 1) 1 = daysSinceYearOne y m 1 + daysIn y m := by
  obtain ⟨k, rfl⟩ := Nat.exists_eq_add_of_le' h
  simp only [daysSinceYearOne, Nat.add_sub_cancel, List.range_succ, List.map_append, List.sum_append, List.map_singleton,
    List.sum_singleton]
  push_cast
  omega

theorem daysSinceYearOne_year (y : ℕ) : daysSinceYearOne (y + 1) 1 1 = daysSinceYearOne y 12 1 + 31 := by
  have hmonths : ((List.range (12 - 1)).map fun i => daysIn y (i + 1)).sum = 306 + daysIn y 2 := by
    simp [List.range_succ, daysIn]
    omega
  have h4 : (y : ℤ) / 4 = ((y : ℤ) - 1) / 4 + if (y : ℤ) % 4 = 0 then 1 else 0 := by split <;> omega
  have h100 : (y : ℤ) / 100 = ((y : ℤ) - 1) / 100 + if (y : ℤ) % 100 = 0 then 1 else 0 := by split <;> omega
  have h400 : (y : ℤ) / 400 = ((y : ℤ) - 1) / 400 + if (y : ℤ) % 400 = 0 then 1 else 0 := by split <;> omega
  have hleap : (daysIn y 2 : ℤ) = 28 + (if (y : ℤ) % 4 = 0 then 1 else 0) - (if (y : ℤ) % 100 = 0 then 1 else 0)
      + (if (y : ℤ) % 400 = 0 then 1 else 0) := by
    rw [daysIn, if_pos rfl]
    split_ifs <;> first | rfl | omega
  simp only [daysSinceYearOne, hmonths]
  push_cast
  simp only [List.range_zero, List.map_nil, List.sum_nil, add_sub_cancel_right]
  omega

theorem daysSinceYearOne_day (y m d : ℕ) : daysSinceYearOne y m d = daysSinceYearOne y m 1 + d - 1 := by
  simp only [daysSinceYearOne]
  push_cast
  omega

theorem le_daysSinceYearOne (y : ℕ) : 365 * (y : ℤ) ≤ daysSinceYearOne (y + 1) 1 1 := by
  simp only [daysSinceYearOne, Nat.sub_self, List.range_zero, List.map_nil, List.sum_nil]
  push_cast
  omega

theorem lt_of_daysSinceYearOne_lt {y z : ℕ} (h : daysSinceYearOne y 1 1 < daysSinceYearOne z 1 1) : y < z := by
  have hmono : StrictMono fun y => daysSinceYearOne y 1 1 := by
    refine strictMono_nat_of_lt_succ fun y => ?_
    simp only [daysSinceYearOne, Nat.sub_self, List.range_zero, List.map_nil, List.sum_nil]
    push_cast
    omega
  exact hmono.lt_iff_lt.1 h

theorem yearOf_spec {days : ℤ} (h0 : daysSinceYearOne 0 1 1 ≤ days) (h1 : days < daysSinceYearOne 10000 1 1) :
    yearOf days < 10000 ∧ daysSinceYearOne (yearOf days) 1 1 ≤ days
      ∧ days < daysSinceYearOne (yearOf days + 1) 1 1 := by
  have hspec : daysSinceYearOne (yearOf days) 1 1 ≤ days :=
    Nat.findGreatest_spec (P := fun y => daysSinceYearOne y 1 1 ≤ days) (Nat.zero_le _) h0
  have hgreatest : yearOf days + 1 ≤ (days / 365 + 1).toNat → ¬ daysSinceYearOne (yearOf days + 1) 1 1 ≤ days :=
    Nat.findGreatest_is_greatest (P := fun y => daysSinceYearOne y 1 1 ≤ days) (Nat.lt_add_one (yearOf days))
  refine ⟨lt_of_daysSinceYearOne_lt (hspec.trans_lt h1), hspec, ?_⟩
  by_cases hlast : yearOf days + 1 ≤ (days / 365 + 1).toNat
  · exact not_le.1 (hgreatest hlast)
  · have := le_daysSinceYearOne (yearOf days)
    omega

theorem monthOf_spec {y : ℕ} {days : ℤ} (h0 : daysSinceYearOne y 1 1 ≤ days)
    (h1 : days < daysSinceYearOne (y + 1) 1 1) :
    1 ≤ monthOf y days ∧ monthOf y days ≤ 12 ∧ daysSinceYearOne y (monthOf y days) 1 ≤ days
      ∧ days < daysSinceYearOne y (monthOf y days) 1 + daysIn y (monthOf y days) := by
  have hle : monthOf y days ≤ 12 := Nat.findGreatest_le _
  obtain ⟨hpos, hdays⟩ : 1 ≤ monthOf y days ∧ daysSinceYearOne y (monthOf y days) 1 ≤ days :=
    Nat.findGreatest_spec (P := fun m => 1 ≤ m ∧ daysSinceYearOne y m 1 ≤ days) (by decide : 1 ≤ 12) ⟨le_rfl, h0⟩
  refine ⟨hpos, hle, hdays, ?_⟩
  by_cases hlast : monthOf y days = 12
  · rw [daysSinceYearOne_year] at h1
    rw [hlast]
    exact h1
  · have hnot := Nat.findGreatest_is_greatest (P := fun m => 1 ≤ m ∧ daysSinceYearOne y m 1 ≤ days)
      (Nat.lt_add_one (monthOf y days)) (by omega : monthOf y days + 1 ≤ 12)
    have hnext := daysSinceYearOne_month y hpos
    simp only [not_and] at hnot
    have := hnot (by omega)
    omega

/-! ## Digits -/

theorem utf8_digit {n : ℕ} (h : n < 10) : String.utf8EncodeChar (Char.ofNat (48 + n)) = [UInt8.ofNat (48 + n)] := by
  interval_cases n <;> decide

theorem takeDigits_succ (w acc : ℕ) {n : ℕ} (h : n < 10) (s : Bytes) :
    takeDigits (w + 1) acc (UInt8.ofNat (48 + n) :: s) = takeDigits w (acc * 10 + n) s := by
  have hrange : (48 : UInt8) ≤ UInt8.ofNat (48 + n) ∧ UInt8.ofNat (48 + n) ≤ 57 := by
    interval_cases n <;> decide
  have hval : (UInt8.ofNat (48 + n)).toNat - 48 = n := by
    interval_cases n <;> decide
  rw [takeDigits, if_pos hrange, hval]

theorem takeDigits_padded (w : ℕ) {n : ℕ} (hn : n < 10 ^ w) (acc : ℕ) {k : ℕ} (s : Bytes) :
    takeDigits (w + k) acc (utf8 (padded w n) ++ s) = takeDigits k (acc * 10 ^ w + n) s := by
  induction w generalizing n k s with
  | zero => simp [padded, show n = 0 by simpa using hn]
  | succ w ih =>
    have hdigit := utf8_digit (Nat.mod_lt n (by decide : 0 < 10))
    rw [padded, utf8_append, List.append_assoc, show w + 1 + k = w + (k + 1) by omega,
      ih (by rw [pow_succ] at hn; omega), utf8_cons, hdigit, utf8_nil, List.append_nil, List.singleton_append,
      takeDigits_succ _ _ (Nat.mod_lt n (by decide))]
    congr 1
    rw [pow_succ, ← Nat.mul_assoc]
    generalize acc * 10 ^ w = a
    omega

/-- A number of so many digits is read. -/
theorem takeDigits_number {w n : ℕ} (hn : n < 10 ^ w) (s : Bytes) :
    takeDigits w 0 (utf8 (padded w n) ++ s) = some (n, s) := by
  have := takeDigits_padded w hn 0 (k := 0) s
  simpa [takeDigits] using this

/-! ## Fractions and zones -/

theorem length_padded (w n : ℕ) : (padded w n).length = w := by
  induction w generalizing n with
  | zero => rfl
  | succ w ih => rw [padded, List.length_append, ih, List.length_singleton]

/-- The digits have the bytes of digits. -/
theorem mem_padded {w n : ℕ} {c : Char} (h : c ∈ padded w n) : ∃ d < 10, c = Char.ofNat (48 + d) := by
  induction w generalizing n with
  | zero => simp [padded] at h
  | succ w ih =>
    rw [padded, List.mem_append, List.mem_singleton] at h
    obtain h | rfl := h
    · exact ih h
    · exact ⟨n % 10, Nat.mod_lt n (by decide), rfl⟩

theorem utf8_digits {cs : List Char} (h : ∀ c ∈ cs, ∃ d < 10, c = Char.ofNat (48 + d)) :
    (utf8 cs).length = cs.length ∧ ∀ b ∈ utf8 cs, 48 ≤ b ∧ b ≤ 57 := by
  induction cs with
  | nil => simp
  | cons c cs ih =>
    obtain ⟨d, hd, rfl⟩ := h c (by simp)
    obtain ⟨hlen, hmem⟩ := ih fun c hc => h c (by simp [hc])
    rw [utf8_cons, utf8_digit hd, List.singleton_append]
    refine ⟨by simp [hlen], ?_⟩
    intro b hb
    obtain rfl | hb := List.mem_cons.1 hb
    · interval_cases d <;> decide
    · exact hmem b hb

theorem foldl_padded (w n acc : ℕ) (hn : n < 10 ^ w) :
    (utf8 (padded w n)).foldl (fun acc (b : UInt8) => acc * 10 + (b.toNat - 48)) acc = acc * 10 ^ w + n := by
  induction w generalizing n with
  | zero => simp [padded, show n = 0 by simpa using hn]
  | succ w ih =>
    have hmod := Nat.mod_lt n (by decide : 0 < 10)
    have hval : (UInt8.ofNat (48 + n % 10)).toNat - 48 = n % 10 := by
      generalize n % 10 = d at hmod
      interval_cases d <;> decide
    rw [padded, utf8_append, utf8_cons, utf8_digit hmod, utf8_nil, List.append_nil, List.foldl_append,
      ih (n / 10) (by rw [pow_succ] at hn; omega), List.foldl_cons, List.foldl_nil, hval, pow_succ, ← Nat.mul_assoc]
    generalize acc * 10 ^ w = a
    omega

/-- The digits without the zeros at their end, and the zeros. -/
theorem trimmed_append (cs : List Char) :
    ∃ k, cs = (cs.reverse.dropWhile (· = '0')).reverse ++ List.replicate k '0' := by
  refine ⟨(cs.reverse.takeWhile (· = '0')).length, ?_⟩
  have hzeros : cs.reverse.takeWhile (· = '0') = List.replicate (cs.reverse.takeWhile (· = '0')).length '0' :=
    List.eq_replicate_iff.2 ⟨rfl, fun c hc => by simpa using List.mem_takeWhile_imp hc⟩
  conv_lhs => rw [← List.reverse_reverse cs, ← List.takeWhile_append_dropWhile (p := fun c : Char => (c = '0' : Bool))
    (l := cs.reverse), List.reverse_append, hzeros, List.reverse_replicate]

/-- What follows the seconds and their fraction: no digit and no point. -/
def ZoneStart (s : Bytes) : Prop := ∀ b ∈ s.head?, b ≠ 46 ∧ ¬ (48 ≤ b ∧ b ≤ 57)

theorem takeFraction_fraction {nsec : ℕ} (hn : nsec < 10 ^ 9) {s : Bytes} (hs : ZoneStart s) :
    takeFraction (utf8 (fraction nsec) ++ s) = (nsec, s) := by
  unfold fraction
  split
  · rename_i h0
    have hnone : takeByte 46 s = none := by
      cases s with
      | nil => rfl
      | cons b s => rw [takeByte, if_neg (hs b rfl).1]
    rw [utf8_nil, List.nil_append, takeFraction, hnone, h0]
  · obtain ⟨k, hk⟩ := trimmed_append (padded 9 nsec)
    generalize hT : ((padded 9 nsec).reverse.dropWhile (· = '0')).reverse = trimmed at hk
    have hmem : ∀ c ∈ trimmed, ∃ d < 10, c = Char.ofNat (48 + d) := fun c hc => mem_padded (by rw [hk]; simp [hc])
    obtain ⟨hlen, hdigits⟩ := utf8_digits hmem
    have htake : (utf8 trimmed ++ s).takeWhile (fun b => (48 ≤ b ∧ b ≤ 57 : Bool)) = utf8 trimmed := by
      rw [List.takeWhile_append_of_pos fun b hb => by simpa using hdigits b hb]
      cases s with
      | nil => simp
      | cons b s => simpa using (hs b rfl).2
    have hpoint : utf8 ('.' :: trimmed) = 46 :: utf8 trimmed := rfl
    have hzeros : ∀ k, utf8 (List.replicate k '0') = List.replicate k 48 := by
      intro k
      induction k with
      | zero => rfl
      | succ k ih => rw [List.replicate_succ, utf8_cons, ih]; rfl
    have hall : (utf8 trimmed ++ List.replicate 9 48).take 9 = utf8 (padded 9 nsec) := by
      have h9 := length_padded 9 nsec
      rw [hk, List.length_append, List.length_replicate] at h9
      rw [hk, utf8_append, hzeros, List.take_append, List.take_of_length_le (by omega), List.take_replicate]
      congr 2
      omega
    have hfold := foldl_padded 9 nsec 0 hn
    rw [hpoint, List.cons_append, takeFraction, takeByte, if_pos rfl]
    simp only [htake, hall, hfold, List.drop_left]
    simp

theorem takeByte_utf8 {c : Char} {b : UInt8} (h : String.utf8EncodeChar c = [b]) (cs : List Char) (s : Bytes) :
    takeByte b (utf8 (c :: cs) ++ s) = some (utf8 cs ++ s) := by
  rw [utf8_cons, h, List.append_assoc, List.singleton_append, takeByte, if_pos rfl]

theorem takeZone_zoneText {offset : ℤ} (h : offset.natAbs < 24 * 60) :
    takeZone (utf8 (zoneText offset)) = some offset ∧ ZoneStart (utf8 (zoneText offset)) := by
  unfold zoneText
  split
  · rename_i h0
    rw [h0]
    refine ⟨rfl, fun b hb => ?_⟩
    obtain rfl : (90 : UInt8) = b := Option.some.inj hb
    decide
  · have hread : ∀ sign : UInt8, sign = 43 ∨ sign = 45 →
        takeZone (sign :: utf8 (padded 2 (offset.natAbs / 60) ++ ':' :: padded 2 (offset.natAbs % 60)))
          = if sign = 43 then some (offset.natAbs : ℤ) else some (-(offset.natAbs : ℤ)) := by
      intro sign hsign
      have hhour := takeDigits_number (w := 2) (n := offset.natAbs / 60) (by omega)
        (utf8 (':' :: padded 2 (offset.natAbs % 60)))
      have hminute := takeDigits_number (w := 2) (n := offset.natAbs % 60) (by omega) []
      have hcolon := takeByte_utf8 (c := ':') (b := 58) (by decide) (padded 2 (offset.natAbs % 60)) []
      rw [List.append_nil] at hminute hcolon
      rw [List.append_nil] at hcolon
      have hne : utf8 (padded 2 (offset.natAbs / 60) ++ ':' :: padded 2 (offset.natAbs % 60)) ≠ [] := by
        simp
      rw [takeZone]
      · rw [utf8_append, hhour]
        simp only [Option.bind_eq_bind, Option.bind_some, hcolon, hminute]
        rw [if_neg (by simp; omega)]
        have hnat : ((offset.natAbs / 60 : ℕ) : ℤ) * 60 + ((offset.natAbs % 60 : ℕ) : ℤ) = offset.natAbs := by omega
        rw [hnat]
        obtain rfl | rfl := hsign <;> rfl
      · intro _ h
        exact hne h
    split
    · have hbytes : ∀ cs, utf8 ('-' :: cs) = 45 :: utf8 cs := fun cs => rfl
      rw [hbytes, hread 45 (.inr rfl)]
      refine ⟨?_, fun b hb => ?_⟩
      · rw [if_neg (by decide)]
        congr 1
        omega
      · obtain rfl : (45 : UInt8) = b := by simpa using hb
        decide
    · have hbytes : ∀ cs, utf8 ('+' :: cs) = 43 :: utf8 cs := fun cs => rfl
      rw [hbytes, hread 43 (.inl rfl)]
      refine ⟨?_, fun b hb => ?_⟩
      · rw [if_pos rfl]
        congr 1
        omega
      · obtain rfl : (43 : UInt8) = b := by simpa using hb
        decide

theorem bind_of_some {α β : Type} {a : Option α} {x : α} {f : α → Option β} {r : Option β} (h : a = some x)
    (hf : f x = r) : a.bind f = r := by
  rw [h]
  exact hf

/-- The text of a time is read as the time. -/
theorem parseRFC3339Nano_format {offset : ℤ} {t : Time} {cs : List Char}
    (h : formatRFC3339Nano offset t = some cs) : parseRFC3339Nano (utf8 cs) = some t := by
  unfold formatRFC3339Nano at h
  simp only at h
  split at h
  · cases h
  · rename_i hrange
    rw [not_or, not_or, not_or] at hrange
    obtain ⟨hlow, hhigh, hzone, ht⟩ := hrange
    obtain ⟨hy, hy0, hy1⟩ := yearOf_spec (not_lt.1 hlow) (not_le.1 hhigh)
    obtain ⟨hm0, hm1, hd0, hd1⟩ := monthOf_spec hy0 hy1
    obtain ⟨hzoneText, hstart⟩ := takeZone_zoneText (not_le.1 hzone)
    generalize hdays : (t.sec + offset * 60) / 86400 = days at *
    generalize yearOf days = y at *
    generalize monthOf y days = m at *
    have hday : daysIn y m ≤ 31 := by
      unfold daysIn
      split_ifs <;> omega
    obtain ⟨d, hd⟩ : ∃ d : ℕ, (d : ℤ) = days - daysSinceYearOne y m 1 + 1 := ⟨_, Int.toNat_of_nonneg (by omega)⟩
    obtain ⟨s, hs⟩ : ∃ s : ℕ, (s : ℤ) = (t.sec + offset * 60) % 86400 := ⟨_, Int.toNat_of_nonneg (by omega)⟩
    rw [← hd, ← hs, Int.toNat_natCast, Int.toNat_natCast] at h
    obtain rfl := Option.some.inj h
    have hfraction := takeFraction_fraction (not_le.1 ht) hstart
    have hbyte : ∀ {c : Char} {b : UInt8}, String.utf8EncodeChar c = [b] → ∀ cs,
        takeByte b (utf8 (c :: cs)) = some (utf8 cs) := fun hc cs => by simpa using takeByte_utf8 hc cs []
    have hmonth := daysSinceYearOne_day y m d
    have hsec : daysSinceYearOne y m d * 86400 + (s / 3600 : ℕ) * 3600 + (s / 60 % 60 : ℕ) * 60 + (s % 60 : ℕ)
        - offset * 60 = t.sec := by omega
    unfold parseRFC3339Nano
    rw [utf8_append]
    refine bind_of_some (takeDigits_number (by omega) _) ?_
    refine bind_of_some (hbyte (by decide) _) ?_
    rw [utf8_append]
    refine bind_of_some (takeDigits_number (by omega) _) ?_
    refine bind_of_some (hbyte (by decide) _) ?_
    rw [utf8_append]
    refine bind_of_some (takeDigits_number (by omega) _) ?_
    refine bind_of_some (hbyte (by decide) _) ?_
    rw [utf8_append]
    refine bind_of_some (takeDigits_number (by omega) _) ?_
    refine bind_of_some (hbyte (by decide) _) ?_
    rw [utf8_append]
    refine bind_of_some (takeDigits_number (by omega) _) ?_
    refine bind_of_some (hbyte (by decide) _) ?_
    rw [utf8_append]
    refine bind_of_some (takeDigits_number (by omega) _) ?_
    rw [utf8_append]
    simp only [hfraction, hzoneText, Option.bind_eq_bind, Option.bind_some]
    rw [if_neg (by omega), hsec]

end AdGuardHome.Querylog
