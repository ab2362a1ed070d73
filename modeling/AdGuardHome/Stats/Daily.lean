import AdGuardHome.Lib.Blocks
import AdGuardHome.Stats.Unit
import Mathlib.Data.List.Zip

/-!
# Daily statistics (`internal/stats/unit.go`)

The units of more than seven days are added up in bins of 24, of which the last ends with the current hour.  Hours are
counted from zero, so that a day begins with an hour whose number is a multiple of 24, but `countHours` leaves the first
hour of the current day to the day before, and takes it for the last of 24 if it is the current hour.
-/

namespace AdGuardHome.Stats

open AdGuardHome.Lib

/-- The loop of `fillCollectedStatsDaily` for one of the series, from the unit `i` on. -/
def addDaily (f : UnitDB → ℕ) : List ℕ → ℕ → List UnitDB → Option (List ℕ)
  | data, _, [] => some data
  | data, i, u :: units =>
    match data[i / 24]? with
    | none => none
    | some n => addDaily f (data.set (i / 24) (n + f u)) (i + 1) units

/-- `fillCollectedStatsDaily` for one of the series; `none` if an index is out of range. -/
def fillCollectedStatsDaily (data : List ℕ) (units : List UnitDB) (curHour : UInt32) (days : ℕ) (f : UnitDB → ℕ) :
    Option (List ℕ) :=
  let hours := countHours curHour days
  if hours ≤ units.length then addDaily f data 0 (units.drop (units.length - hours)) else none

/-- The series that are filled. -/
def collected : List (UnitDB → ℕ) := [(·.nTotal), (·.nResult .filtered), (·.nResult .safeBrowsing), (·.nResult .parental)]

/-! ## Days -/

/-- The hour of the unit `i` of so many units up to the current hour. -/
def hourOf (curID : UInt32) (size i : ℕ) : ℤ := curID.toNat - size + 1 + i

/-- The sum over the units of a day. -/
def daySum (units : List UnitDB) (curID : UInt32) (f : UnitDB → ℕ) (day : ℤ) : ℕ :=
  ((units.zipIdx.filter fun p => hourOf curID units.length p.2 / 24 = day).map fun p => f p.1).sum

/-- The bins of the series are the sums of the days up to the current one. -/
def PerDay (units : List UnitDB) (curID : UInt32) (f : UnitDB → ℕ) : Prop :=
  let days := units.length / 24
  ∃ data, fillCollectedStatsDaily (List.replicate days 0) units curID days f = some data ∧
    ∀ k < days, data[days - 1 - k]? = some (daySum units curID f (curID.toNat / 24 - k))

/-- The hours that are counted for another day than theirs, or for no day: the first of each day, and in the first hour
of a day all the others. -/
def Misplaced (curID : UInt32) (hour : ℤ) : Prop := if curID.toNat % 24 = 0 then hour % 24 ≠ 0 else hour % 24 = 0

instance (curID : UInt32) (hour : ℤ) : Decidable (Misplaced curID hour) := by
  unfold Misplaced
  exact inferInstance

section Values

variable {units : List UnitDB} {curID : UInt32} {f : UnitDB → ℕ}

/-- The number of the unit `i`, zero if there is none. -/
def valueAt (f : UnitDB → ℕ) (units : List UnitDB) (i : ℕ) : ℕ := (units[i]?.map f).getD 0

theorem valueAt_of_length_le {i : ℕ} (h : units.length ≤ i) : valueAt f units i = 0 := by
  rw [valueAt, List.getElem?_eq_none h]
  rfl

theorem valueAt_drop (m i : ℕ) : valueAt f (units.drop m) i = valueAt f units (m + i) := by
  rw [valueAt, List.getElem?_drop]
  rfl

theorem valueAt_cons_succ (u : UnitDB) (i : ℕ) : valueAt f (u :: units) (i + 1) = valueAt f units i := rfl

theorem sum_take (units : List UnitDB) (n : ℕ) :
    ((units.take n).map f).sum = ∑ t ∈ Finset.range n, valueAt f units t := by
  induction n generalizing units with
  | zero => rfl
  | succ n ih =>
    rw [Finset.sum_range_succ']
    cases units with
    | nil => simp [valueAt]
    | cons u units =>
      simp only [valueAt_cons_succ, ← ih]
      simp [valueAt, Nat.add_comm]

theorem sum_zipIdx_filter (p : ℕ → Prop) [DecidablePred p] (units : List UnitDB) (m : ℕ) :
    (((units.zipIdx m).filter fun x => p x.2).map fun x => f x.1).sum =
      ∑ i ∈ Finset.range units.length, if p (m + i) then valueAt f units i else 0 := by
  induction units generalizing m with
  | nil => rfl
  | cons u units ih =>
    have hrest := ih (m + 1)
    simp only [Nat.add_right_comm m 1] at hrest
    rw [List.zipIdx_cons, List.length_cons, Finset.sum_range_succ', List.filter_cons]
    simp only [valueAt_cons_succ, ← Nat.add_assoc, ← hrest, Nat.add_zero]
    by_cases hp : p m
    · simp [hp, valueAt, Nat.add_comm]
    · simp [hp]

/-- The bins after the loop. -/
theorem addDaily_eq {days : ℕ} {data : List ℕ} {i : ℕ} (hdata : data.length = days)
    (hi : i + units.length ≤ 24 * days) :
    ∃ data', addDaily f data i units = some data' ∧ data'.length = days ∧ ∀ d < days,
      data'[d]? = some (data.getD d 0 + ∑ j ∈ Finset.range units.length,
        if (i + j) / 24 = d then valueAt f units j else 0) := by
  induction units generalizing data i with
  | nil =>
    refine ⟨data, rfl, hdata, fun d hd => ?_⟩
    rw [List.getD_eq_getElem?_getD, List.getElem?_eq_getElem (hdata ▸ hd)]
    rfl
  | cons u units ih =>
    rw [List.length_cons] at hi
    have hbin : i / 24 < data.length := by omega
    rw [addDaily, List.getElem?_eq_getElem hbin]
    obtain ⟨data', hloop, hlen, hsums⟩ := @ih (data.set (i / 24) (data[i / 24] + f u)) (i + 1)
      (by rw [List.length_set, hdata]) (by omega)
    refine ⟨data', hloop, hlen, fun d hd => ?_⟩
    rw [hsums d hd, List.length_cons, Finset.sum_range_succ']
    simp only [valueAt_cons_succ, Nat.add_assoc, Nat.add_comm 1, Nat.add_zero]
    congr 1
    by_cases hday : i / 24 = d
    · subst hday
      simp [List.getD_eq_getElem?_getD, hbin, valueAt]
      omega
    · simp [List.getD_eq_getElem?_getD, List.getElem?_set_ne hday, hday]

theorem countHours_eq (curHour : UInt32) (days : ℕ) :
    countHours curHour days = (days - 1) * 24 + if curHour.toNat % 24 = 0 then 24 else curHour.toNat % 24 := by
  unfold countHours
  dsimp only
  rw [UInt32.toNat_mod]
  rfl

/-- The bins are the sums of blocks of 24 units of which the last ends with the list. -/
theorem fillCollectedStatsDaily_eq {days : ℕ} (hdays : 0 < days) (hlen : 24 * days ≤ units.length) :
    ∃ data, fillCollectedStatsDaily (List.replicate days 0) units curID days f = some data ∧ data.length = days ∧
      ∀ d < days, data[d]? =
        some (block (valueAt f units) 24 (units.length - countHours curID days) d) := by
  have hhours : countHours curID days ≤ 24 * days := by
    rw [countHours_eq]
    split <;> omega
  obtain ⟨m, hm⟩ : ∃ m, units.length - countHours curID days = m := ⟨_, rfl⟩
  have hrest : (units.drop m).length = countHours curID days := by
    rw [List.length_drop]
    omega
  obtain ⟨data, hloop, hsize, hsums⟩ := @addDaily_eq (units.drop m) f days (List.replicate days 0) 0
    List.length_replicate (by omega)
  unfold fillCollectedStatsDaily
  dsimp only
  rw [if_pos (hhours.trans hlen), hm]
  refine ⟨data, hloop, hsize, fun d hd => ?_⟩
  have hblock := sum_ite_block (g := valueAt f (units.drop m)) (w := 24) (s := 0) (d := d)
    fun i hi => valueAt_of_length_le hi
  have hbin : ∀ j, (0 + 24 * d ≤ j ∧ j < 0 + 24 * d + 24) ↔ (0 + j) / 24 = d := fun j => by omega
  simp only [hbin] at hblock
  rw [hsums d hd, hblock, List.getD_eq_getElem?_getD, List.getElem?_replicate, if_pos hd, Option.getD_some, Nat.zero_add]
  simp only [block, blockPart, valueAt_drop, Nat.zero_add, Nat.add_assoc]

/-- The units of a day are a block of 24 too, which the end of the list may cut. -/
theorem daySum_eq {days k : ℕ} (hlen : units.length = 24 * days) (hk : k < days) :
    daySum units curID f (curID.toNat / 24 - k) =
      block (valueAt f units) 24 (23 - curID.toNat % 24) (days - 1 - k) := by
  rw [← sum_ite_block (n := units.length) fun i hi => valueAt_of_length_le hi]
  unfold daySum
  rw [sum_zipIdx_filter (fun i => hourOf curID units.length i / 24 = (curID.toNat : ℤ) / 24 - k)]
  refine Finset.sum_congr rfl fun i _ => if_congr ?_ rfl rfl
  unfold hourOf
  rw [hlen]
  omega

/-- The series of the response are these bins if there are more than seven days: `fillCollectedStats`, which the other
results speak of, is the loop there. -/
theorem fillCollectedStats_daily (hdays : 7 < units.length / 24) :
    fillCollectedStatsDaily (List.replicate (units.length / 24) 0) units curID (units.length / 24) f =
      some (fillCollectedStats units curID f) := by
  obtain ⟨data, hdata, hsize, hbins⟩ := @fillCollectedStatsDaily_eq units curID f _
    (Nat.zero_lt_of_lt hdays) (Nat.mul_div_le units.length 24)
  rw [hdata, Option.some.injEq]
  unfold fillCollectedStats
  dsimp only
  rw [if_pos hdays]
  refine List.ext_getElem? fun d => ?_
  rw [List.getElem?_map]
  by_cases hd : d < units.length / 24
  · rw [hbins d hd, List.getElem?_range hd, Option.map_some, Option.some.injEq]
    rw [List.drop_drop, sum_take]
    simp only [block, blockPart, valueAt_drop]
  · rw [List.getElem?_eq_none (by omega), List.getElem?_eq_none (by simpa using hd)]
    rfl

/-- Each bin holds its day. -/
theorem perDay_iff_block {days : ℕ} (hdays : 0 < days) (hlen : units.length = 24 * days) :
    PerDay units curID f ↔ ∀ d < days,
      block (valueAt f units) 24 (units.length - countHours curID days) d =
        block (valueAt f units) 24 (23 - curID.toNat % 24) d := by
  obtain ⟨data, hdata, hsize, hbins⟩ := @fillCollectedStatsDaily_eq units curID f _ hdays hlen.ge
  have hdiv : units.length / 24 = days := by omega
  unfold PerDay
  dsimp only
  rw [hdiv, hdata]
  constructor
  · rintro ⟨data', hdata', hsums⟩ d hd
    cases hdata'
    have hk : days - 1 - (days - 1 - d) = d := by omega
    have hsum := hsums (days - 1 - d) (by omega)
    rw [daySum_eq hlen (by omega), hk, hbins d hd] at hsum
    exact Option.some.inj hsum
  · intro h
    refine ⟨data, rfl, fun k hk => ?_⟩
    rw [hbins _ (by omega), daySum_eq hlen hk, h _ (by omega)]

/-- The bins hold the days exactly when nothing was counted in the hours that are misplaced. -/
theorem perDay_iff {days : ℕ} (hdays : 0 < days) (hlen : units.length = 24 * days) :
    PerDay units curID f ↔
      ∀ i u, units[i]? = some u → Misplaced curID (hourOf curID units.length i) → f u = 0 := by
  have hzero : (∀ i u, units[i]? = some u → Misplaced curID (hourOf curID units.length i) → f u = 0) ↔
      ∀ i < units.length, Misplaced curID (hourOf curID units.length i) → valueAt f units i = 0 := by
    refine forall_congr' fun i => ?_
    by_cases hi : i < units.length
    · simp [valueAt, hi]
    · simp [hi]
  rw [perDay_iff_block hdays hlen, hzero, countHours_eq]
  unfold Misplaced hourOf
  by_cases hr : curID.toNat % 24 = 0
  · -- all the units are counted, and the last of each 24 begins a day
    have hstart : units.length - ((days - 1) * 24 + 24) = 0 := by omega
    have hshift := block_shift_iff (g := valueAt f units) (w := 24) (s := 0) (n := days) (a := 23) (by omega)
      fun i hi => valueAt_of_length_le (by omega)
    simp only [if_pos hr]
    rw [hstart, hr, forall₂_congr fun d hd => eq_comm, hshift]
    constructor
    · intro h i hi hother
      have hi' := h (i / 24) (by omega) (i % 24) (by omega)
      rwa [Nat.zero_add, Nat.div_add_mod] at hi'
    · intro h d hd t ht
      exact h _ (by omega) (by omega)
  · -- the first unit that is counted is the one after the first of its day
    have hstart : units.length - ((days - 1) * 24 + curID.toNat % 24) = 23 - curID.toNat % 24 + 1 := by omega
    have hshift := block_shift_iff (g := valueAt f units) (w := 24) (s := 23 - curID.toNat % 24) (n := days) (a := 1)
      (by omega) fun i hi => valueAt_of_length_le (by omega)
    simp only [if_neg hr, hstart]
    rw [hshift]
    constructor
    · intro h i hi hfirst
      have hi' := h (i / 24) (by omega) 0 (by omega)
      rwa [show 23 - curID.toNat % 24 + 24 * (i / 24) + 0 = i by omega] at hi'
    · intro h d hd t ht
      exact h _ (by omega) (by omega)

end Values

/-- The four series are the sums of the days exactly when nothing was counted in the hours that are misplaced. -/
theorem daily_iff {units : List UnitDB} {curID : UInt32} (hlen : 192 ≤ units.length) (hdays : 24 ∣ units.length) :
    (∀ f ∈ collected, PerDay units curID f) ↔
      ∀ f ∈ collected, ∀ i u, units[i]? = some u → Misplaced curID (hourOf curID units.length i) → f u = 0 := by
  obtain ⟨days, hdays⟩ := hdays
  exact forall₂_congr fun f _ => perDay_iff (by omega) hdays

/-- A unit of so many queries, all of them blocked. -/
def unitOf (n : ℕ) : UnitDB := { UnitDB.empty with nTotal := n, nResult := fun r => if r = .filtered then n else 0 }

/-- Eight days up to the hour 200, with a query in each hour that does not begin a day. -/
def quietAtMidnight : List UnitDB := (List.range 192).map fun i => unitOf (if (9 + i) % 24 = 0 then 0 else 1)

theorem perDay_quietAtMidnight : PerDay quietAtMidnight 200 (·.nTotal) := by
  have hlen : quietAtMidnight.length = 192 := by simp [quietAtMidnight]
  refine (daily_iff hlen.ge ⟨8, hlen⟩).2 (fun f hf i u hu hmisplaced => ?_) _ List.mem_cons_self
  have hhour : (200 - 192 + 1 + (i : ℤ)) % 24 = 0 := by
    rw [hlen] at hmisplaced
    exact hmisplaced
  have hfirst : (9 + i) % 24 = 0 := by omega
  obtain ⟨hi, rfl⟩ := List.getElem?_eq_some_iff.1 hu
  have hquiet : quietAtMidnight[i] = unitOf 0 := by simp [quietAtMidnight, hfirst]
  rw [hquiet]
  simp only [collected, List.mem_cons, List.not_mem_nil, or_false] at hf
  rcases hf with rfl | rfl | rfl | rfl <;> rfl

/-- Eight days up to the hour 200, with a query in the hour 192, with which the last of them begins. -/
def busyAtMidnight : List UnitDB := (List.range 192).map fun i => unitOf (if i = 183 then 1 else 0)

theorem not_perDay_busyAtMidnight :
    ¬ ∀ (units : List UnitDB) (curID : UInt32), 192 ≤ units.length → 24 ∣ units.length →
      ∀ f ∈ collected, PerDay units curID f := by
  intro h
  have hlen : busyAtMidnight.length = 24 * 8 := by simp [busyAtMidnight]
  have hday : PerDay busyAtMidnight 200 (·.nTotal) := h _ 200 hlen.ge ⟨8, hlen⟩ _ List.mem_cons_self
  have hmidnight : Misplaced 200 (hourOf 200 busyAtMidnight.length 183) := by
    rw [hlen]
    decide
  have hget : busyAtMidnight[183]? = some (unitOf 1) := by simp [busyAtMidnight]
  exact absurd ((perDay_iff (by decide) hlen).1 hday 183 _ hget hmidnight) (by decide)

end AdGuardHome.Stats
