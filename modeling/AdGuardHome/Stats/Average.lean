import AdGuardHome.Lib.Mean
import AdGuardHome.Stats.Unit

/-!
# The average processing time

The averages of the units are summed up in the 32 bits that a single one has, and a unit writes its own average in 32
bits.  Both are right exactly as long as the true value fits: the hours of a year that take half a second each do not.
-/

namespace AdGuardHome.Stats

open AdGuardHome.Lib

/-! ## The average of a unit -/

theorem timeAvg_serialize (u : StatsUnit) : u.serialize.timeAvg.toNat = u.timeSum / u.nTotal % 2 ^ 32 := by
  by_cases h : u.nTotal = 0
  · have havg : u.serialize.timeAvg = 0 := if_pos h
    rw [havg, h, Nat.div_zero]
    rfl
  · have havg : u.serialize.timeAvg = UInt32.ofNat (u.timeSum / u.nTotal) := if_neg h
    rw [havg, UInt32.toNat_ofNat']

/-- The average that is written is the true one exactly if the true one fits. -/
theorem timeAvg_serialize_iff (u : StatsUnit) :
    u.serialize.timeAvg.toNat = u.timeSum / u.nTotal ↔ u.timeSum / u.nTotal < 2 ^ 32 := by
  rw [timeAvg_serialize]
  constructor
  · intro h
    rw [← h]
    exact Nat.mod_lt _ (by decide)
  · intro h
    exact Nat.mod_eq_of_lt h

/-! ## The average of the units -/

/-- The units that have an average, which are counted in `timeN`. -/
def timed (units : List UnitDB) : List UnitDB := units.filter fun u => u.timeAvg ≠ 0

/-- The true sum of the averages. -/
def avgSum (units : List UnitDB) : ℕ := (units.map fun u => u.timeAvg.toNat).sum

/-- Neither `sum.TimeAvg` nor `timeN` wraps around. -/
structure Unwrapped (units : List UnitDB) : Prop where
  sum : (units.map UnitDB.timeAvg).sum.toNat = avgSum units
  timeN : (UInt32.ofNat (timed units).length).toNat = (timed units).length

/-- An average is between the least and the greatest of the units that have one. -/
def Between (units : List UnitDB) (avg : UInt32) : Prop :=
  timed units ≠ [] → (∃ u ∈ timed units, u.timeAvg ≤ avg) ∧ ∃ u ∈ timed units, avg ≤ u.timeAvg

theorem timed_length (units : List UnitDB) (hlen : units.length ≤ 8760) :
    (UInt32.ofNat (timed units).length).toNat = (timed units).length := by
  have hle : (timed units).length ≤ units.length := List.length_filter_le _ _
  have hsize : UInt32.size = 2 ^ 32 := rfl
  exact UInt32.toNat_ofNat_of_lt' (by omega)

theorem avgSum_timed (units : List UnitDB) : avgSum (timed units) = avgSum units := by
  induction units with
  | nil => rfl
  | cons u units ih =>
    have hcons : avgSum (u :: units) = u.timeAvg.toNat + avgSum units := List.sum_cons
    by_cases h : u.timeAvg = 0
    · have hskip : timed (u :: units) = timed units := List.filter_cons_of_neg (by simpa using h)
      rw [hskip, ih, hcons, h]
      exact (Nat.zero_add _).symm
    · have htake : timed (u :: units) = u :: timed units := List.filter_cons_of_pos (by simpa using h)
      rw [htake, hcons, ← ih]
      exact List.sum_cons

theorem unwrapped_iff (units : List UnitDB) (hlen : units.length ≤ 8760) :
    Unwrapped units ↔ avgSum units < 2 ^ 32 := by
  have hsum := toNat_sum_eq_iff (units.map (·.timeAvg))
  rw [List.map_map] at hsum
  constructor
  · intro h
    exact hsum.1 h.sum
  · intro h
    exact ⟨hsum.2 h, timed_length units hlen⟩

theorem Unwrapped.average {units : List UnitDB} (h : Unwrapped units) (hidden : Hidden) (curID : UInt32) :
    (dataFromUnits hidden units curID).avgProcessingTime.toNat = avgSum units / (timed units).length := by
  rw [← h.sum, ← h.timeN]
  exact UInt32.toNat_div _ _

theorem Unwrapped.between {units : List UnitDB} (h : Unwrapped units) (hidden : Hidden) (curID : UInt32) :
    Between units (dataFromUnits hidden units curID).avgProcessingTime := by
  intro hne
  have havg := h.average hidden curID
  rw [← avgSum_timed] at havg
  obtain ⟨low, hlow, hle⟩ := exists_le_mean (fun u : UnitDB => u.timeAvg.toNat) hne
  obtain ⟨high, hhigh, hge⟩ := exists_mean_le (fun u : UnitDB => u.timeAvg.toNat) hne
  refine ⟨⟨low, hlow, ?_⟩, high, hhigh, ?_⟩
  · rw [UInt32.le_iff_toNat_le, havg]
    exact hle
  · rw [UInt32.le_iff_toNat_le, havg]
    exact hge

/-- The averages of the hours of a year or less, and of every unit, are right exactly as long as the true values fit
into 32 bits. -/
theorem average_exact_iff (hidden : Hidden) (units : List UnitDB) (curID : UInt32) (hlen : units.length ≤ 8760)
    (u : StatsUnit) :
    (Unwrapped units ∧ Between units (dataFromUnits hidden units curID).avgProcessingTime
      ↔ (units.map fun v => v.timeAvg.toNat).sum < 2 ^ 32) ∧
    (u.serialize.timeAvg.toNat = u.timeSum / u.nTotal ↔ u.timeSum / u.nTotal < 2 ^ 32) := by
  refine ⟨?_, timeAvg_serialize_iff u⟩
  have hiff := unwrapped_iff units hlen
  constructor
  · intro h
    exact hiff.1 h.1
  · intro h
    have hun := hiff.2 h
    exact ⟨hun, hun.between hidden curID⟩

/-- The record of an hour whose requests take a second each. -/
def slowHour : UnitDB := ⟨1, fun _ => 1, [], [], [], 1000000⟩

theorem average_exact_iff_slow :
    (Unwrapped [slowHour] ∧
      Between [slowHour] (dataFromUnits ⟨fun _ => false, fun _ => true⟩ [slowHour] 1).avgProcessingTime
        ↔ ([slowHour].map fun v => v.timeAvg.toNat).sum < 2 ^ 32) ∧
    ((newUnit 1).serialize.timeAvg.toNat = (newUnit 1).timeSum / (newUnit 1).nTotal
      ↔ (newUnit 1).timeSum / (newUnit 1).nTotal < 2 ^ 32) :=
  average_exact_iff _ [slowHour] 1 (by decide) (newUnit 1)

theorem timed_slowHours (n : ℕ) : timed (List.replicate n slowHour) = List.replicate n slowHour :=
  List.filter_replicate_of_pos (by decide)

theorem average_slowHours (hidden : Hidden) (curID : UInt32) (n : ℕ) :
    (dataFromUnits hidden (List.replicate n slowHour) curID).avgProcessingTime.toNat
      = n * 1000000 % 2 ^ 32 / (n % 2 ^ 32) := by
  have hdiv : (dataFromUnits hidden (List.replicate n slowHour) curID).avgProcessingTime
      = ((List.replicate n slowHour).map (·.timeAvg)).sum
        / UInt32.ofNat (timed (List.replicate n slowHour)).length := rfl
  rw [hdiv, timed_slowHours, UInt32.toNat_div, toNat_sum, List.map_map, List.map_replicate,
    List.sum_replicate_nat, List.length_replicate, UInt32.toNat_ofNat']
  rfl

/-- A year of such hours has an average of about 19 milliseconds, and one request of 2 ^ 32 microseconds is written
with an average of zero. -/
theorem average_slow_year :
    (List.replicate 8760 slowHour).length ≤ 8760 ∧
    ¬ Between (List.replicate 8760 slowHour)
      (dataFromUnits ⟨fun _ => false, fun _ => true⟩ (List.replicate 8760 slowHour) 9000).avgProcessingTime ∧
    ((newUnit 1).add ⟨"c", "d", .notFiltered, 4294967296000⟩).serialize.timeAvg = 0 ∧
    ((newUnit 1).add ⟨"c", "d", .notFiltered, 4294967296000⟩).timeSum
      / ((newUnit 1).add ⟨"c", "d", .notFiltered, 4294967296000⟩).nTotal = 2 ^ 32 := by
  refine ⟨by rw [List.length_replicate], ?_, by decide, by decide⟩
  intro hbetween
  have hne : timed (List.replicate 8760 slowHour) ≠ [] := by
    rw [timed_slowHours]
    exact List.ne_nil_of_length_pos (by rw [List.length_replicate]; decide)
  obtain ⟨⟨u, hu, hle⟩, _⟩ := hbetween hne
  rw [timed_slowHours] at hu
  rw [List.eq_of_mem_replicate hu, UInt32.le_iff_toNat_le, average_slowHours] at hle
  exact absurd hle (by decide)

end AdGuardHome.Stats
