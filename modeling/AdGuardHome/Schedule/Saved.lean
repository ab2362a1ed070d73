import AdGuardHome.Schedule.Weekly

/-!
# Saved schedules

The schedules that are accepted are those in which every day is valid.  The bounds of a valid day are few whole minutes,
which both formats write in such a way that they are read back as they are.
-/

namespace AdGuardHome.Schedule

open AdGuardHome.Lib

/-! ## Valid days -/

/-- The day is empty, or it begins before it ends, within 24 hours and at whole minutes. -/
def DayRange.Valid (r : DayRange) : Prop :=
  r = .zero ∨ 0 ≤ r.start ∧ r.start < r.stop ∧ r.stop ≤ maxDayRange ∧ minute ∣ r.start ∧ minute ∣ r.stop

theorem truncate_minute_iff (d : ℤ) : truncate d minute = d ↔ minute ∣ d := by
  rw [truncate, if_neg (by decide), Int.dvd_iff_tmod_eq_zero]
  omega

theorem DayRange.validate_iff (r : DayRange) :
    r.validate = none ↔ r = .zero ∨ 0 ≤ r.start ∧ r.start < r.stop ∧ r.stop ≤ maxDayRange := by
  unfold DayRange.validate
  split_ifs with hzero hstart hstop horder hlarge hend
  · exact iff_of_true rfl (.inl hzero)
  all_goals
    simp only [false_iff, true_iff, hzero, false_or]
    omega

theorem validate_iff (r : DayRange) : validate r = none ↔ r.Valid := by
  have hrange := r.validate_iff
  unfold validate DayRange.Valid
  cases hvalid : r.validate with
  | some err =>
    rw [hvalid] at hrange
    have hnot := (not_congr hrange).1 (Option.some_ne_none err)
    refine iff_of_false (Option.some_ne_none err) ?_
    rintro (hzero | ⟨h0, hlt, hle, -, -⟩)
    · exact hnot (.inl hzero)
    · exact hnot (.inr ⟨h0, hlt, hle⟩)
  | none =>
    have hok := hrange.1 hvalid
    simp only [ne_eq, truncate_minute_iff]
    by_cases hstart : minute ∣ r.start
    · by_cases hstop : minute ∣ r.stop
      · simp only [hstart, hstop, not_true_eq_false, if_false, true_iff, and_true]
        exact hok
      · simp only [hstart, hstop, not_true_eq_false, not_false_eq_true, if_false, if_true, and_false, or_false,
          reduceCtorEq, false_iff]
        rintro rfl
        exact hstop (dvd_zero minute)
    · simp only [hstart, not_false_eq_true, if_true, false_and, and_false, or_false, reduceCtorEq, false_iff]
      rintro rfl
      exact hstart (dvd_zero minute)

/-- A bound of a valid day: a whole minute of a day. -/
def Bound (d : ℤ) : Prop := 0 ≤ d ∧ d ≤ maxDayRange ∧ minute ∣ d

theorem DayRange.Valid.bounds {r : DayRange} (h : r.Valid) : Bound r.start ∧ Bound r.stop := by
  rcases h with rfl | ⟨h0, hlt, hle, hstart, hstop⟩
  · exact ⟨⟨le_rfl, by decide, dvd_zero _⟩, ⟨le_rfl, by decide, dvd_zero _⟩⟩
  · exact ⟨⟨h0, by omega, hstart⟩, ⟨by omega, hle, hstop⟩⟩

/-! ## Durations in milliseconds -/

/-- A bound is written as a number of milliseconds that has less than 53 bits, and so has the bound. -/
theorem parse_jsonDurationNumber (env : Env) {d : ℤ} (h : Bound d) :
    env.parseJSONDuration (Env.jsonDurationNumber d) = some d := by
  obtain ⟨h0, hle, k, rfl⟩ := h
  have hk : 0 ≤ k ∧ k ≤ 1440 := by
    simp only [maxDayRange, hour, minute] at h0 hle
    omega
  have hmsec : ((minute * k : ℤ) : ℚ) / Env.nsecPerMsec = ((60000 * k : ℤ) : ℚ) := by
    simp only [Env.nsecPerMsec, minute]
    push_cast
    ring
  have hmul : ((60000 * k : ℤ) : ℚ) * Env.nsecPerMsec = ((minute * k : ℤ) : ℚ) := by
    simp only [Env.nsecPerMsec, minute]
    push_cast
    ring
  have hnsec : |minute * k| < 2 ^ 53 := by
    simp only [minute]
    rw [abs_lt]
    omega
  have hsmall : |60000 * k| < 2 ^ 53 := by
    rw [abs_lt]
    omega
  have hfloat : Float64.float64 (((60000 * k : ℤ) : ℚ)) = ((60000 * k : ℤ) : ℚ) := Float64.float64_intCast hsmall
  have hwritten : Float64.float64 (Env.jsonDurationNumber (minute * k)) = ((60000 * k : ℤ) : ℚ) := by
    unfold Env.jsonDurationNumber
    rw [Float64.float64_intCast hnsec, hmsec, hfloat]
    exact Float64.float64_shortest hfloat
  have hread : Float64.toInt64 env.outOfRange ((minute * k : ℤ) : ℚ) = minute * k :=
    Float64.toInt64_intCast _ (hnsec.trans (by norm_num))
  simp only [Env.parseJSONDuration, hwritten, Float64.isInf_intCast hsmall, hmul, Float64.float64_intCast hnsec, hread]
  rfl

/-! ## Documents -/

section Documents

variable {α : Type} {parse : α → Option ℤ} {write : ℤ → α}

theorem decode_encode_day (hparse : ∀ d, Bound d → parse (write d) = some d) {r : DayRange} (h : r.Valid) :
    (r.encode write).decode .zero (DayDoc.decode parse) = some r := by
  unfold DayRange.encode
  split
  · rename_i hzero
    rw [hzero]
    rfl
  · simp only [Field.decode, DayDoc.decode, hparse _ h.bounds.1, hparse _ h.bounds.2]
    rfl

theorem decode_encode (hparse : ∀ d, Bound d → parse (write d) = some d) {w : Weekly} (h : ∀ i, (w.days i).Valid) :
    (w.encode write).decode parse = some (w.location.name, w.days) := by
  have hday : ∀ i, ((w.encode write).days i).decode .zero (DayDoc.decode parse) = some (w.days i) :=
    fun i => decode_encode_day hparse (h i)
  have hdays : sequence .zero (fun i => ((w.encode write).days i).decode .zero (DayDoc.decode parse))
      = some w.days := by
    simp only [sequence, hday]
    rfl
  simp only [WeekDoc.decode, hdays]
  rfl

end Documents

/-! ## What is accepted -/

/-- The schedule is read without an error, and it contains the same times. -/
def Weekly.Agrees (s : Weekly) (r : Weekly × Option UnmarshalError) : Prop :=
  r.2 = none ∧ ∀ t, r.1.contains t = s.contains t

namespace Env

variable (env : Env)

/-- The time zone is found and every day is valid. -/
def Accepts (decoded : Option (String × (Fin 7 → DayRange))) : Prop :=
  ∃ timeZone days, decoded = some (timeZone, days) ∧ (env.loadLocation timeZone).isSome ∧ ∀ i, (days i).Valid

theorem findSome_validate (days : Fin 7 → DayRange) :
    ((List.finRange 7).findSome? fun i => (validate (days i)).map (UnmarshalError.weekday i)) = none ↔
      ∀ i, (days i).Valid := by
  simp only [List.findSome?_eq_none_iff, List.mem_finRange, forall_const, Option.map_eq_none_iff, validate_iff]

variable {env} {w : Weekly} {decoded : Option (String × (Fin 7 → DayRange))}

/-- A schedule that is accepted is the one that was decoded, and one that is not leaves the receiver alone. -/
theorem unmarshal_cases (w : Weekly) (decoded : Option (String × (Fin 7 → DayRange))) :
    (¬ env.Accepts decoded ∧ (env.unmarshal w decoded).1 = w ∧ (env.unmarshal w decoded).2 ≠ none) ∨
      ∃ timeZone location days, decoded = some (timeZone, days) ∧ env.loadLocation timeZone = some location ∧
        (∀ i, (days i).Valid) ∧ env.unmarshal w decoded = (⟨location, days⟩, none) := by
  cases decoded with
  | none => exact .inl ⟨fun ⟨_, _, h, _⟩ => (nomatch h), rfl, Option.some_ne_none _⟩
  | some p =>
    obtain ⟨timeZone, days⟩ := p
    cases hload : env.loadLocation timeZone with
    | none =>
      have herr : env.unmarshal w (some (timeZone, days)) = (w, some .location) := by simp only [unmarshal, hload]
      rw [herr]
      refine .inl ⟨?_, rfl, Option.some_ne_none _⟩
      rintro ⟨_, _, hsome, hloaded, _⟩
      cases hsome
      rw [hload] at hloaded
      cases hloaded
    | some location =>
      have hvalid := findSome_validate days
      cases hfind : (List.finRange 7).findSome? fun i => (validate (days i)).map (UnmarshalError.weekday i) with
      | none =>
        rw [hfind] at hvalid
        exact .inr ⟨timeZone, location, days, rfl, hload, hvalid.1 rfl, by simp only [unmarshal, hload, hfind]⟩
      | some err =>
        have herr : env.unmarshal w (some (timeZone, days)) = (w, some err) := by
          simp only [unmarshal, hload, hfind]
        rw [hfind] at hvalid
        rw [herr]
        refine .inl ⟨?_, rfl, Option.some_ne_none _⟩
        rintro ⟨_, _, hsome, _, hdays⟩
        cases hsome
        exact Option.some_ne_none err (hvalid.2 hdays)

theorem unmarshal_iff : (env.unmarshal w decoded).2 = none ↔ env.Accepts decoded := by
  rcases env.unmarshal_cases w decoded with ⟨hnot, -, herr⟩ | ⟨timeZone, location, days, rfl, hload, hdays, hok⟩
  · exact iff_of_false herr hnot
  · rw [hok]
    exact iff_of_true rfl ⟨timeZone, days, rfl, by rw [hload]; rfl, hdays⟩

theorem unmarshal_error (h : (env.unmarshal w decoded).2 ≠ none) : (env.unmarshal w decoded).1 = w := by
  rcases env.unmarshal_cases w decoded with ⟨-, hsame, -⟩ | ⟨_, _, _, -, -, -, hok⟩
  · exact hsame
  · rw [hok] at h
    exact absurd rfl h

/-! ## Saving -/

variable (env)

/-- The name of a time zone that was loaded is that of a time zone with the same offsets. -/
def ZonesLoad : Prop :=
  ∀ name l, env.loadLocation name = some l → ∃ l', env.loadLocation l.name = some l' ∧ l'.offset = l.offset

/-- The text of a whole minute of a day is read as it. -/
def DurationsRead : Prop := ∀ d, Bound d → env.parseDuration (env.durationString d) = some d

/-- The schedule is one that was accepted. -/
def Accepted (s : Weekly) : Prop :=
  (∃ w doc, env.unmarshalYAML w doc = (s, none)) ∨ ∃ w doc, env.unmarshalJSON w doc = (s, none)

variable {env}

/-- A time zone only matters by its offsets. -/
theorem contains_congr {s s' : Weekly} (hdays : s'.days = s.days) (hoffset : s'.location.offset = s.location.offset)
    (t : ℤ) : s'.contains t = s.contains t := by
  have hseconds : s'.location.seconds t = s.location.seconds t := by
    unfold Location.seconds
    rw [hoffset]
  have hclock : s'.location.clock t = s.location.clock t := by
    unfold Location.clock
    rw [hseconds]
  have hweekday : s'.location.weekday t = s.location.weekday t := by
    unfold Location.weekday
    rw [hseconds]
  unfold Weekly.contains
  rw [hclock, hweekday, hdays]

theorem accepted_cases {s : Weekly} (h : env.Accepted s) :
    (∃ name, env.loadLocation name = some s.location) ∧ ∀ i, (s.days i).Valid := by
  have hcases : ∀ w decoded, env.unmarshal w decoded = (s, none) →
      (∃ name, env.loadLocation name = some s.location) ∧ ∀ i, (s.days i).Valid := by
    intro w decoded hs
    rcases env.unmarshal_cases w decoded with ⟨-, -, herr⟩ | ⟨timeZone, location, days, -, hload, hdays, hok⟩
    · rw [hs] at herr
      exact absurd rfl herr
    · rw [hs] at hok
      cases hok
      exact ⟨⟨timeZone, hload⟩, hdays⟩
  rcases h with ⟨w, doc, hs⟩ | ⟨w, doc, hs⟩
  · exact hcases w _ hs
  · exact hcases w _ hs

/-- What is decoded from the document of an accepted schedule agrees with it. -/
theorem agrees_unmarshal (hzones : env.ZonesLoad) {s : Weekly} (hs : env.Accepted s) (w : Weekly) :
    s.Agrees (env.unmarshal w (some (s.location.name, s.days))) := by
  obtain ⟨⟨name, hname⟩, hdays⟩ := accepted_cases hs
  obtain ⟨l', hl', hoffset⟩ := hzones name s.location hname
  rcases env.unmarshal_cases w (some (s.location.name, s.days)) with ⟨hnot, -, -⟩ | ⟨_, l, days, hsome, hl, -, hok⟩
  · exact absurd ⟨s.location.name, s.days, rfl, by rw [hl']; rfl, hdays⟩ hnot
  · cases hsome
    rw [hl'] at hl
    cases hl
    rw [hok]
    exact ⟨rfl, contains_congr rfl hoffset⟩

end Env

/-- Both formats accept exactly the schedules of valid days, leave the receiver alone otherwise, and what is accepted is
read back from either format as a schedule that contains the same times. -/
theorem weekly_saved (env : Env) (hzones : env.ZonesLoad) (hduration : env.DurationsRead) (w : Weekly)
    (yaml : WeekDoc (List Char)) (json : WeekDoc ℚ) :
    ((env.unmarshalYAML w yaml).2 = none ↔ env.Accepts (yaml.decode env.parseDuration)) ∧
    ((env.unmarshalJSON w json).2 = none ↔ env.Accepts (json.decode env.parseJSONDuration)) ∧
    ((env.unmarshalYAML w yaml).2 ≠ none → (env.unmarshalYAML w yaml).1 = w) ∧
    ((env.unmarshalJSON w json).2 ≠ none → (env.unmarshalJSON w json).1 = w) ∧
    ∀ s, env.Accepted s →
      s.Agrees (env.unmarshalYAML w (env.marshalYAML s)) ∧
      s.Agrees (env.unmarshalJSON w (Env.marshalJSON s)) := by
  refine ⟨Env.unmarshal_iff, Env.unmarshal_iff, Env.unmarshal_error, Env.unmarshal_error, fun s hs => ?_⟩
  have hdays := (Env.accepted_cases hs).2
  have hagrees := Env.agrees_unmarshal hzones hs w
  constructor
  · rw [Env.unmarshalYAML, Env.marshalYAML, decode_encode hduration hdays]
    exact hagrees
  · rw [Env.unmarshalJSON, Env.marshalJSON, decode_encode (fun d hd => parse_jsonDurationNumber env hd) hdays]
    exact hagrees

/-- The text of a number of whole minutes of a day. -/
def minutesText (d : ℤ) : List Char :=
  let m := (d / minute).toNat
  if m = 0 then ['0', 's']
  else
    (if m / 60 = 0 then [] else Nat.toDigits 10 (m / 60) ++ ['h']) ++
      if m % 60 = 0 then [] else Nat.toDigits 10 (m % 60) ++ ['m']

/-- Reads a number before a unit, if there is one, and the rest of the text. -/
def readUnit (unit : Char) (cs : List Char) : ℕ × List Char :=
  let ds := cs.takeWhile Char.isDigit
  match cs.drop ds.length with
  | c :: rest => if c = unit then (Nat.ofDigitChars 10 ds 0, rest) else (0, cs)
  | [] => (0, cs)

def parseMinutes (cs : List Char) : Option ℤ :=
  let (h, cs) := readUnit 'h' cs
  let (m, cs) := readUnit 'm' cs
  let (s, cs) := readUnit 's' cs
  if cs = [] then some (minute * (60 * h + m) + 1000000000 * s) else none

theorem readUnit_toDigits (unit : Char) {c : Char} (hc : c.isDigit = false) (n : ℕ) (rest : List Char) :
    readUnit unit (Nat.toDigits 10 n ++ c :: rest)
      = if c = unit then (n, rest) else (0, Nat.toDigits 10 n ++ c :: rest) := by
  have htake : (Nat.toDigits 10 n ++ c :: rest).takeWhile Char.isDigit = Nat.toDigits 10 n := by
    rw [List.takeWhile_append_of_pos fun d hd => Nat.isDigit_of_mem_toDigits (by decide) (by decide) hd,
      List.takeWhile_cons_of_neg (by simp [hc]), List.append_nil]
  simp only [readUnit, htake, List.drop_left, Nat.ofDigitChars_toDigits (by decide : 1 < 10) (by decide : 10 ≤ 10)]

theorem parse_minutesText (m : ℕ) : parseMinutes (minutesText (minute * m)) = some (minute * m) := by
  have hm : (minute * (m : ℤ) / minute).toNat = m := by simp [minute]
  unfold minutesText parseMinutes
  rw [hm]
  rcases Nat.eq_zero_or_pos m with rfl | hpos
  · decide
  · have hne : m ≠ 0 := by omega
    have hnil : ∀ unit, readUnit unit [] = (0, []) := fun _ => rfl
    simp only [hne, if_false]
    by_cases hh : m / 60 = 0
    · have hmin : m % 60 = m := by omega
      simp [hh, hmin, hne, readUnit_toDigits, hnil]
    · by_cases hmin : m % 60 = 0
      · have hm60 : (m : ℤ) = 60 * (m / 60 : ℕ) := by omega
        simp [hh, hmin, readUnit_toDigits, hnil]
        omega
      · have hm60 : (m : ℤ) = 60 * (m / 60 : ℕ) + (m % 60 : ℕ) := by omega
        simp [hh, hmin, readUnit_toDigits, hnil]
        omega

def utc : Location := ⟨"UTC", fun _ => 0⟩

def sampleEnv : Env where
  loadLocation := fun name => if name = "" ∨ name = "UTC" then some utc else none
  outOfRange := fun _ => -2 ^ 63
  parseDuration := parseMinutes
  durationString := minutesText

/-- The whole of Sunday, and the morning of Monday. -/
def sampleDoc : WeekDoc (List Char) where
  timeZone := .value "UTC"
  days
    | 0 => .value ⟨.value "0s".toList, .value "24h".toList⟩
    | 1 => .value ⟨.value "8h30m".toList, .value "12h".toList⟩
    | _ => .absent

def emptyWeekly : Weekly := ⟨utc, fun _ => .zero⟩

theorem durationsRead_sampleEnv : sampleEnv.DurationsRead := by
  rintro d ⟨h0, -, k, rfl⟩
  have hk : 0 ≤ k := by
    simp only [minute] at h0
    omega
  lift k to ℕ using hk
  simp only [sampleEnv]
  exact parse_minutesText k

theorem zonesLoad_sampleEnv : sampleEnv.ZonesLoad := by
  intro name l hload
  simp only [sampleEnv] at hload
  split at hload
  · cases hload
    exact ⟨utc, by simp [sampleEnv, utc], rfl⟩
  · cases hload

/-- A schedule that was read from YAML is read back from JSON. -/
theorem weekly_saved_sample :
    (sampleEnv.unmarshalJSON emptyWeekly
      (Env.marshalJSON (sampleEnv.unmarshalYAML emptyWeekly sampleDoc).1)).2 = none := by
  have haccepted : sampleEnv.Accepted (sampleEnv.unmarshalYAML emptyWeekly sampleDoc).1 := by
    have hnone : (sampleEnv.unmarshalYAML emptyWeekly sampleDoc).2 = none := by decide +kernel
    exact .inl ⟨emptyWeekly, sampleDoc, Prod.ext rfl hnone⟩
  exact ((weekly_saved sampleEnv zonesLoad_sampleEnv durationsRead_sampleEnv emptyWeekly sampleDoc
    ⟨.absent, fun _ => .absent⟩).2.2.2.2 _ haccepted).2.1

end AdGuardHome.Schedule
