import AdGuardHome.Lib.Float64

/-!
# Weekly schedules (`internal/schedule/schedule.go`)

A schedule has a time zone and one range for each day of the week.  It is read from YAML, where a duration is a text,
and from JSON, where it is a number of milliseconds.  The documents are modelled as the decoders assign their fields.
-/

namespace AdGuardHome.Schedule

open AdGuardHome.Lib

/-- `time.Minute`.  Durations are in nanoseconds. -/
def minute : ℤ := 60000000000

def hour : ℤ := 60 * minute

/-- `Duration.Truncate` -/
def truncate (d m : ℤ) : ℤ := if m ≤ 0 then d else d - d.tmod m

/-- `time.Location`: the name, and the offset from UTC in seconds at a time in seconds. -/
structure Location where
  name : String
  offset : ℤ → ℤ

/-- `dayRange`, from `start` to `stop`, which is `end` in the source. -/
structure DayRange where
  start : ℤ
  stop : ℤ
deriving DecidableEq

/-- `dayRange{}` -/
def DayRange.zero : DayRange := ⟨0, 0⟩

/-- `Weekly`.  The numbers of the days are those of `time.Weekday`, where Sunday is 0. -/
structure Weekly where
  location : Location
  days : Fin 7 → DayRange

def DayRange.contains (r : DayRange) (offset : ℤ) : Bool := r.start ≤ offset ∧ offset < r.stop

/-! ## Times -/

/-- The time in seconds in the time zone, `t` is in nanoseconds since the beginning of 1970. -/
def Location.seconds (l : Location) (t : ℤ) : ℤ := t / 1000000000 + l.offset (t / 1000000000)

/-- `Time.Weekday`.  The first day of 1970 was a Thursday. -/
def Location.weekday (l : Location) (t : ℤ) : Fin 7 := Fin.ofNat 7 ((l.seconds t / 86400 + 4) % 7).toNat

/-- `Time.Clock` -/
def Location.clock (l : Location) (t : ℤ) : ℤ × ℤ × ℤ :=
  let sec := l.seconds t % 86400
  (sec / 3600, sec % 3600 / 60, sec % 60)

/-- `Weekly.Contains` -/
def Weekly.contains (w : Weekly) (t : ℤ) : Bool :=
  let (h, m, s) := w.location.clock t
  (w.days (w.location.weekday t)).contains (h * hour + m * minute + s * 1000000000 + t % 1000000000)

/-! ## Validation -/

def maxDayRange : ℤ := 24 * hour

inductive DayRangeError
  | startNegative
  | endNegative
  | startNotBeforeEnd
  | startTooLarge
  | endTooLarge
  | startNotRounded
  | endNotRounded
deriving DecidableEq

def DayRange.validate (r : DayRange) : Option DayRangeError :=
  if r = .zero then none
  else if r.start < 0 then some .startNegative
  else if r.stop < 0 then some .endNegative
  else if r.start ≥ r.stop then some .startNotBeforeEnd
  else if r.start ≥ maxDayRange then some .startTooLarge
  else if r.stop > maxDayRange then some .endTooLarge
  else none

/-- `Weekly.validate` -/
def validate (r : DayRange) : Option DayRangeError :=
  match r.validate with
  | some err => some err
  | none =>
    if truncate r.start minute ≠ r.start then some .startNotRounded
    else if truncate r.stop minute ≠ r.stop then some .endNotRounded
    else none

/-! ## Documents -/

/-- A field of a document: it is absent or empty, has a value, or is of another kind. -/
inductive Field (α : Type)
  | absent
  | value (a : α)
  | other

/-- The documents for a day and for a week, `α` is the kind of durations. -/
structure DayDoc (α : Type) where
  start : Field α
  stop : Field α

structure WeekDoc (α : Type) where
  timeZone : Field String
  days : Fin 7 → Field (DayDoc α)

/-- Decodes a field, which keeps its zero value if it is absent. -/
def Field.decode {α β : Type} (zero : β) (f : α → Option β) : Field α → Option β
  | absent => some zero
  | value a => f a
  | other => none

variable {α : Type}

def DayDoc.decode (parse : α → Option ℤ) (d : DayDoc α) : Option DayRange := do
  let start ← d.start.decode 0 parse
  let stop ← d.stop.decode 0 parse
  return ⟨start, stop⟩

/-- The values, if there are all of them. -/
def sequence {β : Type} (zero : β) (f : Fin 7 → Option β) : Option (Fin 7 → β) :=
  if ∀ i, (f i).isSome then some fun i => (f i).getD zero else none

/-- The time zone and the days.  A day that is absent is empty in both formats. -/
def WeekDoc.decode (parse : α → Option ℤ) (doc : WeekDoc α) : Option (String × (Fin 7 → DayRange)) := do
  let timeZone ← doc.timeZone.decode "" some
  let days ← sequence .zero fun i => (doc.days i).decode .zero (DayDoc.decode parse)
  return (timeZone, days)

/-- The document of a day, which is left out if the day is empty. -/
def DayRange.encode (write : ℤ → α) (r : DayRange) : Field (DayDoc α) :=
  if r = .zero then .absent else .value ⟨.value (write r.start), .value (write r.stop)⟩

def Weekly.encode (write : ℤ → α) (w : Weekly) : WeekDoc α :=
  ⟨.value w.location.name, fun i => (w.days i).encode write⟩

/-! ## Reading and writing -/

/-- What the schedules rely on. -/
structure Env where
  /-- `time.LoadLocation` -/
  loadLocation : String → Option Location
  /-- The integers that floating-point numbers out of range are converted to. -/
  outOfRange : ℚ → ℤ
  /-- `timeutil.Duration.UnmarshalText` -/
  parseDuration : List Char → Option ℤ
  /-- `timeutil.Duration.String` -/
  durationString : ℤ → List Char

inductive UnmarshalError
  | decode
  | location
  | weekday (i : Fin 7) (err : DayRangeError)
deriving DecidableEq

namespace Env

variable (env : Env)

/-- The part that `UnmarshalJSON` and `UnmarshalYAML` have in common.  The receiver is replaced in the end. -/
def unmarshal (w : Weekly) (decoded : Option (String × (Fin 7 → DayRange))) : Weekly × Option UnmarshalError :=
  match decoded with
  | none => (w, some .decode)
  | some (timeZone, days) =>
    match env.loadLocation timeZone with
    | none => (w, some .location)
    | some location =>
      match (List.finRange 7).findSome? fun i => (validate (days i)).map (.weekday i) with
      | some err => (w, some err)
      | none => (⟨location, days⟩, none)

def nsecPerMsec : ℚ := 1000000

/-- `JSONDuration.UnmarshalJSON` for a number. -/
def parseJSONDuration (number : ℚ) : Option ℤ :=
  let msec := Float64.float64 number
  if Float64.isInf msec then none else some (Float64.toInt64 env.outOfRange (Float64.float64 (msec * nsecPerMsec)))

/-- `JSONDuration.MarshalJSON`, the number that is written. -/
def jsonDurationNumber (d : ℤ) : ℚ :=
  Float64.shortest (Float64.float64 (Float64.float64 d / nsecPerMsec))

def unmarshalJSON (w : Weekly) (doc : WeekDoc ℚ) : Weekly × Option UnmarshalError :=
  env.unmarshal w (doc.decode env.parseJSONDuration)

def marshalJSON (w : Weekly) : WeekDoc ℚ := w.encode jsonDurationNumber

def unmarshalYAML (w : Weekly) (doc : WeekDoc (List Char)) : Weekly × Option UnmarshalError :=
  env.unmarshal w (doc.decode env.parseDuration)

/-- `MarshalYAML`, with the empty days left out by the encoder. -/
def marshalYAML (w : Weekly) : WeekDoc (List Char) := w.encode env.durationString

end Env

end AdGuardHome.Schedule
