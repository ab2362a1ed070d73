import AdGuardHome.Querylog.QLogFile
import Mathlib.Data.Int.Basic
import Mathlib.Algebra.GroupWithZero.Nat

/-!
# Timestamps of the query log

The field with the time of a record, and times in the RFC 3339 format.
-/

namespace AdGuardHome.Querylog

/-! ## The field of a record -/

/-- `strings.Index` -/
def index (s sub : Bytes) : Option ℕ := (List.range (s.length + 1)).find? fun i => sub.isPrefixOf (s.drop i)

/-- The value of a JSON string in the form `"key":"value"`, where the second argument is `"key":"`. -/
def readJSONValue (s key : Bytes) : Bytes :=
  match index s key with
  | none => []
  | some i =>
    let start := i + key.length
    match (s.drop start).idxOf? 34 with
    | none => []
    | some i => (s.drop start).take i

/-- `"T":"` -/
def keyT : Bytes := [34, 84, 34, 58, 34]

/-- `"Time":"` -/
def keyTime : Bytes := [34, 84, 105, 109, 101, 34, 58, 34]

/-- The timestamp of a line of the log in nanoseconds, zero if it has none.  `parse` is `UnixNano` of
`time.Parse(time.RFC3339Nano, val)`. -/
def readQLogTimestamp (parse : Bytes → Option ℤ) (str : Bytes) : ℤ :=
  let val := readJSONValue str keyT
  let val := if val.isEmpty then readJSONValue str keyTime else val
  if val.isEmpty then 0 else (parse val).getD 0

/-! ## Times -/

/-- A time: seconds since the first of January of the year 1, UTC, and nanoseconds. -/
structure Time where
  sec : ℤ
  nsec : ℕ
  deriving DecidableEq, Repr

/-- The seconds from the year 1 to the Unix epoch. -/
def unixEpoch : ℤ := 62135596800

/-- The zero time. -/
def Time.IsZero (t : Time) : Prop := t.sec = 0 ∧ t.nsec = 0

instance (t : Time) : Decidable t.IsZero := inferInstanceAs (Decidable (_ ∧ _))

/-- Nanoseconds since the Unix epoch, as an `int64`. -/
def Time.unixNano (t : Time) : ℤ := ((t.sec - unixEpoch) * 1000000000 + t.nsec).bmod (2 ^ 64)

/-! ## RFC 3339 -/

/-- A number of so many decimal digits at the start of the string, and the rest. -/
def takeDigits : ℕ → ℕ → Bytes → Option (ℕ × Bytes)
  | 0, acc, s => some (acc, s)
  | _ + 1, _, [] => none
  | n + 1, acc, b :: s => if 48 ≤ b ∧ b ≤ 57 then takeDigits n (acc * 10 + (b.toNat - 48)) s else none

/-- The string after the byte. -/
def takeByte (b : UInt8) : Bytes → Option Bytes
  | [] => none
  | c :: s => if c = b then some s else none

/-- The nanoseconds of a fraction of a second, if there is one. -/
def takeFraction (s : Bytes) : ℕ × Bytes :=
  match takeByte 46 s with
  | none => (0, s)
  | some s =>
    let ds := s.takeWhile fun b => 48 ≤ b ∧ b ≤ 57
    let nanos := ((ds ++ List.replicate 9 48).take 9).foldl (fun acc (b : UInt8) => acc * 10 + (b.toNat - 48)) 0
    (nanos, s.drop ds.length)

/-- The offset of the zone in minutes. -/
def takeZone : Bytes → Option ℤ
  | [90] => some 0
  | sign :: s => do
    let (h, s) ← takeDigits 2 0 s
    let s ← takeByte 58 s
    let (m, s) ← takeDigits 2 0 s
    if s ≠ [] ∨ 24 ≤ h ∨ 60 ≤ m then none
    else if sign = 43 then some (h * 60 + m)
    else if sign = 45 then some (-(h * 60 + m))
    else none
  | [] => none

/-- The number of days in a month. -/
def daysIn (y m : ℕ) : ℕ :=
  if m = 2 then if y % 4 = 0 ∧ (y % 100 ≠ 0 ∨ y % 400 = 0) then 29 else 28
  else if m = 4 ∨ m = 6 ∨ m = 9 ∨ m = 11 then 30 else 31

/-- The days from the first of January of the year 1 to the date. -/
def daysSinceYearOne (y m d : ℕ) : ℤ :=
  let y' : ℤ := (y : ℤ) - 1
  365 * y' + y' / 4 - y' / 100 + y' / 400 + ((List.range (m - 1)).map fun i => daysIn y (i + 1)).sum + d - 1

/-- `time.Parse(time.RFC3339Nano, s)` -/
def parseRFC3339Nano (s : Bytes) : Option Time := do
  let (y, s) ← takeDigits 4 0 s
  let s ← takeByte 45 s
  let (mo, s) ← takeDigits 2 0 s
  let s ← takeByte 45 s
  let (d, s) ← takeDigits 2 0 s
  let s ← takeByte 84 s
  let (h, s) ← takeDigits 2 0 s
  let s ← takeByte 58 s
  let (mi, s) ← takeDigits 2 0 s
  let s ← takeByte 58 s
  let (sec, s) ← takeDigits 2 0 s
  let (nsec, s) := takeFraction s
  let zone ← takeZone s
  if mo < 1 ∨ 12 < mo ∨ d < 1 ∨ daysIn y mo < d ∨ 23 < h ∨ 59 < mi ∨ 59 < sec then none
  else some ⟨daysSinceYearOne y mo d * 86400 + h * 3600 + mi * 60 + sec - zone * 60, nsec⟩

end AdGuardHome.Querylog
