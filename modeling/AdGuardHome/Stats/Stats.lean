import AdGuardHome.Stats.Unit

/-!
# The statistics context

`StatsCtx` counts in the unit of the current hour and moves it to the database when the hour changes and when it is
closed.  Units are numbered by hours, in 32 bits.
-/

namespace AdGuardHome.Stats

open AdGuardHome.Lib

/-- The interval of statistics, in nanoseconds, between an hour and a year. -/
def hour : ℤ := 3600 * 10 ^ 9

def validateIvl (ivl : ℤ) : Except String Unit :=
  if ivl < hour then .error "less than an hour"
  else if 365 * 24 * hour < ivl then .error "more than a year"
  else .ok ()

structure Config where
  limit : ℤ
  enabled : Bool
  hidden : Hidden

/-- `uint32(s.limit.Hours())`. -/
def Config.limitHours (c : Config) : UInt32 := UInt32.ofNat (c.limit / hour).toNat

/-- The current unit and the units of the database by their numbers. -/
structure StatsCtx where
  curr : StatsUnit
  db : GoMap UInt32 UnitDB

namespace StatsCtx

variable (c : Config)

/-- The units that `deleteOldUnits` leaves.  The names of units are in the order of their numbers. -/
def deleteOldUnits (db : GoMap UInt32 UnitDB) (firstID : UInt32) : GoMap UInt32 UnitDB :=
  db.delWhere fun id _ => id < firstID

def new (db : GoMap UInt32 UnitDB) (id : UInt32) : StatsCtx :=
  let db := deleteOldUnits db (id - c.limitHours - 1)
  ⟨(newUnit id).deserialize (db.get id), db⟩

/-- The database after `Close`. -/
def close (s : StatsCtx) : GoMap UInt32 UnitDB := s.db.set s.curr.id s.curr.serialize

def update (s : StatsCtx) (e : Entry) : StatsCtx :=
  if ¬ c.enabled ∨ c.limit = 0 then s else
  match e.validate with
  | .error _ => s
  | .ok _ => { s with curr := s.curr.add e }

def flushDB (s : StatsCtx) (id limit : UInt32) : StatsCtx :=
  ⟨newUnit id, (s.db.set s.curr.id s.curr.serialize).del (id - limit)⟩

def flush (s : StatsCtx) (id : UInt32) : StatsCtx :=
  if c.limitHours = 0 ∨ s.curr.id = id then s else s.flushDB id c.limitHours

/-- The stored units of the last hours and the current one.  The loop goes from `curID - limit + 1` on until it
reaches `curID`, around zero if need be. -/
def loadUnits (s : StatsCtx) (limit : UInt32) : List UnitDB :=
  let firstID := s.curr.id - limit + 1
  ((List.range (s.curr.id - firstID).toNat).map fun k => (s.db.get (firstID + UInt32.ofNat k)).getD .empty)
    ++ [s.curr.serialize]

def getData (s : StatsCtx) (limit : UInt32) : StatsResp :=
  if limit = 0 then ⟨.days, [], [], [], [], [], [], [], 0, 0, 0, 0, 0, 0⟩
  else dataFromUnits c.hidden (s.loadUnits limit) s.curr.id

end StatsCtx

end AdGuardHome.Stats
