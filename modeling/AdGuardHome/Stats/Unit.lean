import Mathlib.Data.Int.Notation
import AdGuardHome.Lib.GoMap
import Mathlib.Algebra.Group.Int.Defs
import Mathlib.Algebra.Group.Nat.Defs
import Mathlib.Algebra.GroupWithZero.Nat
import Mathlib.Data.UInt

/-!
# Statistics units

The counters of an hour, their record in the database, and the data that is made of the records.  The counters of
upstreams are left out.
-/

namespace AdGuardHome.Stats

open AdGuardHome.Lib

/-- The max number of top domains and of top clients. -/
def maxDomains : ℕ := 100

def maxClients : ℕ := 100

/-- `Result`: zero, the codes from 1 to 5 in their order, and the codes from 6 on. -/
inductive Result
  | unset
  | notFiltered
  | filtered
  | safeBrowsing
  | safeSearch
  | parental
  | unknown (code : ℕ)
deriving DecidableEq, Repr

structure Entry where
  client : String
  domain : String
  result : Result
  /-- In nanoseconds. -/
  processingTime : ℤ
deriving DecidableEq, Repr

/-- `uint64(e.ProcessingTime.Microseconds())`. -/
def Entry.microseconds (e : Entry) : ℕ := (e.processingTime.tdiv 1000 % 2 ^ 64).toNat

def Entry.validate (e : Entry) : Except String Unit :=
  match e.result with
  | .unset => .error "result code is not set"
  | .unknown code => .error ("unknown result code " ++ toString code)
  | _ =>
    if e.domain = "" then .error "domain is empty"
    else if e.client = "" then .error "client is empty"
    else .ok ()

/-- `unit`: the statistics of an hour. -/
structure StatsUnit where
  domains : GoMap String ℕ
  blockedDomains : GoMap String ℕ
  clients : GoMap String ℕ
  nResult : Result → ℕ
  id : UInt32
  nTotal : ℕ
  /-- In microseconds, in 64 bits. -/
  timeSum : ℕ

/-- `unitDB`: the record of a unit. -/
structure UnitDB where
  nTotal : ℕ
  nResult : Result → ℕ
  domains : List (String × ℕ)
  blockedDomains : List (String × ℕ)
  clients : List (String × ℕ)
  timeAvg : UInt32

def newUnit (id : UInt32) : StatsUnit :=
  ⟨GoMap.empty, GoMap.empty, GoMap.empty, fun _ => 0, id, 0, 0⟩

/-- The unit that `loadUnits` takes for one that is not there. -/
def UnitDB.empty : UnitDB := ⟨0, fun _ => 0, [], [], [], 0⟩

/-- The pairs with the highest counts. -/
def convertMapToSlice (m : GoMap String ℕ) (maxVal : ℕ) : List (String × ℕ) :=
  ((m.entries.map fun e => (e.1, e.2)).mergeSort fun a b => b.2 ≤ a.2).take maxVal

def convertSliceToMap (a : List (String × ℕ)) : GoMap String ℕ :=
  a.foldl (fun m it => m.set it.1 it.2) GoMap.empty

/-- `m[k]++`. -/
def increment (m : GoMap String ℕ) (k : String) : GoMap String ℕ := m.set k ((m.get k).getD 0 + 1)

namespace StatsUnit

def serialize (u : StatsUnit) : UnitDB where
  nTotal := u.nTotal
  nResult := u.nResult
  domains := convertMapToSlice u.domains maxDomains
  blockedDomains := convertMapToSlice u.blockedDomains maxDomains
  clients := convertMapToSlice u.clients maxClients
  timeAvg := if u.nTotal = 0 then 0 else UInt32.ofNat (u.timeSum / u.nTotal)

def deserialize (u : StatsUnit) : Option UnitDB → StatsUnit
  | none => u
  | some udb =>
    { u with
      nTotal := udb.nTotal
      nResult := udb.nResult
      domains := convertSliceToMap udb.domains
      blockedDomains := convertSliceToMap udb.blockedDomains
      clients := convertSliceToMap udb.clients
      timeSum := udb.timeAvg.toNat * udb.nTotal % 2 ^ 64 }

def add (u : StatsUnit) (e : Entry) : StatsUnit :=
  { u with
    nResult := fun r => if r = e.result then u.nResult r + 1 else u.nResult r
    domains := if e.result = .notFiltered then increment u.domains e.domain else u.domains
    blockedDomains := if e.result = .notFiltered then u.blockedDomains else increment u.blockedDomains e.domain
    clients := increment u.clients e.client
    timeSum := (u.timeSum + e.microseconds) % 2 ^ 64
    nTotal := u.nTotal + 1 }

end StatsUnit

/-! ## The response -/

inductive TimeUnits
  | hours
  | days
deriving DecidableEq, Repr

/-- `StatsResp`, without the upstreams.  The average processing time is in microseconds. -/
structure StatsResp where
  timeUnits : TimeUnits
  topQueried : List (String × ℕ)
  topBlocked : List (String × ℕ)
  topClients : List (String × ℕ)
  dnsQueries : List ℕ
  blockedFiltering : List ℕ
  replacedSafebrowsing : List ℕ
  replacedParental : List ℕ
  numDNSQueries : ℕ
  numBlockedFiltering : ℕ
  numReplacedSafebrowsing : ℕ
  numReplacedSafesearch : ℕ
  numReplacedParental : ℕ
  avgProcessingTime : UInt32

/-- Names that are not shown, and clients that are not counted. -/
structure Hidden where
  ignored : String → Bool
  shouldCountClient : String → Bool

def topsCollector (units : List UnitDB) (max : ℕ) (ignored : String → Bool)
    (pairs : UnitDB → List (String × ℕ)) : List (String × ℕ) :=
  let m := (units.flatMap pairs).foldl
    (fun m cp => if ignored cp.1 then m else m.set cp.1 ((m.get cp.1).getD 0 + cp.2)) GoMap.empty
  convertMapToSlice m max

/-- The clients of a unit that are counted. -/
def topClientPairs (h : Hidden) (u : UnitDB) : List (String × ℕ) :=
  u.clients.filter fun c => c.1 = "" ∨ h.shouldCountClient c.1

/-- The number of hours in the last days. -/
def countHours (curHour : UInt32) (days : ℕ) : ℕ :=
  let hoursInCurDay := (curHour % 24).toNat
  (days - 1) * 24 + if hoursInCurDay = 0 then 24 else hoursInCurDay

/-- One series of the response: the numbers of the hours, or of the days if there are more than seven. -/
def fillCollectedStats (units : List UnitDB) (curID : UInt32) (f : UnitDB → ℕ) : List ℕ :=
  let daysCount := units.length / 24
  if 7 < daysCount then
    let hours := units.drop (units.length - countHours curID daysCount)
    (List.range daysCount).map fun day => (((hours.drop (24 * day)).take 24).map f).sum
  else units.map f

def dataFromUnits (h : Hidden) (units : List UnitDB) (curID : UInt32) : StatsResp :=
  let total (f : UnitDB → ℕ) := (units.map f).sum
  let timeN := (units.filter fun u => u.timeAvg ≠ 0).length
  { timeUnits := if 7 < units.length / 24 then .days else .hours
    topQueried := topsCollector units maxDomains h.ignored (·.domains)
    topBlocked := topsCollector units maxDomains h.ignored (·.blockedDomains)
    topClients := topsCollector units maxClients (fun _ => false) (topClientPairs h)
    dnsQueries := fillCollectedStats units curID (·.nTotal)
    blockedFiltering := fillCollectedStats units curID (·.nResult .filtered)
    replacedSafebrowsing := fillCollectedStats units curID (·.nResult .safeBrowsing)
    replacedParental := fillCollectedStats units curID (·.nResult .parental)
    numDNSQueries := total (·.nTotal)
    numBlockedFiltering := total (·.nResult .filtered)
    numReplacedSafebrowsing := total (·.nResult .safeBrowsing)
    numReplacedSafesearch := total (·.nResult .safeSearch)
    numReplacedParental := total (·.nResult .parental)
    avgProcessingTime := (units.map (·.timeAvg)).sum / UInt32.ofNat timeN }

end AdGuardHome.Stats
