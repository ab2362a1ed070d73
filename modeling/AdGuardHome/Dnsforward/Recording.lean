import AdGuardHome.Aghnet.Addr
import AdGuardHome.Aghnet.IPMut
import AdGuardHome.Dnsforward.Middleware
import AdGuardHome.Home.Clients

/-!
# Records of requests

The last stage of a request writes it to the query log and to the statistics, unless the profile of its client or its
host is ignored.  The address is masked before the profile is looked up, so with the anonymizer another profile may be
found.  `SameProfiles` says for which requests that makes no difference.
-/

namespace AdGuardHome.Dnsforward

open AdGuardHome.Net AdGuardHome.Client AdGuardHome.Aghnet AdGuardHome.Home

def RRType.any : UInt16 := 255

/-- What the last stage reads of a request. -/
structure RecordedQuery where
  question : Question
  /-- The address of the client. -/
  addr : Addr
  clientID : String
  deriving DecidableEq

/-- `querylog.AddParams`, with what is known of the client. -/
structure AddParams where
  question : Question
  clientID : String
  clientIP : IP
  deriving DecidableEq

/-- `stats.Entry`, with what is known of the client. -/
structure StatsEntry where
  domain : String
  client : String
  deriving DecidableEq

/-- What has been written. -/
structure Recorded where
  logged : Option AddParams := none
  counted : Option StatsEntry := none

/-- The parts of the server for the last stage.  The query log and the statistics are given by the hosts that they
ignore, and are `none` for nil; they look for clients in the container. -/
structure Recorder where
  refuseAny : Bool
  anonymizer : IPMut
  queryLog : Option (String → Bool)
  stats : Option (String → Bool)
  clients : ClientsContainer

namespace Recorder

variable (s : Recorder) (q : RecordedQuery)

/-- The address of the client after the anonymizer. -/
def clientIP : IP := s.anonymizer.f (asSlice q.addr)

/-- The ClientID is first, because it has a higher priority. -/
def ids : List String :=
  let ipStr := (s.clientIP q).string
  if q.clientID ≠ "" then [q.clientID, ipStr] else [ipStr]

/-- `queryLog.ShouldLog` -/
def queryLogShouldLog (ignored : String → Bool) (host : String) (ids : List String) : Except Fault Bool :=
  match s.clients.findMultiple ids with
  | .error e => .error e
  | .ok c => .ok (if c.any (·.ignoreQueryLog) then false else !ignored host)

/-- `StatsCtx.ShouldCount` -/
def shouldCount (ignored : String → Bool) (host : String) (ids : List String) : Except Fault Bool :=
  match s.clients.shouldCountClient ids with
  | .error e => .error e
  | .ok y => .ok (if !y then false else !ignored host)

def shouldLog (host : String) (qt : UInt16) (ids : List String) : Except Fault Bool :=
  if qt = RRType.any ∧ s.refuseAny then .ok false
  else
    match s.queryLog with
    | none => .ok false
    | some ignored => s.queryLogShouldLog ignored host ids

def shouldCountStat (host : String) (ids : List String) : Except Fault Bool :=
  match s.stats with
  | none => .ok false
  | some ignored => s.shouldCount ignored host ids

/-- The parameters of `logQuery`. -/
def logQuery : AddParams := ⟨q.question, q.clientID, s.clientIP q⟩

/-- The entry of `updateStats`. -/
def updateStats : StatsEntry where
  domain := normalizeDomain q.question.name
  client := if q.clientID ≠ "" then q.clientID else (s.clientIP q).string

/-- What is written before a panic stays written. -/
def processQueryLogsAndStats : Recorded × Except Fault Unit :=
  let host := normalizeDomain q.question.name
  match s.shouldLog host q.question.qtype (s.ids q) with
  | .error e => ({}, .error e)
  | .ok log =>
    let rec_ : Recorded := { logged := if log then some (s.logQuery q) else none }
    match s.shouldCountStat host (s.ids q) with
    | .error e => (rec_, .error e)
    | .ok count => ({ rec_ with counted := if count then some (s.updateStats q) else none }, .ok ())

/-! ## Two runs -/

/-- The server with the anonymizer on or off. -/
def anonymized (on : Bool) : Recorder :=
  { s with anonymizer := s.anonymizer.store (if on then some anonymizeIP else none) }

/-- The request is logged and counted with the anonymizer if and only if it is without. -/
def Unchanged : Prop :=
  let on := ((s.anonymized true).processQueryLogsAndStats q).1
  let off := ((s.anonymized false).processQueryLogsAndStats q).1
  on.logged.isSome = off.logged.isSome ∧ on.counted.isSome = off.counted.isSome

/-- The query log takes requests for the host, whatever their clients. -/
def LogsHost : Prop :=
  ¬(q.question.qtype = RRType.any ∧ s.refuseAny = true) ∧
    ∃ ignored, s.queryLog = some ignored ∧ ignored (normalizeDomain q.question.name) = false

/-- The statistics count requests for the host, whatever their clients. -/
def CountsHost : Prop := ∃ ignored, s.stats = some ignored ∧ ignored (normalizeDomain q.question.name) = false

/-- The masked address and the address itself have profiles that agree on what they ignore; no profile ignores
nothing.  That does not matter for a host that is not recorded and for a ClientID with a profile of its own. -/
structure SameProfiles : Prop where
  queryLog : s.LogsHost q → (q.clientID ≠ "" → s.clients.ignoresQueryLog q.clientID = none) →
    (s.clients.ignoresQueryLog (anonymizeIP (asSlice q.addr)).string).getD false =
      (s.clients.ignoresQueryLog (asSlice q.addr).string).getD false
  stats : s.CountsHost q → (q.clientID ≠ "" → s.clients.ignoresStatistics q.clientID = none) →
    (s.clients.ignoresStatistics (anonymizeIP (asSlice q.addr)).string).getD false =
      (s.clients.ignoresStatistics (asSlice q.addr).string).getD false

variable {s q}

theorem shouldLog_eq (host : String) (qt : UInt16) (ids : List String) :
    ∃ log, s.shouldLog host qt ids = .ok log ∧
      (log = true ↔ (¬(qt = RRType.any ∧ s.refuseAny = true) ∧ ∃ ignored, s.queryLog = some ignored ∧
        ignored host = false) ∧ (ids.findSome? s.clients.ignoresQueryLog).getD false = false) := by
  obtain ⟨c, hc, hignore⟩ := @ClientsContainer.findMultiple_eq s.clients ids
  unfold shouldLog queryLogShouldLog
  rw [hc, ← hignore]
  split
  next hany => exact ⟨false, rfl, by simp [hany]⟩
  next hany =>
    cases s.queryLog with
    | none => exact ⟨false, rfl, by simp⟩
    | some ignored =>
      refine ⟨_, rfl, ?_⟩
      cases hc : c.any (·.ignoreQueryLog) <;> simp [hany]

theorem shouldCountStat_eq (host : String) (ids : List String) :
    ∃ count, s.shouldCountStat host ids = .ok count ∧
      (count = true ↔ (∃ ignored, s.stats = some ignored ∧ ignored host = false) ∧
        (ids.findSome? s.clients.ignoresStatistics).getD false = false) := by
  unfold shouldCountStat shouldCount
  rw [ClientsContainer.shouldCountClient_eq]
  cases s.stats with
  | none => exact ⟨false, rfl, by simp⟩
  | some ignored =>
    refine ⟨_, rfl, ?_⟩
    cases (ids.findSome? s.clients.ignoresStatistics).getD false <;> simp

/-- A request is recorded if its host is and the first profile under its identifiers does not ignore it. -/
theorem processQueryLogsAndStats_spec :
    ((s.processQueryLogsAndStats q).1.logged.isSome = true ↔
      s.LogsHost q ∧ ((s.ids q).findSome? s.clients.ignoresQueryLog).getD false = false) ∧
    ((s.processQueryLogsAndStats q).1.counted.isSome = true ↔
      s.CountsHost q ∧ ((s.ids q).findSome? s.clients.ignoresStatistics).getD false = false) := by
  obtain ⟨log, hlog, hlogs⟩ := shouldLog_eq (s := s) (normalizeDomain q.question.name) q.question.qtype (s.ids q)
  obtain ⟨count, hcount, hcounts⟩ := shouldCountStat_eq (s := s) (normalizeDomain q.question.name) (s.ids q)
  unfold processQueryLogsAndStats
  simp only [hlog, hcount]
  constructor
  · rw [LogsHost, ← hlogs]
    cases log <;> simp
  · rw [CountsHost, ← hcounts]
    cases count <;> simp

/-- Two lookups of a ClientID and an address agree if the ClientID decides or the addresses do. -/
theorem findSome_ids_eq_iff (look : String → Option Bool) (on off : String) :
    (((if q.clientID ≠ "" then [q.clientID, on] else [on]).findSome? look).getD false =
        ((if q.clientID ≠ "" then [q.clientID, off] else [off]).findSome? look).getD false) ↔
      ((q.clientID ≠ "" → look q.clientID = none) → (look on).getD false = (look off).getD false) := by
  have hone : ∀ ip, ([ip].findSome? look) = look ip := by
    intro ip
    rw [List.findSome?_cons]
    cases look ip <;> rfl
  by_cases hid : q.clientID = ""
  · simp [hid]
  · cases hlook : look q.clientID with
    | none => simp [hid, hlook, hone]
    | some b => simp [hid, hlook]

theorem bool_eq_iff_of_and {P : Prop} {a b a' b' : Bool} (h : a = true ↔ P ∧ a' = false)
    (h' : b = true ↔ P ∧ b' = false) : a = b ↔ (P → a' = b') := by
  by_cases hP : P
  · cases a <;> cases b <;> cases a' <;> cases b' <;> simp_all
  · cases a <;> cases b <;> simp_all

/-- **Anonymisation changes what is recorded** exactly for the requests whose masked address has another profile. -/
theorem unchanged_iff (s : Recorder) (q : RecordedQuery) : s.Unchanged q ↔ s.SameProfiles q := by
  obtain ⟨hlogOn, hcountOn⟩ := processQueryLogsAndStats_spec (s := s.anonymized true) (q := q)
  obtain ⟨hlogOff, hcountOff⟩ := processQueryLogsAndStats_spec (s := s.anonymized false) (q := q)
  have hlog := (bool_eq_iff_of_and hlogOn hlogOff).trans
    (imp_congr_right fun _ => findSome_ids_eq_iff s.clients.ignoresQueryLog _ _)
  have hcount := (bool_eq_iff_of_and hcountOn hcountOff).trans
    (imp_congr_right fun _ => findSome_ids_eq_iff s.clients.ignoresStatistics _ _)
  exact ⟨fun h => ⟨hlog.1 h.1, hcount.1 h.2⟩, fun h => ⟨hlog.2 h.queryLog, hcount.2 h.stats⟩⟩

/-- A client of one address that ignores the query log. -/
def phone : Persistent where
  name := "phone"
  tags := []
  upstreams := []
  ips := [.v4 0xc0a80105]
  subnets := []
  macs := []
  clientIDs := []
  uid := 1
  ignoreQueryLog := true

theorem phone_coherent : Coherent (Index.new.add phone).1 :=
  (Index.add_coherent Index.new_coherent (by decide) rfl (by simp [Persistent.MACsValid, phone]) (fun _ _ => rfl)
    (fun _ _ => rfl) (fun _ _ => rfl) (fun _ _ => rfl) (fun _ _ => rfl)).1

/-- A server that logs all hosts but for that client. -/
def phoneRecorder : Recorder where
  refuseAny := false
  anonymizer := ⟨nopIPMutFunc⟩
  queryLog := some fun _ => false
  stats := none
  clients := {
    storage := ⟨(Index.new.add phone).1, sortedAllowedTags⟩
    coherent := phone_coherent
    rangeIPs := [(.v4 0xc0a80105, 1)]
    mem_rangeIPs := by
      intro ip uid
      have hget : (Index.new.add phone).1.ipToUID.get ip = if ip = .v4 0xc0a80105 then some 1 else none :=
        Lib.GoMap.get_set _ _ _ _
      rw [hget]
      by_cases hip : ip = .v4 0xc0a80105 <;> simp [hip, eq_comm]
    macByIP := fun _ => none
    validMACs := nofun
    hostByIP := fun _ => ""
    runtimeSourceDHCP := false
    runtimeIndex := fun _ => none
    isValidClientID := fun _ => false }

def phoneQuery : RecordedQuery where
  question := ⟨"example.org.", 1, 1⟩
  addr := .v4 0xc0a80105
  clientID := ""

/-- The address itself has a profile that ignores the query log, the masked one has no profile. -/
theorem phoneRecorder_not_unchanged : ¬ phoneRecorder.Unchanged phoneQuery := by
  have hoff : ¬ ((phoneRecorder.anonymized false).processQueryLogsAndStats phoneQuery).1.logged.isSome = true := by
    rw [processQueryLogsAndStats_spec.1]
    rintro ⟨-, hignore⟩
    revert hignore
    decide
  have hon : ((phoneRecorder.anonymized true).processQueryLogsAndStats phoneQuery).1.logged.isSome = true :=
    processQueryLogsAndStats_spec.1.2 ⟨⟨by decide, _, rfl, rfl⟩, by decide⟩
  intro h
  exact hoff (h.1.symm.trans hon)

end Recorder

end AdGuardHome.Dnsforward
