import AdGuardHome.Querylog.Decoded
import AdGuardHome.Querylog.Paging

/-!
# Searches in the query log

A search looks through the entries in the memory, the newest first, and then through the records of the files, as many
of them as it may.
-/

namespace AdGuardHome.Querylog

open AdGuardHome.Lib

/-- `time.Unix(0, n)` -/
def Time.unix (n : ℤ) : Time := ⟨unixEpoch + n / 1000000000, (n % 1000000000).toNat⟩

/-- What a search uses of the query log. -/
structure SearchEnv where
  fold : TextFold
  findClient : ClientFinder
  isIgnored : String → Bool
  decode : DecodeEnv

/-! ## Memory -/

/-- The entries in the memory that match; the memory is in the order of `ReverseRange`. -/
def searchMemory (env : SearchEnv) (params : SearchParams) (memSize : ℕ) (memory : List LogEntry) : List LogEntry :=
  if memSize = 0 then []
  else (memory.map (LogEntry.withClient env.findClient)).filter fun e => params.matches env.fold e

/-! ## Files -/

/-- What `readNextEntry` makes of a line: the entry, if it matches, and the timestamp; `none` is a panic of the
decoder. -/
def checkLine (env : SearchEnv) (params : SearchParams) (line : Bytes) : Option (Option LogEntry × ℤ) :=
  if !params.quickMatch env.fold env.findClient line then some (none, readQLogTimestamp parseNano line)
  else
    (decoded env.decode line).map fun e =>
      if env.isIgnored e.qHost then (none, 0)
      else
        let e := e.withClient env.findClient
        if e.client.any Client.ignoreQueryLog then (none, 0)
        else
          let ts := e.time.unixNano
          if !params.matches env.fold e then (none, ts) else (some e, ts)

def readNextEntry (env : SearchEnv) (params : SearchParams) (r : QLogReader) :
    Option (Except Err (Option LogEntry × ℤ) × QLogReader) :=
  match r.readNext with
  | none => none
  | some (.error err, r) => some (.error err, r)
  | some (.ok line, r) => (checkLine env params line).map fun p => (.ok p, r)

/-- The loop goes on after so many records. -/
def SearchParams.scans (params : SearchParams) (total : ℤ) : Prop :=
  total < params.maxFileScanEntries ∨ params.maxFileScanEntries ≤ 0

instance (params : SearchParams) (total : ℤ) : Decidable (params.scans total) := inferInstanceAs (Decidable (_ ∨ _))

/-- The loop of `readEntries`, at most so many rounds of it: the entries, the oldest timestamp and the number of records;
`none` is a panic of the reader or of the decoder, or a lack of rounds. -/
def readEntriesLoop (env : SearchEnv) (params : SearchParams) (totalLimit : ℤ) :
    ℕ → QLogReader → List LogEntry → ℤ → ℤ → Option (List LogEntry × ℤ × ℤ)
  | 0, _, _, _, _ => none
  | n + 1, r, entries, oldestNano, total =>
    if params.scans total then
      match readNextEntry env params r with
      | none => none
      | some (.error err, r) =>
        if err = .eof then some (entries, 0, total)
        else readEntriesLoop env params totalLimit n r entries 0 (total + 1)
      | some (.ok (none, ts), r) => readEntriesLoop env params totalLimit n r entries ts (total + 1)
      | some (.ok (some ent, ts), r) =>
        let entries := entries ++ [ent]
        if (entries.length : ℤ) = totalLimit then some (entries, ts, total + 1)
        else readEntriesLoop env params totalLimit n r entries ts (total + 1)
    else some (entries, oldestNano, total)

def readEntries (env : SearchEnv) (params : SearchParams) (totalLimit : ℤ) (rounds : ℕ) (r : QLogReader) :
    Option (List LogEntry × ℤ × ℤ) :=
  readEntriesLoop env params totalLimit rounds r [] 0 0

/-- The entries of the files that match, and the oldest time, zero if there is none. -/
def searchFiles (env : SearchEnv) (params : SearchParams) (logs : List Log) : Option (List LogEntry × Time) :=
  match (QLogReader.newQLogReader (logs.map Log.file)).seekRecord (readQLogTimestamp parseNano) params.olderThan with
  | none => none
  | some (some _, _) => some ([], ⟨0, 0⟩)
  | some (none, r) =>
    match readEntries env params (params.offset + params.limit) ((newestFirst logs).length + 1) r with
    | none => none
    | some (entries, oldestNano, _) => some (entries, if oldestNano ≠ 0 then Time.unix oldestNano else ⟨0, 0⟩)

/-! ## The search -/

/-- Sorts the entries, the newest first, and trims them by the offset. -/
def finalizeSearchResults (entries : List LogEntry) (params : SearchParams) (oldest : Time) : List LogEntry × Time :=
  let entries := entries.mergeSort fun a b => !a.time.before b.time
  if 0 < params.offset ∧ (entries.length : ℤ) ≤ params.offset then ([], ⟨0, 0⟩)
  else
    let entries := if 0 < params.offset then entries.drop params.offset.toNat else entries
    (entries, (entries.getLast?.map LogEntry.time).getD oldest)

/-- A search: the entries and the oldest time; `none` is a panic. -/
def search (env : SearchEnv) (params : SearchParams) (memSize : ℕ) (memory : List LogEntry) (logs : List Log) :
    Option (List LogEntry × Time) :=
  if params.limit = 0 then some ([], ⟨0, 0⟩)
  else
    match searchFiles env params logs with
    | none => none
    | some (fileEntries, oldest) =>
      let totalLimit := params.offset + params.limit
      let entries := searchMemory env params memSize memory ++ fileEntries
      if totalLimit < (entries.length : ℤ) then
        if totalLimit < 0 then none
        else some (finalizeSearchResults (entries.take totalLimit.toNat) params oldest)
      else some (finalizeSearchResults entries params oldest)

end AdGuardHome.Querylog
