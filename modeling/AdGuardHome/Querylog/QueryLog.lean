import AdGuardHome.Lib.RingBuffer
import AdGuardHome.Lib.Run
import AdGuardHome.Querylog.Search

/-!
# The query log and its callers

`qlog.go`, `querylogfile.go` and the calls of a search in `search.go`, while any number of them run at once.  `Add` has
`bufferLock` when it pushes an entry.  A flush has `fileFlushLock` from its start to its end; it has `bufferLock` only
while it encodes the entries and clears the buffer, and appends their records to the file after that.  A search has
`bufferLock` while it looks through the memory, and no lock of the two when it reads the files.  So a step of the log is
one of these sections.  Logging to the files is on, and the files can be read and written.

The fields of the state below `searches` are history, which no step reads: what was added, and what searches returned.
-/

namespace AdGuardHome.Querylog

open AdGuardHome.Lib

/-! ## A search in two halves -/

/-- `searchFiles` on the files, with so many rounds for its loop. -/
def searchFilesIn (env : SearchEnv) (params : SearchParams) (files : List File) (rounds : ℕ) :
    Option (List LogEntry × Time) :=
  match (QLogReader.newQLogReader files).seekRecord (readQLogTimestamp parseNano) params.olderThan with
  | none => none
  | some (some _, _) => some ([], ⟨0, 0⟩)
  | some (none, r) =>
    match readEntries env params (params.offset + params.limit) rounds r with
    | none => none
    | some (entries, oldestNano, _) => some (entries, if oldestNano ≠ 0 then Time.unix oldestNano else ⟨0, 0⟩)

/-- The rest of `search`, after its two halves. -/
def finishSearch (params : SearchParams) (memoryEntries : List LogEntry) (files : Option (List LogEntry × Time)) :
    Option (List LogEntry × Time) :=
  match files with
  | none => none
  | some (fileEntries, oldest) =>
    let totalLimit := params.offset + params.limit
    let entries := memoryEntries ++ fileEntries
    if totalLimit < (entries.length : ℤ) then
      if totalLimit < 0 then none
      else some (finalizeSearchResults (entries.take totalLimit.toNat) params oldest)
    else some (finalizeSearchResults entries params oldest)

theorem searchFiles_eq (env : SearchEnv) (params : SearchParams) (logs : List Log) :
    searchFiles env params logs = searchFilesIn env params (logs.map Log.file) ((newestFirst logs).length + 1) := rfl

/-- A search that nothing comes between is its two halves. -/
theorem search_eq (env : SearchEnv) {params : SearchParams} (h : params.limit ≠ 0) (memSize : ℕ)
    (memory : List LogEntry) (logs : List Log) : search env params memSize memory logs =
      finishSearch params (searchMemory env params memSize memory) (searchFiles env params logs) := by
  unfold search
  rw [if_neg h]
  rfl

/-! ## The state -/

/-- A search that has looked through the memory. -/
structure SearchCall where
  params : SearchParams
  memoryEntries : List LogEntry
  /-- History: the entries that were added before. -/
  before : List LogEntry
  /-- History: the records that were in the files then, and those that a flush was about to append. -/
  settled : List Bytes

/-- History: what a search has returned, `none` for a panic. -/
structure Answer where
  params : SearchParams
  /-- The entries that were added before the search started. -/
  before : List LogEntry
  /-- The number of the records in the files. -/
  records : ℕ
  result : Option (List LogEntry × Time)

/-- The size of the buffer. -/
def capacity (memSize : ℕ) : ℕ := if memSize = 0 then 1 else memSize

/-- `queryLog`.  A file that exists is given by the records in its lines. -/
structure QueryLog (memSize : ℕ) (R : RingBuffers LogEntry (capacity memSize)) where
  buffer : R.Buffer
  flushPending : Bool
  /-- How many calls of `flushLogBuffer` wait for `fileFlushLock`. -/
  waiting : ℕ
  /-- The records that the flush with `fileFlushLock` is about to append. -/
  taken : Option (List Bytes)
  rotatedFile : Option (List Bytes)
  logFile : Option (List Bytes)
  searches : List SearchCall
  answers : List Answer
  added : List LogEntry

namespace QueryLog

variable {memSize : ℕ} {R : RingBuffers LogEntry (capacity memSize)}

/-- The records in the files, from the oldest on. -/
def records (s : QueryLog memSize R) : List Bytes := s.rotatedFile.getD [] ++ s.logFile.getD []

/-- The files that exist, from the oldest on. -/
def files (s : QueryLog memSize R) : List File :=
  (s.rotatedFile.map fun ls => ⟨"querylog.json.1", unlines newline ls⟩).toList ++
    (s.logFile.map fun ls => ⟨"querylog.json", unlines newline ls⟩).toList

/-- A query log that has just been created over the files.  The entries that are read from their records count as added,
and an empty one for a record on which the decoder panics. -/
def new (env : SearchEnv) (rotatedFile logFile : Option Log) : QueryLog memSize R where
  buffer := R.new
  flushPending := false
  waiting := 0
  taken := none
  rotatedFile := rotatedFile.map Log.lines
  logFile := logFile.map Log.lines
  searches := []
  answers := []
  added := ((rotatedFile.map Log.lines).getD [] ++ (logFile.map Log.lines).getD []).map fun l =>
    (decoded env.decode l).getD {}

/-! ## The steps -/

/-- `Add`, from where it has `bufferLock`; a full buffer has a flush started, unless one is pending. -/
def add (s : QueryLog memSize R) (entry : LogEntry) : QueryLog memSize R :=
  let buffer := R.push s.buffer entry
  let flushes := !s.flushPending && decide (memSize ≤ R.len buffer)
  { s with
    buffer := buffer
    flushPending := s.flushPending || flushes
    waiting := if flushes then s.waiting + 1 else s.waiting
    added := s.added ++ [entry] }

/-- The records of `encodeEntries`, `none` if there is nothing to write or an entry cannot be encoded.  `zone` has the
offset of the zone of an entry's time. -/
def encoded (s : QueryLog memSize R) (zone : LogEntry → ℤ) : Option (List Bytes) :=
  if R.len s.buffer = 0 then none else (R.toList s.buffer).mapM fun entry => (entry.encode (zone entry)).map utf8

/-- The first half of `flushLogBuffer`, in a call that gets `fileFlushLock`: `encodeEntries`.  A call that fails returns
the lock. -/
def encodeEntries (s : QueryLog memSize R) (zone : LogEntry → ℤ) : QueryLog memSize R :=
  match s.waiting, s.taken with
  | waiting + 1, none =>
    match s.encoded zone with
    | none => { s with waiting := waiting }
    | some recs => { s with waiting := waiting, buffer := R.clear s.buffer, flushPending := false, taken := some recs }
  | _, _ => s

/-- The second half: `flushToFile`, which creates the file if there is none. -/
def flushToFile (s : QueryLog memSize R) : QueryLog memSize R :=
  match s.taken with
  | none => s
  | some recs => { s with logFile := some (s.logFile.getD [] ++ recs), taken := none }

/-- A call of `search`, up to the end of `searchMemory`. -/
def searchMemory (env : SearchEnv) (s : QueryLog memSize R) (params : SearchParams) : QueryLog memSize R :=
  if params.limit = 0 then { s with answers := s.answers ++ [⟨params, s.added, s.records.length, some ([], ⟨0, 0⟩)⟩] }
  else
    { s with
      searches := s.searches ++
        [{ params := params
           memoryEntries := Querylog.searchMemory env params memSize (R.toList s.buffer).reverse
           before := s.added
           settled := s.records ++ s.taken.getD [] }] }

/-- The rest of a call of `search`, from `searchFiles` on. -/
def searchFiles (env : SearchEnv) (s : QueryLog memSize R) (i : ℕ) : QueryLog memSize R :=
  match s.searches[i]? with
  | none => s
  | some call =>
    { s with
      searches := s.searches.eraseIdx i
      answers := s.answers ++
        [{ params := call.params
           before := call.before
           records := s.records.length
           result := finishSearch call.params call.memoryEntries
             (searchFilesIn env call.params s.files (s.records.length + 1)) }] }

/-- A step of one of the calls.  `flushLogBuffer` is the start of a flush that `Add` has not started. -/
inductive Op
  | add (entry : LogEntry)
  | flushLogBuffer
  | encodeEntries (zone : LogEntry → ℤ)
  | flushToFile
  | searchMemory (params : SearchParams)
  | searchFiles (i : ℕ)

def step (env : SearchEnv) (s : QueryLog memSize R) : Op → QueryLog memSize R
  | .add entry => s.add entry
  | .flushLogBuffer => { s with waiting := s.waiting + 1 }
  | .encodeEntries zone => s.encodeEntries zone
  | .flushToFile => s.flushToFile
  | .searchMemory params => s.searchMemory env params
  | .searchFiles i => s.searchFiles env i

end QueryLog

end AdGuardHome.Querylog
