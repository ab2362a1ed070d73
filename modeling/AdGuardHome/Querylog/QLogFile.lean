import AdGuardHome.Lib.Lines

/-!
# Query log files

A log file that is read backward, line by line, through a buffer, and searched for a timestamp by binary search
over its bytes.  A result of `none` is a run-time panic: an index or a slice bound out of range.
-/

namespace AdGuardHome.Querylog

open AdGuardHome.Lib

/-- Bytes of a file or of a string. -/
abbrev Bytes := List UInt8

/-- The line break. -/
def newline : UInt8 := 10

/-- The maximum size of an entry. -/
def maxEntrySize : ℕ := 16 * 1024

/-- The size of the buffer of consecutive reads. -/
def bufferSize : ℕ := 100 * maxEntrySize

/-- The maximum number of search iterations. -/
def maxSearchDepth : ℕ := 100

/-- The errors of the package.  A formatted one has the values it is formatted from. -/
inductive Err
  /-- `io.EOF` -/
  | eof
  /-- "ts not found" -/
  | tsNotFound
  /-- "ts too late" -/
  | tsTooLate
  /-- "ts too early" -/
  | tsTooEarly
  /-- "looking up timestamp %d in %q: %w" -/
  | lookingUp (timestamp : ℤ) (name : String) (err : Err)
  /-- "looking up timestamp %d in %q: record %q has empty timestamp" -/
  | emptyTimestamp (timestamp : ℤ) (name : String) (line : Bytes)
  /-- "looking up timestamp %d in %q: depth %d too high: %w" -/
  | depthTooHigh (timestamp : ℤ) (name : String) (depth : ℕ) (err : Err)
  /-- "reading probe line: %w" -/
  | readingProbeLine (err : Err)
  /-- "validating line index: %w" -/
  | validatingLineIndex (err : Err)
  /-- "seekts: file at index %d: %w" -/
  | seektsFile (i : ℕ) (err : Err)
  /-- "seekts: %w" -/
  | seekts (err : Err)
  deriving DecidableEq, Repr

/-- `errors.Is`: the error, or one that it wraps, is the target. -/
def Err.is : Err → Err → Bool
  | lookingUp t n err, target => lookingUp t n err = target || err.is target
  | depthTooHigh t n d err, target => depthTooHigh t n d err = target || err.is target
  | readingProbeLine err, target => readingProbeLine err = target || err.is target
  | validatingLineIndex err, target => validatingLineIndex err = target || err.is target
  | seektsFile i err, target => seektsFile i err = target || err.is target
  | seekts err, target => seekts err = target || err.is target
  | err, target => err = target

/-- A regular file. -/
structure File where
  name : String
  data : Bytes

/-- `Seek` to the offset and `Read` into a buffer of the length: the bytes that were read. -/
def File.readAt (f : File) (off len : ℕ) : Except Err Bytes :=
  if f.data.length ≤ off then .error .eof else .ok ((f.data.drop off).take len)

/-- A buffer of consecutive reads, never resized. -/
abbrev Buffer := {b : Bytes // b.length = bufferSize}

/-- `make([]byte, bufferSize)` -/
def Buffer.make : Buffer := ⟨List.replicate bufferSize 0, List.length_replicate⟩

/-- The buffer with its first bytes overwritten by those that were read. -/
def Buffer.overwrite (b : Buffer) (chunk : Bytes) : Buffer :=
  ⟨chunk.take bufferSize ++ b.1.drop (chunk.take bufferSize).length, by
    have hb := b.2
    simp only [List.length_append, List.length_take, List.length_drop]
    omega⟩

/-- A single query log file, with the position up to which it is yet to be read backward. -/
structure QLogFile where
  file : File
  buffer : Option Buffer := none
  position : ℕ := 0
  bufferStart : ℕ := 0
  bufferLen : ℕ := 0

/-- The state of the loop of the binary search. -/
structure TsSearchState where
  line : Bytes := []
  stop : ℕ
  fileSize : ℕ
  lastProbeLineIdx : ℤ
  lineIdx : ℕ := 0
  probe : ℕ
  start : ℕ
  depth : ℕ := 0

namespace QLogFile

/-! ## Reading backward -/

/-- Reads the chunk of the file that ends at the position, or the first one. -/
def initBuffer (q : QLogFile) (position : ℕ) : Except Err Unit × QLogFile :=
  let bufferStart := if bufferSize < position then position - bufferSize else 0
  let buffer := q.buffer.getD .make
  match q.file.readAt bufferStart bufferSize with
  | .error err => (.error err, { q with bufferStart := bufferStart, buffer := some buffer, bufferLen := 0 })
  | .ok chunk =>
    (.ok (), { q with bufferStart := bufferStart, buffer := some (buffer.overwrite chunk), bufferLen := chunk.length })

/-- The line of the buffer that ends at the position, and where in the file it begins. -/
def lineEndingAt (q : QLogFile) (position : ℕ) : Option (Bytes × ℕ) :=
  let relativePos := position - q.bufferStart
  match q.buffer with
  | none => none
  | some b =>
    if bufferSize < relativePos then none
    else
      let startLine := scanBack newline b.1 relativePos
      some ((b.1.take relativePos).drop startLine, q.bufferStart + startLine)

/-- Reads the line that ends at the position, after the chunk around it where the buffer does not reach.  With
the position before the buffer, `relativePos` is negative in the source and zero here, the same to the test. -/
def readNextLine (q : QLogFile) (position : ℕ) : Option (Except Err (Bytes × ℕ) × QLogFile) :=
  let relativePos := position - q.bufferStart
  if q.buffer.isNone ∨ (relativePos < maxEntrySize ∧ q.bufferStart ≠ 0) then
    match q.initBuffer position with
    | (.error err, q) => some (.error err, q)
    | (.ok (), q) => (q.lineEndingAt position).map fun res => (.ok res, q)
  else (q.lineEndingAt position).map fun res => (.ok res, q)

/-- Changes the position to the end of the file. -/
def seekStart (q : QLogFile) : QLogFile := { q with buffer := none, position := max (q.file.data.length - 1) 0 }

/-- Reads the next line, in the reverse order, and shifts the position left to the previous one. -/
def readNext (q : QLogFile) : Option (Except Err Bytes × QLogFile) :=
  if q.position = 0 then some (.error .eof, q)
  else
    match q.readNextLine q.position with
    | none => none
    | some (.error err, q) => some (.error err, q)
    | some (.ok (line, lineIdx), q) =>
      some (.ok line, { q with position := if lineIdx = 0 then 0 else lineIdx - 1 })

/-! ## Binary search -/

/-- The line around an offset of the bytes that were read, where it begins and where the next one does. -/
def lineAround (chunk : Bytes) (seekPosition relativePos : ℕ) : Option (Bytes × ℕ × ℕ) :=
  let buffer := chunk ++ List.replicate (maxEntrySize * 2 - chunk.length) 0
  let bufferLen := chunk.length
  let startLine := scanBack newline buffer relativePos
  let nl := scanFwd newline buffer (bufferLen - relativePos) relativePos
  let endLine := nl.getD bufferLen
  let lineEndIdx := nl.elim (bufferLen + seekPosition) (· + seekPosition + 1)
  if endLine < startLine then none
  else some ((buffer.take endLine).drop startLine, startLine + seekPosition, lineEndIdx)

/-- Reads the line that includes the position. -/
def readProbeLine (q : QLogFile) (position : ℕ) : Option (Except Err (Bytes × ℕ × ℕ)) :=
  let seekPosition := if maxEntrySize < position then position - maxEntrySize else 0
  let relativePos := if maxEntrySize < position then maxEntrySize else position
  match q.file.readAt seekPosition (maxEntrySize * 2) with
  | .error err => some (.error err)
  | .ok chunk => (lineAround chunk seekPosition relativePos).map .ok

/-- The error if the line index is not valid to continue the search. -/
def validateQLogLineIdx (q : QLogFile) (lineIdx : ℕ) (lastProbeLineIdx ts : ℤ) (fSize : ℕ) : Option Err :=
  if (lineIdx : ℤ) = lastProbeLineIdx then
    if lineIdx = 0 then some .tsTooEarly else some (.lookingUp ts q.file.name .tsNotFound)
  else if lineIdx = fSize then some .tsTooLate
  else none

/-- Reads the probe line and validates its index. -/
def readAndValidateProbe (q : QLogFile) (st : TsSearchState) (timestamp : ℤ) :
    Option (Except Err (Bytes × ℕ × ℕ) × TsSearchState) :=
  match q.readProbeLine st.probe with
  | none => none
  | some (.error err) => some (.error (.readingProbeLine err), st)
  | some (.ok (line, lineIdx, lineEndIdx)) =>
    match q.validateQLogLineIdx lineIdx st.lastProbeLineIdx timestamp st.fileSize with
    | some err => some (.error (.validatingLineIndex err), st)
    | none => some (.ok (line, lineIdx, lineEndIdx), { st with lastProbeLineIdx := lineIdx })

-- `readQLogTimestamp`, zero for a line without a timestamp
variable (readTS : Bytes → ℤ)

/-- One iteration of the binary search. -/
def seekTSStep (q : QLogFile) (timestamp : ℤ) (st : TsSearchState) : Option (Except Err Bool × TsSearchState) :=
  match q.readAndValidateProbe st timestamp with
  | none => none
  | some (.error err, st) => some (.error err, st)
  | some (.ok (line, lineIdx, lineEndIdx), st) =>
    let ts := readTS line
    if ts = 0 then some (.error (.emptyTimestamp timestamp q.file.name line), st)
    else if ts = timestamp then some (.ok true, { st with line := line, lineIdx := lineIdx })
    else
      let stop := if timestamp < ts then lineIdx else st.stop
      let start := if timestamp < ts then st.start else lineEndIdx
      let st := { st with stop := stop, start := start, probe := start + (stop - start) / 2, depth := st.depth + 1 }
      if maxSearchDepth ≤ st.depth then
        some (.error (.depthTooHigh timestamp q.file.name st.depth .tsNotFound), st)
      else some (.ok false, st)

/-- The loop of the search.  An iteration that goes on has a depth below `maxSearchDepth`, so this many suffice. -/
def seekTSLoop (q : QLogFile) (timestamp : ℤ) : ℕ → TsSearchState → Option (Except Err Unit × TsSearchState)
  | 0, _ => none
  | fuel + 1, st =>
    match q.seekTSStep readTS timestamp st with
    | none => none
    | some (.error err, st) => some (.error err, st)
    | some (.ok true, st) => some (.ok (), st)
    | some (.ok false, st) => seekTSLoop q timestamp fuel st

/-- Looks for a record with the timestamp and, once it is found, sets the position so that the next read
returns that record. -/
def seekTS (q : QLogFile) (timestamp : ℤ) : Option (Except Err (ℕ × ℕ) × QLogFile) :=
  let q := { q with buffer := none }
  let fileSize := q.file.data.length
  let st : TsSearchState :=
    { start := 0, stop := fileSize, probe := fileSize / 2, lastProbeLineIdx := -1, fileSize := fileSize }
  match q.seekTSLoop readTS timestamp maxSearchDepth st with
  | none => none
  | some (.error err, _) => some (.error err, q)
  | some (.ok (), st) =>
    let position := st.lineIdx + st.line.length
    some (.ok (position, st.depth), { q with position := position })

end QLogFile

end AdGuardHome.Querylog
