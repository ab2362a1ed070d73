import AdGuardHome.Querylog.QLogFile
import AdGuardHome.Querylog.Timestamp

/-!
# The query log reader

Reads the records of several log files, newest first, and seeks to the records older than a given time.
-/

namespace AdGuardHome.Querylog

open AdGuardHome.Lib

/-- A reader of several files, from the oldest to the newest. -/
structure QLogReader where
  qFiles : List QLogFile
  currentFile : ℤ

namespace QLogReader

/-- A reader of the files, those of them that exist. -/
def newQLogReader (files : List File) : QLogReader where
  qFiles := files.map fun f => { file := f }
  currentFile := files.length - 1

/-- The reader with another state of one file. -/
def setFile (r : QLogReader) (i : ℕ) (q : QLogFile) : QLogReader := { r with qFiles := r.qFiles.set i q }

/-- Makes a file the current one and changes its position to its end. -/
def seekFile (r : QLogReader) (i : ℕ) : QLogReader where
  qFiles := r.qFiles.modify i QLogFile.seekStart
  currentFile := i

/-- Changes the position to the end of the newest file. -/
def seekStart (r : QLogReader) : QLogReader := if r.qFiles.isEmpty then r else r.seekFile (r.qFiles.length - 1)

/-- Shifts to the file older than the one at index `i`, if there is one. -/
def shift (r : QLogReader) : ℕ → QLogReader
  | 0 => { r with currentFile := -1 }
  | i + 1 => r.seekFile i

/-- The loop of `ReadNext`, with the file before index `n` as the current one. -/
def readLoop : ℕ → QLogReader → Option (Except Err Bytes × QLogReader)
  | 0, r => some (.error .eof, r)
  | i + 1, r =>
    match r.qFiles[i]? with
    | none => none
    | some q =>
      match q.readNext with
      | none => none
      | some (.ok line, q) => some (.ok line, r.setFile i q)
      | some (.error _, q) => readLoop i ((r.setFile i q).shift i)

/-- Reads the next line, in the reverse order, from the files. -/
def readNext (r : QLogReader) : Option (Except Err Bytes × QLogReader) :=
  if r.qFiles.isEmpty then some (.error .eof, r) else readLoop (r.currentFile + 1).toNat r

variable (readTS : Bytes → ℤ)

/-- The loop of `seekTS` over the files before index `n`, from the newest on, with the last error. -/
def seekTSLoop (timestamp : ℤ) : ℕ → Option Err → QLogReader → Option (Option Err × QLogReader)
  | 0, err, r => some (err.map .seekts, r)
  | i + 1, _, r =>
    match r.qFiles[i]? with
    | none => none
    | some q =>
      match q.seekTS readTS timestamp with
      | none => none
      | some (.ok _, q) => some (none, { r.setFile i q with currentFile := i })
      | some (.error err, q) =>
        if err.is .tsTooEarly then seekTSLoop timestamp i (some .tsNotFound) (r.setFile i q)
        else if err.is .tsTooLate then some (none, (r.setFile i q).seekStart)
        else if err.is .tsNotFound then some (some err, r.setFile i q)
        else some (some (.seektsFile i err), r.setFile i q)

/-- Looks for a record with the timestamp in the files, from the newest to the oldest. -/
def seekTS (r : QLogReader) (timestamp : ℤ) : Option (Option Err × QLogReader) :=
  seekTSLoop readTS timestamp r.qFiles.length none r

/-- Changes the position to the next record older than the time. -/
def seekRecord (r : QLogReader) (olderThan : Time) : Option (Option Err × QLogReader) :=
  if olderThan.IsZero then some (none, r.seekStart)
  else
    match r.seekTS readTS olderThan.unixNano with
    | none => none
    | some (some err, r) => some (some err, r)
    | some (none, r) =>
      match r.readNext with
      | none => none
      | some (.error err, r) => some (some err, r)
      | some (.ok _, r) => some (none, r)

/-- The results of `n` calls of `ReadNext`. -/
def reads : ℕ → QLogReader → Option (List (Except Err Bytes))
  | 0, _ => some []
  | n + 1, r =>
    match r.readNext with
    | none => none
    | some (res, r) => (reads n r).map (res :: ·)

end QLogReader

end AdGuardHome.Querylog
