import AdGuardHome.Querylog.QLogReader

/-!
# Backward reading of the query log

A reader that is moved to its start returns the lines of its files from the last line of the newest file to the
first line of the oldest one, whatever the buffers and the positions of its files were before.
-/

namespace AdGuardHome.Querylog

open AdGuardHome.Lib

/-- A log file: its lines are not empty, have no line break inside and are shorter than `maxEntrySize`. -/
structure Log where
  name : String
  lines : List Bytes
  nonempty : ∀ l ∈ lines, l ≠ []
  noBreak : ∀ l ∈ lines, newline ∉ l
  short : ∀ l ∈ lines, l.length < maxEntrySize

/-- The bytes of the log: each line ended by a line break. -/
def Log.file (log : Log) : File := ⟨log.name, unlines newline log.lines⟩

/-- The lines of the logs, the last of the newest log first. -/
def newestFirst (logs : List Log) : List Bytes := (logs.flatMap Log.lines).reverse

theorem newestFirst_take_succ {logs : List Log} {i : ℕ} {log : Log} (h : logs[i]? = some log) :
    newestFirst (logs.take (i + 1)) = log.lines.reverse ++ newestFirst (logs.take i) := by
  rw [List.take_add_one, h]
  simp [newestFirst]

/-- What the next call of `ReadNext` returns when `ls` are the lines yet to be read. -/
def answer : List Bytes → Except Err Bytes
  | [] => .error .eof
  | l :: _ => .ok l

/-- What `n` calls of `ReadNext` return when `ls` are the lines yet to be read. -/
def answers (n : ℕ) (ls : List Bytes) : List (Except Err Bytes) :=
  (ls.map Except.ok ++ List.replicate n (Except.error Err.eof)).take n

theorem answers_succ (n : ℕ) (ls : List Bytes) : answers (n + 1) ls = answer ls :: answers n ls.tail := by
  cases ls with
  | nil => simp [answers, answer, List.replicate_succ]
  | cons l ls =>
    have : (ls.map Except.ok ++ List.replicate (n + 1) (Except.error Err.eof)).take n
        = (ls.map Except.ok ++ List.replicate n (Except.error Err.eof)).take n := by
      simp [List.take_append, List.take_replicate]
      omega
    simp [answers, answer, this]

/-! ## One file -/

section file

variable {q : QLogFile} {s e : ℕ}

/-- The buffer, where there is one, has the bytes before the position from its start on. -/
structure Buffered (q : QLogFile) (position : ℕ) (b : Buffer) : Prop where
  start_le : q.bufferStart ≤ position
  le_size : position ≤ q.bufferStart + bufferSize
  window : Window q.file.data b.1 q.bufferStart (position - q.bufferStart)

theorem initBuffer_eq (q : QLogFile) (he : e < q.file.data.length) :
    ∃ b q', q.initBuffer e = (.ok (), q') ∧ q'.file = q.file ∧ q'.buffer = some b
      ∧ q'.bufferStart = e - bufferSize ∧ Buffered q' e b := by
  have hstart : (if bufferSize < e then e - bufferSize else 0) = e - bufferSize := by
    split <;> omega
  have hread : q.file.readAt (e - bufferSize) bufferSize
      = .ok ((q.file.data.drop (e - bufferSize)).take bufferSize) := by
    rw [File.readAt, if_neg (by omega)]
  simp only [QLogFile.initBuffer, hstart, hread]
  refine ⟨_, _, rfl, rfl, rfl, rfl, Nat.sub_le .., ?_, ?_⟩
  · simp only
    omega
  · simp only [Buffer.overwrite, List.take_take, Nat.min_self]
    exact Window.mono (window_take_drop _ _ _ _) (by omega)

/-- The line that ends at the position, read from a buffer that reaches the break before it. -/
theorem lineEndingAt_eq {b : Buffer} (h : LineAt newline q.file.data s e) (hb : q.buffer = some b)
    (hbuf : Buffered q e b) (hs : q.bufferStart = 0 ∨ q.bufferStart < s) :
    q.lineEndingAt e = some ((q.file.data.take e).drop s, s) := by
  have hle := h.le
  have hstart := hbuf.start_le
  have hsize := hbuf.le_size
  have hscan := scanBack_window h hbuf.window hs (by omega) (by omega)
  have hslice := hbuf.window.slice (i := scanBack newline b.1 (e - q.bufferStart)) le_rfl
  rw [hscan, Nat.add_sub_cancel' hstart] at hslice
  simp only [QLogFile.lineEndingAt, hb]
  rw [if_neg (by omega), hslice, hscan]

/-- The line that ends at the position is read whole, and the buffer then reaches the break before it. -/
theorem readNextLine_eq (h : LineAt newline q.file.data s e) (hlen : e - s < maxEntrySize)
    (hq : ∀ b, q.buffer = some b → Buffered q e b) :
    ∃ b q', q.readNextLine e = some (.ok ((q.file.data.take e).drop s, s), q') ∧ q'.file = q.file
      ∧ q'.buffer = some b ∧ Buffered q' e b ∧ (q'.bufferStart = 0 ∨ q'.bufferStart < s) := by
  have hle := h.le
  have hsize : bufferSize = 100 * maxEntrySize := rfl
  have he := h.lt_length
  unfold QLogFile.readNextLine
  simp only
  split
  · obtain ⟨b, q', hinit, hfile, hb, hstart, hbuf⟩ := initBuffer_eq q he
    have hs : q'.bufferStart = 0 ∨ q'.bufferStart < s := by omega
    have hline := lineEndingAt_eq (hfile ▸ h) hb hbuf hs
    refine ⟨b, q', ?_, hfile, hb, hbuf, hs⟩
    simp only [hinit, hline, hfile, Option.map_some]
  · rename_i hkeep
    push Not at hkeep
    obtain ⟨b, hb⟩ := Option.ne_none_iff_exists'.1 (by simpa using hkeep.1)
    have hbuf := hq b hb
    have hs : q.bufferStart = 0 ∨ q.bufferStart < s := by
      by_cases h0 : q.bufferStart = 0
      · exact .inl h0
      · right
        by_contra hc
        exact h0 (hkeep.2 (by omega))
    exact ⟨b, q, by rw [lineEndingAt_eq h hb hbuf hs]; rfl, rfl, hb, hbuf, hs⟩

/-- The position of the file is at the end of the lines `ls`, which are yet to be read. -/
structure Aligned (log : Log) (ls : List Bytes) (q : QLogFile) : Prop where
  file : q.file = log.file
  rest : ls <+: log.lines
  position : q.position = (unlines newline ls).length - 1
  buffered : ∀ b, q.buffer = some b → Buffered q q.position b

variable {log : Log}

theorem aligned_seekStart (h : q.file = log.file) : Aligned log log.lines q.seekStart where
  file := h
  rest := List.prefix_rfl
  position := by simp [QLogFile.seekStart, h, Log.file]
  buffered := by
    intro b hb
    cases hb

theorem readNext_nil (h : Aligned log [] q) : q.readNext = some (.error .eof, q) := by
  rw [QLogFile.readNext, if_pos (by simpa using h.position)]

theorem readNext_concat {before : List Bytes} {l : Bytes} (h : Aligned log (before ++ [l]) q) :
    ∃ q', q.readNext = some (.ok l, q') ∧ Aligned log before q' := by
  obtain ⟨after, hlines⟩ := h.rest
  have hmem : l ∈ log.lines := by
    rw [← hlines]
    simp
  have hdata : q.file.data = unlines newline (before ++ l :: after) := by
    rw [h.file, Log.file, ← hlines]
    simp
  have hpos : q.position = (unlines newline before).length + l.length := by
    rw [h.position]
    simp
  have hl : 0 < l.length := List.length_pos_iff.2 (log.nonempty l hmem)
  have hline : LineAt newline q.file.data (unlines newline before).length q.position := by
    rw [hdata, hpos]
    exact lineAt_unlines _ _ (log.noBreak l hmem)
  have hshort := log.short l hmem
  obtain ⟨b, q', hread, hfile, hb, hbuf, hs⟩ := readNextLine_eq hline (by omega) h.buffered
  have hslice : (q.file.data.take q.position).drop (unlines newline before).length = l := by
    rw [hdata, hpos, slice_unlines]
  rw [hslice] at hread
  refine ⟨_, by rw [QLogFile.readNext, if_neg (by omega), hread], ?_⟩
  have hnew : (if (unlines newline before).length = 0 then 0 else (unlines newline before).length - 1)
      = (unlines newline before).length - 1 := by
    split <;> omega
  refine ⟨by rw [← h.file, ← hfile], ⟨[l] ++ after, by simpa using hlines⟩, hnew, ?_⟩
  intro c hc
  obtain rfl : b = c := by simpa [hb] using hc
  refine ⟨?_, ?_, hbuf.window.mono ?_⟩ <;> simp only [hnew]
  · omega
  · have := hbuf.le_size
    omega
  · omega

end file

/-! ## The files of a reader -/

/-- The files of the reader are those of the logs, from the oldest to the newest. -/
def Over (logs : List Log) (r : QLogReader) : Prop := r.qFiles.map (·.file) = logs.map Log.file

theorem over_newQLogReader (logs : List Log) : Over logs (QLogReader.newQLogReader (logs.map Log.file)) := by
  simp [Over, QLogReader.newQLogReader]

/-- The reader of the logs has the lines `ls` yet to return. -/
inductive Pending (logs : List Log) (r : QLogReader) : List Bytes → Prop
  /-- There is no file, or all of them are read. -/
  | done (hover : Over logs r) (current : logs = [] ∨ r.currentFile = -1) : Pending logs r []
  /-- A file is read up to some line and the older ones are not read yet. -/
  | reading {i : ℕ} {log : Log} {q : QLogFile} {ls : List Bytes} (hover : Over logs r)
      (current : r.currentFile = i) (log_eq : logs[i]? = some log) (file_eq : r.qFiles[i]? = some q)
      (aligned : Aligned log ls q) : Pending logs r (ls.reverse ++ newestFirst (logs.take i))

namespace Over

variable {logs : List Log} {r : QLogReader}

theorem length_eq (h : Over logs r) : r.qFiles.length = logs.length := by
  have := congrArg List.length h
  simpa using this

theorem getElem? (h : Over logs r) {i : ℕ} {log : Log} (hi : logs[i]? = some log) :
    ∃ q, r.qFiles[i]? = some q ∧ q.file = log.file := by
  have hfile : (r.qFiles.map (·.file))[i]? = (logs.map Log.file)[i]? := by rw [h]
  rw [List.getElem?_map, List.getElem?_map, hi, Option.map_some, Option.map_eq_some_iff] at hfile
  exact hfile

theorem setFile (h : Over logs r) {i : ℕ} {q q' : QLogFile} (hi : r.qFiles[i]? = some q)
    (hfile : q'.file = q.file) : Over logs (r.setFile i q') := by
  have hself : r.qFiles.set i q = r.qFiles := by
    obtain ⟨_, rfl⟩ := List.getElem?_eq_some_iff.1 hi
    exact List.set_getElem_self _
  unfold Over QLogReader.setFile at *
  rw [List.map_set, hfile, ← h]
  conv_rhs => rw [← hself]
  rw [List.map_set]

theorem seekFile (h : Over logs r) (i : ℕ) : Over logs (r.seekFile i) := by
  unfold Over QLogReader.seekFile at *
  rw [← h]
  refine List.ext_getElem? fun j => ?_
  rw [List.getElem?_map, List.getElem?_map, List.getElem?_modify]
  by_cases hij : i = j
  · subst hij
    cases r.qFiles[i]? <;> simp [QLogFile.seekStart]
  · simp [hij]

/-- A file moved to its end has all of its lines yet to be read. -/
theorem pending_seekFile (h : Over logs r) {i : ℕ} (hi : i < logs.length) :
    Pending logs (r.seekFile i) (newestFirst (logs.take (i + 1))) := by
  have hlog := List.getElem?_eq_getElem hi
  obtain ⟨q, hq, hfile⟩ := h.getElem? hlog
  rw [newestFirst_take_succ hlog]
  refine .reading (h.seekFile i) rfl hlog ?_ (aligned_seekStart hfile)
  rw [QLogReader.seekFile, List.getElem?_modify_eq, hq]
  rfl

theorem pending_shift (h : Over logs r) {i : ℕ} (hi : i ≤ logs.length) :
    Pending logs (r.shift i) (newestFirst (logs.take i)) := by
  cases i with
  | zero => exact .done h (.inr rfl)
  | succ i => exact h.pending_seekFile hi

theorem pending_seekStart (h : Over logs r) : Pending logs r.seekStart (newestFirst logs) := by
  have hlen := h.length_eq
  unfold QLogReader.seekStart
  split
  · rename_i hempty
    have hlogs : logs = [] := by
      rw [List.isEmpty_iff.1 hempty] at hlen
      exact List.length_eq_zero_iff.1 hlen.symm
    rw [hlogs]
    exact .done (hlogs ▸ h) (.inl rfl)
  · rename_i hne
    have hpos : 0 < r.qFiles.length := List.length_pos_iff.2 (by simpa using hne)
    have := h.pending_seekFile (i := r.qFiles.length - 1) (by omega)
    rwa [show r.qFiles.length - 1 + 1 = logs.length by omega, List.take_length] at this

end Over

namespace Pending

variable {logs : List Log} {r : QLogReader} {ls : List Bytes}

theorem toOver (h : Pending logs r ls) : Over logs r := by
  cases h with
  | done hover _ => exact hover
  | reading hover _ _ _ _ => exact hover

/-- The loop of `ReadNext` returns the next of the lines, from the current file or from an older one. -/
theorem readLoop {n : ℕ} (hn : r.currentFile = n - 1) (hlogs : n ≤ logs.length) (h : Pending logs r ls) :
    ∃ r', QLogReader.readLoop n r = some (answer ls, r') ∧ Pending logs r' ls.tail := by
  induction n generalizing r ls with
  | zero =>
    cases h with
    | done hover _ => exact ⟨r, rfl, .done hover (.inr (by simpa using hn))⟩
    | reading _ hcur _ _ _ => omega
  | succ n ih =>
    cases h with
    | done _ hcur =>
      obtain rfl | hcur := hcur
      · simp at hlogs
      · omega
    | @reading i log q ls hover hcur hlog hq hal =>
      obtain rfl : i = n := by omega
      simp only [QLogReader.readLoop, hq]
      obtain rfl | ⟨before, l, rfl⟩ := List.eq_nil_or_concat ls
      · -- the file is read: the loop goes on with the older one
        rw [readNext_nil hal]
        have hshift : Over logs ((r.setFile i q)) := hover.setFile hq rfl
        exact ih (by cases i <;> simp [QLogReader.shift, QLogReader.seekFile]) (by omega)
          (hshift.pending_shift (by omega))
      · rw [List.concat_eq_append] at hal
        obtain ⟨q', hread, hal'⟩ := readNext_concat hal
        rw [hread]
        refine ⟨r.setFile i q', by simp [answer], ?_⟩
        have hlen : i < r.qFiles.length := (List.getElem?_eq_some_iff.1 hq).1
        simpa using Pending.reading (hover.setFile hq (hal'.file.trans hal.file.symm)) hcur hlog
          (by simp [QLogReader.setFile, hlen]) hal'

theorem readNext (h : Pending logs r ls) :
    ∃ r', r.readNext = some (answer ls, r') ∧ Pending logs r' ls.tail := by
  have hlen := h.toOver.length_eq
  unfold QLogReader.readNext
  split
  · rename_i hempty
    have hlogs : logs = [] := by
      rw [List.isEmpty_iff.1 hempty] at hlen
      exact List.length_eq_zero_iff.1 hlen.symm
    cases h with
    | done hover _ => exact ⟨r, rfl, .done hover (.inl hlogs)⟩
    | reading _ _ hlog _ _ => simp [hlogs] at hlog
  · rename_i hne
    have hlogs : logs ≠ [] := by
      rintro rfl
      simp at hlen
      simp [hlen] at hne
    cases h with
    | done hover hcur =>
      have hcur := hcur.resolve_left hlogs
      rw [hcur]
      exact readLoop (by simp [hcur]) (by simp) (.done hover (.inr hcur))
    | @reading i log q ls hover hcur hlog hq hal =>
      have hi : i < logs.length := (List.getElem?_eq_some_iff.1 hlog).1
      have : (r.currentFile + 1).toNat = i + 1 := by omega
      rw [this]
      exact readLoop (by omega) (by omega) (.reading hover hcur hlog hq hal)

theorem reads (h : Pending logs r ls) (n : ℕ) : r.reads n = some (answers n ls) := by
  induction n generalizing r ls with
  | zero => simp [QLogReader.reads, answers]
  | succ n ih =>
    obtain ⟨r', hread, h'⟩ := h.readNext
    rw [QLogReader.reads, hread, answers_succ]
    simp [ih h']

end Pending

/-- `SeekStart` and then `ReadNext` again and again, from any state of a reader of the logs, returns every line of
the logs once, newest first, and `io.EOF` from then on. -/
theorem reads_seekStart {logs : List Log} {r : QLogReader} (h : Over logs r) (n : ℕ) :
    r.seekStart.reads n = some (answers n (newestFirst logs)) := h.pending_seekStart.reads n

/-- The records of a rotated log and of the current one. -/
def rotatedLogs : List Log :=
  [⟨"querylog.json.1", [[97], [98, 99]], by decide, by decide, by decide⟩,
    ⟨"querylog.json", [[100]], by decide, by decide, by decide⟩]

theorem reads_seekStart_rotatedLogs :
    (QLogReader.newQLogReader (rotatedLogs.map Log.file)).seekStart.reads 5
      = some [.ok [100], .ok [98, 99], .ok [97], .error .eof, .error .eof] :=
  reads_seekStart (over_newQLogReader rotatedLogs) 5

end AdGuardHome.Querylog
