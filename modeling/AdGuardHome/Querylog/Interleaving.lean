import AdGuardHome.Lib.Each
import AdGuardHome.Querylog.PagedSearch
import AdGuardHome.Querylog.QueryLog
import AdGuardHome.Querylog.ReadAlike
import Mathlib.Data.List.Perm.Basic

/-!
# Interleaved calls of the query log

No entry is lost, and none is stored twice, just if no entry is pushed to a full buffer; the flush that is started when
the buffer becomes full may come too late for that.  A search returns every entry that was added before it and matches,
once, if between its two halves the records that a flush was appending, and no others, are appended to the file.  If
they are not, their entries are in neither of the places it looks at; if others are, it sees their entries twice.
-/

namespace AdGuardHome.Querylog

open AdGuardHome.Lib AdGuardHome.Lib.Json AdGuardHome.Net

/-! ## Records -/

theorem newline_not_mem_quoted (s : String) : '\n' ∉ quoted s := by
  have hescape : '\n' ∉ escape s := by
    intro h
    obtain ⟨c, -, hc⟩ := List.mem_flatMap.1 h
    rcases mem_escapeChar hc with h | h | h
    · exact absurd h (by decide)
    · exact absurd h (by decide)
    · exact absurd h (by decide)
  have hquote : '\n' ≠ quote := by decide
  unfold quoted
  simp [hescape, hquote]

mutual

theorem newline_not_mem_render : ∀ v : Json, '\n' ∉ render v
  | .null => by decide
  | .bool true => by decide
  | .bool false => by decide
  | .num n => by
    have hdigits : '\n' ∉ Nat.toDigits 10 n.natAbs := fun h => absurd (isDigit_of_mem_toDigits h) (by decide)
    rw [render, decimal]
    split
    · simp [hdigits]
    · exact hdigits
  | .str s => newline_not_mem_quoted s
  | .arr vs => by
    rw [render]
    simp [newline_not_mem_elems false vs]
  | .obj fields => by
    rw [render]
    simp [newline_not_mem_fields false fields]

theorem newline_not_mem_elems : ∀ (comma : Bool) (vs : List Json), '\n' ∉ renderElems comma vs
  | _, [] => by simp [renderElems]
  | comma, v :: vs => by
    rw [renderElems]
    cases comma <;> simp [newline_not_mem_render v, newline_not_mem_elems true vs]

theorem newline_not_mem_fields : ∀ (comma : Bool) (fields : List (String × Json)), '\n' ∉ renderFields comma fields
  | _, [] => by simp [renderFields]
  | comma, (k, v) :: fields => by
    rw [renderFields]
    cases comma <;>
      simp [newline_not_mem_quoted k, newline_not_mem_render v, newline_not_mem_fields true fields]

end

/-- The line can stand in a log. -/
structure LogLine (l : Bytes) : Prop where
  nonempty : l ≠ []
  noBreak : newline ∉ l
  short : l.length < maxEntrySize

theorem logLine_encode {e : LogEntry} {offset : ℤ} {cs : List Char} (h : e.encode offset = some cs)
    (hshort : (utf8 cs).length < maxEntrySize) : LogLine (utf8 cs) := by
  obtain ⟨time, ip, -, -, rfl⟩ := encode_cases h
  refine ⟨?_, ?_, hshort⟩
  · rw [render, utf8_cons]
    exact List.append_ne_nil_of_left_ne_nil (encode_ne_nil _) _
  · exact not_mem_utf8 (by decide) (newline_not_mem_render _)

/-- The record is that of the entry.  The records that are there from the start are those of the entries that are read
from them. -/
def Recorded (env : SearchEnv) (e : LogEntry) (l : Bytes) : Prop :=
  (decoded env.decode l).getD {} = e ∨ ∃ offset cs, e.encode offset = some cs ∧ l = utf8 cs

namespace QueryLog

variable {memSize : ℕ} {R : RingBuffers LogEntry (capacity memSize)} {env : SearchEnv} {s : QueryLog memSize R}

/-! ## No entry is lost -/

/-- Every entry that was added is once in the buffer, in the files or among the records that are about to be appended
to them; there are none of these when all flushes have finished. -/
def Conserved (env : SearchEnv) (s : QueryLog memSize R) : Prop :=
  ∃ written, List.Forall₂ (Recorded env) written (s.records ++ s.taken.getD []) ∧
    (written ++ R.toList s.buffer).Perm s.added

/-- No entry is pushed to a full buffer. -/
def NoOverwrite (s : QueryLog memSize R) : Op → Prop
  | .add _ => R.len s.buffer < capacity memSize
  | _ => True

theorem length_of_conserved (h : s.Conserved env) :
    s.records.length + (s.taken.getD []).length + R.len s.buffer = s.added.length := by
  obtain ⟨written, hrec, hperm⟩ := h
  have hlen := hperm.length_eq
  rw [List.length_append, hrec.length_eq, List.length_append] at hlen
  rw [R.len_eq]
  exact hlen

theorem conserved_new (rotatedFile logFile : Option Log) :
    (new env rotatedFile logFile : QueryLog memSize R).Conserved env := by
  refine ⟨(new env rotatedFile logFile : QueryLog memSize R).added, ?_, by simp [new]⟩
  rw [show (new env rotatedFile logFile : QueryLog memSize R).taken.getD [] = [] from rfl, List.append_nil]
  exact List.forall₂_map_left_iff.2 (List.forall₂_same.2 fun l _ => .inl rfl)

theorem records_flushToFile (s : QueryLog memSize R) :
    s.flushToFile.records ++ s.flushToFile.taken.getD [] = s.records ++ s.taken.getD [] := by
  unfold flushToFile records
  cases htaken : s.taken with
  | none =>
    dsimp only
    rw [htaken]
  | some recs => simp

/-- A flush takes nothing, or the records of all entries of the buffer. -/
theorem encodeEntries_cases (s : QueryLog memSize R) (zone : LogEntry → ℤ) :
    (s.encodeEntries zone).buffer = s.buffer ∧ (s.encodeEntries zone).taken = s.taken ∨
      s.taken = none ∧ (s.encodeEntries zone).buffer = R.clear s.buffer ∧
        ∃ recs, s.encoded zone = some recs ∧ (s.encodeEntries zone).taken = some recs := by
  unfold encodeEntries
  split
  · rename_i htaken
    cases hrecs : s.encoded zone with
    | none => exact .inl ⟨rfl, rfl⟩
    | some recs => exact .inr ⟨htaken, rfl, recs, rfl, rfl⟩
  · exact .inl ⟨rfl, rfl⟩

theorem history_encodeEntries (s : QueryLog memSize R) (zone : LogEntry → ℤ) :
    (s.encodeEntries zone).records = s.records ∧ (s.encodeEntries zone).searches = s.searches ∧
      (s.encodeEntries zone).answers = s.answers ∧ (s.encodeEntries zone).added = s.added := by
  unfold encodeEntries
  split
  · cases s.encoded zone <;> exact ⟨rfl, rfl, rfl, rfl⟩
  · exact ⟨rfl, rfl, rfl, rfl⟩

theorem forall₂_encoded {zone : LogEntry → ℤ} {recs : List Bytes} (h : s.encoded zone = some recs) :
    List.Forall₂ (fun e l => ∃ cs, e.encode (zone e) = some cs ∧ l = utf8 cs) (R.toList s.buffer) recs := by
  unfold encoded at h
  split at h
  · cases h
  revert h
  generalize R.toList s.buffer = entries
  intro h
  induction entries generalizing recs with
  | nil =>
    cases h
    exact .nil
  | cons e es ih =>
    rw [List.mapM_cons] at h
    obtain ⟨l, hl, h⟩ := Option.bind_eq_some_iff.1 h
    obtain ⟨ls, hls, h⟩ := Option.bind_eq_some_iff.1 h
    obtain ⟨cs, hcs, rfl⟩ := Option.map_eq_some_iff.1 hl
    cases h
    exact .cons ⟨cs, hcs, rfl⟩ (ih hls)

/-- A step that pushes to no full buffer keeps the entries. -/
theorem Conserved.step (h : s.Conserved env) {op : Op} (hok : s.NoOverwrite op) : (s.step env op).Conserved env := by
  obtain ⟨written, hrec, hperm⟩ := h
  cases op with
  | add entry =>
    refine ⟨written, hrec, ?_⟩
    show (written ++ R.toList (R.push s.buffer entry)).Perm (s.added ++ [entry])
    rw [R.toList_push_of_lt hok, ← List.append_assoc]
    exact hperm.append_right _
  | flushLogBuffer => exact ⟨written, hrec, hperm⟩
  | encodeEntries zone =>
    obtain ⟨hrecords, -, -, hadded⟩ := history_encodeEntries s zone
    unfold Conserved QueryLog.step
    dsimp only
    rw [hrecords, hadded]
    rcases encodeEntries_cases s zone with ⟨hbuffer, htaken⟩ | ⟨htaken, hbuffer, recs, hrecs, htaken'⟩
    · rw [hbuffer, htaken]
      exact ⟨written, hrec, hperm⟩
    · rw [hbuffer, htaken', R.toList_clear]
      rw [htaken, Option.getD_none, List.append_nil] at hrec
      refine ⟨written ++ R.toList s.buffer, List.rel_append hrec ?_, by rwa [List.append_nil]⟩
      exact (forall₂_encoded hrecs).imp fun e l ⟨cs, hcs, hl⟩ => .inr ⟨zone e, cs, hcs, hl⟩
  | flushToFile =>
    refine ⟨written, ?_, ?_⟩
    · show List.Forall₂ (Recorded env) written (s.flushToFile.records ++ s.flushToFile.taken.getD [])
      rwa [records_flushToFile]
    · show (written ++ R.toList s.flushToFile.buffer).Perm s.flushToFile.added
      unfold flushToFile
      cases s.taken <;> exact hperm
  | searchMemory params =>
    unfold QueryLog.step QueryLog.searchMemory
    dsimp only
    split <;> exact ⟨written, hrec, hperm⟩
  | searchFiles i =>
    unfold QueryLog.step QueryLog.searchFiles
    dsimp only
    split <;> exact ⟨written, hrec, hperm⟩

/-- An entry that is pushed to a full buffer takes the place of another one. -/
theorem not_conserved_overwrite (h : s.Conserved env) {op : Op} (hbad : ¬ s.NoOverwrite op) :
    ¬ (s.step env op).Conserved env := by
  cases op with
  | add entry =>
    intro h'
    have hlen := length_of_conserved h
    have hlen' : s.records.length + (s.taken.getD []).length + R.len (R.push s.buffer entry) =
        (s.added ++ [entry]).length :=
      length_of_conserved h'
    rw [R.len_push_of_not_lt hbad, List.length_append, List.length_singleton] at hlen'
    omega
  | _ => exact absurd trivial hbad

end QueryLog

/-! ## What a search returns -/

section search

variable {env : SearchEnv} {params : SearchParams} {logs : List Log}

/-- The search returns the entry of a record that matches: the quick match does not hide it, and it is not ignored. -/
def Told (env : SearchEnv) (params : SearchParams) (l : Bytes) : Prop :=
  ∃ r ∈ decoded env.decode l, params.matches env.fold (r.withClient env.findClient) = true →
    params.quickMatch env.fold env.findClient l = true ∧ ¬ Ignored env l

/-- The entry of a record, with its client; it is empty if the decoder panics. -/
def readEntry (env : SearchEnv) (l : Bytes) : LogEntry := ((decoded env.decode l).getD {}).withClient env.findClient

/-- How the search shows the entry: as it is in the memory, or as it is read from its record. -/
def Shown (env : SearchEnv) (e r : LogEntry) : Prop :=
  r = e.withClient env.findClient ∨ ∃ l, Recorded env e l ∧ (decoded env.decode l).isSome = true ∧ r = readEntry env l

/-- An entry matches just if what is read from its record does. -/
theorem Recorded.matches {e : LogEntry} {l : Bytes} (h : Recorded env e l) (hread : (decoded env.decode l).isSome = true)
    (params : SearchParams) : params.matches env.fold (e.withClient env.findClient) =
      params.matches env.fold (readEntry env l) := by
  obtain rfl | ⟨offset, cs, hcs, rfl⟩ := h
  · rfl
  · obtain ⟨r, hr⟩ := Option.isSome_iff_exists.1 hread
    have hcriteria : ∀ c : SearchCriterion, c.matches env.fold (e.withClient env.findClient) =
        c.matches env.fold (r.withClient env.findClient) :=
      fun c => (matches_decoded hcs hr env.fold env.findClient c).symm
    have htime : (r.withClient env.findClient).time = (e.withClient env.findClient).time := by
      show r.plain.time = e.time
      rw [plain_decoded hr, skimLogEntry_encode hcs]
      rfl
    rw [readEntry, hr, Option.getD_some]
    unfold SearchParams.matches
    simp only [htime, hcriteria]

theorem Told.isSome {l : Bytes} (h : Told env params l) : (decoded env.decode l).isSome = true := by
  obtain ⟨r, hr, -⟩ := h
  rw [Option.mem_def.1 hr]
  rfl

theorem checkLine_of_told {l : Bytes} (h : Told env params l) : (checkLine env params l).bind Prod.fst =
    Option.guard (params.matches env.fold) (readEntry env l) := by
  obtain ⟨r, hr, h⟩ := h
  have hr : decoded env.decode l = some r := hr
  unfold checkLine Option.guard readEntry
  rw [hr, Option.getD_some, Option.map_some]
  cases hmatches : params.matches env.fold (r.withClient env.findClient) with
  | true =>
    obtain ⟨hquick, hignored⟩ := h hmatches
    obtain ⟨hhost, hclient⟩ := not_or.1 fun hor => hignored ⟨r, hr, hor⟩
    simp [hquick, hhost, hclient, hmatches]
  | false =>
    rw [if_neg Bool.false_ne_true]
    split
    · rfl
    · rw [Option.bind_some]
      split
      · rfl
      · dsimp only
        split
        · rfl
        · simp [hmatches]

/-- A search panics at no record that is decoded. -/
theorem checks_of_told (htold : ∀ l ∈ newestFirst logs, Told env params l) {totalLimit : ℤ} :
    Checks env params totalLimit (olderRecords logs params.olderThan) := by
  intro read l after hsplit _ hnone
  have hl : l ∈ olderRecords logs params.olderThan := by simp [hsplit]
  obtain ⟨r, hr, -⟩ := htold l (mem_olderRecords hl).1
  rw [checkLine, Option.mem_def.1 hr] at hnone
  split at hnone <;> cases hnone

theorem time_readEntry {ls : List Bytes} (h : ValidLines env ls) {l : Bytes} (hl : l ∈ ls) (htold : Told env params l) :
    (readEntry env l).time = Time.unix (readQLogTimestamp parseNano l) := by
  obtain ⟨r, hr, -⟩ := htold
  rw [readEntry, Option.mem_def.1 hr]
  exact (h l hl).2 r hr

/-- The entries of all records that match are found. -/
theorem found_of_told (htold : ∀ l ∈ newestFirst logs, Told env params l) (hsought : params.olderThan.IsZero ∨
    ValidLines env (newestFirst logs) ∧ Cursor params.olderThan) : found env params (olderRecords logs params.olderThan) =
      ((newestFirst logs).map (readEntry env)).filter
        (params.matches env.fold) := by
  rw [found, olderRecords, List.filterMap_filter, ← List.filterMap_eq_filter, List.filterMap_map]
  refine List.filterMap_congr fun l hl => ?_
  rw [checkLine_of_told (htold l hl)]
  split
  · rfl
  · -- the record is not older, so it does not match
    rename_i hnot
    rw [decide_eq_true_eq] at hnot
    obtain ⟨hvalid, hcursor⟩ := hsought.resolve_left fun hzero => hnot (.inl hzero)
    have hmatches : params.matches env.fold (readEntry env l) =
        (decide (Older params.olderThan (readQLogTimestamp parseNano l)) && _) :=
      matches_older hcursor (time_readEntry hvalid hl (htold l hl))
    rw [decide_eq_false hnot, Bool.false_and] at hmatches
    simp [Option.guard, hmatches]

theorem scans_of_le {m n : ℕ} (h : params.scans n) (hmn : m ≤ n) : params.scans m := by
  unfold SearchParams.scans at h ⊢
  omega

/-- A search that no limit stops returns the entries of all records that match. -/
theorem searchFiles_of_told (htold : ∀ l ∈ newestFirst logs, Told env params l) (hsought : params.olderThan.IsZero ∨
    (DatedLogs (readQLogTimestamp parseNano) logs ∧ Reached (readQLogTimestamp parseNano) logs params.olderThan) ∧
      ValidLines env (newestFirst logs) ∧ Cursor params.olderThan)
    (hscans : params.scans (newestFirst logs).length)
    (hlimit : ((((newestFirst logs).map (readEntry env)).filter
      (params.matches env.fold)).length : ℤ) < params.offset + params.limit) :
    ∃ oldest, searchFiles env params logs =
      some (((newestFirst logs).map (readEntry env)).filter
        (params.matches env.fold), oldest) := by
  obtain ⟨entries, n, total, hfiles, hscanned⟩ : ∃ entries oldest, ∃ total : ℕ,
      searchFiles env params logs = some (entries, if oldest ≠ 0 then Time.unix oldest else ⟨0, 0⟩) ∧
        Scanned env params (params.offset + params.limit) (olderRecords logs params.olderThan) entries oldest total :=
    searchFiles_scanned (hsought.imp_right And.left) (checks_of_told htold)
  have hfound := found_of_told htold (hsought.imp_right And.right)
  rw [← hfound] at hlimit ⊢
  have hlength : (olderRecords logs params.olderThan).length ≤ (newestFirst logs).length := List.length_filter_le _ _
  refine ⟨_, hfiles.trans (congrArg some (Prod.ext ?_ rfl))⟩
  cases hscanned with
  | eof => rfl
  | @limit before after l e ts hsplit _ _ hreached =>
    -- so many entries are not among all of them
    rw [hsplit, ← List.singleton_append, ← List.append_assoc, length_found_append] at hlimit
    omega
  | @full before after l res ts hsplit _ _ hstop =>
    rw [hsplit, List.length_append, List.length_cons] at hlength
    have hscans' : params.scans (before.length + 1 : ℕ) := scans_of_le hscans (by omega)
    exact absurd hscans' hstop

/-- The results of the two halves are sorted, and trimmed by the offset. -/
theorem finishSearch_all {memoryEntries fileEntries : List LogEntry} (oldest : Time)
    (h : ((memoryEntries ++ fileEntries).length : ℤ) < params.offset + params.limit) :
    ∃ (all : List LogEntry) (oldest' : Time), all.Perm (memoryEntries ++ fileEntries) ∧
      finishSearch params memoryEntries (some (fileEntries, oldest)) =
        some (all.drop params.offset.toNat, oldest') := by
  refine ⟨(memoryEntries ++ fileEntries).mergeSort fun a b => !a.time.before b.time,
    (finalizeSearchResults (memoryEntries ++ fileEntries) params oldest).2, List.mergeSort_perm _ _, ?_⟩
  unfold finishSearch
  dsimp only
  rw [if_neg (not_lt.2 h.le)]
  refine congrArg some (Prod.ext ?_ rfl)
  unfold finalizeSearchResults
  dsimp only
  split
  · rename_i hshort
    exact (List.drop_eq_nil_of_le (by omega)).symm
  · split
    · rfl
    · rename_i hoffset
      rw [Int.toNat_of_nonpos (not_lt.1 hoffset), List.drop_zero]

end search

/-! ## Searches while entries are added and flushed -/

/-- The entries that were added before the search and match. -/
def Answer.matching (env : SearchEnv) (a : Answer) : List LogEntry :=
  a.before.filter fun e => a.params.matches env.fold (e.withClient env.findClient)

/-- No limit of the search is reached. -/
structure Answer.Unlimited (env : SearchEnv) (a : Answer) : Prop where
  limit : a.params.limit ≠ 0
  matching : ((a.matching env).length : ℤ) < a.params.offset + a.params.limit
  scans : a.params.scans a.records

/-- The search returns every entry that was added before and matches, once, but for those that its offset skips. -/
def Answer.Complete (env : SearchEnv) (a : Answer) : Prop :=
  a.Unlimited env → ∃ (es all : List LogEntry) (oldest : Time), es.Perm (a.matching env) ∧
    List.Forall₂ (Shown env) es all ∧ a.result = some (all.drop a.params.offset.toNat, oldest)

/-- A search between its halves has the matching ones of the entries that were in the memory; the records that were
settled are those of all others that were added before. -/
structure HalfDone (env : SearchEnv) (call : SearchCall) (memory written : List LogEntry) : Prop where
  entries : call.memoryEntries =
    (memory.map (LogEntry.withClient env.findClient)).filter (call.params.matches env.fold)
  recorded : List.Forall₂ (Recorded env) written call.settled
  before : (written ++ memory).Perm call.before

/-- What the two halves find are the entries that match, in the memory and in the files. -/
theorem HalfDone.found {env : SearchEnv} {call : SearchCall} {memory written : List LogEntry}
    (h : HalfDone env call memory written) {logs : List Log} (hnewest : newestFirst logs = call.settled.reverse)
    (hread : ∀ l ∈ newestFirst logs, (decoded env.decode l).isSome = true) :
    ∃ es : List LogEntry,
      es.Perm (call.before.filter fun e => call.params.matches env.fold (e.withClient env.findClient)) ∧
        List.Forall₂ (Shown env) es (call.memoryEntries ++
          ((newestFirst logs).map (readEntry env)).filter (call.params.matches env.fold)) := by
  have hmemory : List.Forall₂ (Shown env)
      (memory.filter fun e => call.params.matches env.fold (e.withClient env.findClient)) call.memoryEntries := by
    rw [h.entries, List.filter_map]
    exact List.forall₂_map_right_iff.2 (List.forall₂_same.2 fun e _ => .inl rfl)
  have hrecorded : List.Forall₂ (fun e l => (decoded env.decode l).isSome = true ∧ Recorded env e l) written.reverse
      (newestFirst logs) := by
    have hreverse : List.Forall₂ (Recorded env) written.reverse (newestFirst logs) := by
      rw [hnewest]
      exact List.rel_reverse h.recorded
    exact ((List.forall₂_and_left _ _).2 ⟨hread, hreverse.flip⟩).flip
  have hfiles : List.Forall₂ (Shown env)
      (written.reverse.filter fun e => call.params.matches env.fold (e.withClient env.findClient))
      (((newestFirst logs).map (readEntry env)).filter (call.params.matches env.fold)) := by
    rw [List.filter_map]
    have hfiltered := List.rel_filter (fun {e l} h => Bool.eq_iff_iff.1 (h.2.matches h.1 call.params)) hrecorded
    exact List.forall₂_map_right_iff.2 (hfiltered.imp fun e l h => .inr ⟨l, h.2, h.1, rfl⟩)
  refine ⟨(memory ++ written.reverse).filter fun e => call.params.matches env.fold (e.withClient env.findClient),
    ?_, ?_⟩
  · refine List.Perm.filter _ (List.Perm.trans ?_ h.before)
    exact ((List.reverse_perm written).append_left memory).trans List.perm_append_comm
  · rw [List.filter_append]
    exact List.rel_append hmemory hfiles

namespace QueryLog

variable {memSize : ℕ} {R : RingBuffers LogEntry (capacity memSize)} {env : SearchEnv} {s : QueryLog memSize R}

/-- The reader finds the place in the files from which the search goes on, and it divides the records by their times. -/
def Sought (env : SearchEnv) (s : QueryLog memSize R) (params : SearchParams) : Prop :=
  params.olderThan.IsZero ∨ ∃ logs, logs.map Log.file = s.files ∧ newestFirst logs = s.records.reverse ∧
    (DatedLogs (readQLogTimestamp parseNano) logs ∧ Reached (readQLogTimestamp parseNano) logs params.olderThan) ∧
      ValidLines env (newestFirst logs) ∧ Cursor params.olderThan

/-- The steps after which searches are complete.  In `searchFiles`, the records that were in the files or about to be
appended when the search looked through the memory are in the files now, and no others. -/
def Orderly (env : SearchEnv) (s : QueryLog memSize R) : Op → Prop
  | .add _ => R.len s.buffer < capacity memSize
  | .encodeEntries zone => ∀ e ∈ R.toList s.buffer, ∀ cs, e.encode (zone e) = some cs → (utf8 cs).length < maxEntrySize
  | .searchMemory _ => memSize = 0 → R.toList s.buffer = []
  | .searchFiles i => ∀ call ∈ s.searches[i]?,
    s.records = call.settled ∧ s.Sought env call.params ∧ ∀ l ∈ s.records, Told env call.params l
  | _ => True

theorem Orderly.noOverwrite {op : Op} (h : s.Orderly env op) : s.NoOverwrite op := by
  cases op with
  | add entry => exact h
  | _ => trivial

/-- What holds of the log along such a run. -/
structure Inv (env : SearchEnv) (s : QueryLog memSize R) : Prop where
  conserved : s.Conserved env
  lines : ∀ l ∈ s.records ++ s.taken.getD [], LogLine l
  pending : ∀ call ∈ s.searches, ∃ memory written, HalfDone env call memory written
  complete : ∀ a ∈ s.answers, a.Complete env

theorem inv_new (rotatedFile logFile : Option Log) : Inv env (new env rotatedFile logFile : QueryLog memSize R) where
  conserved := conserved_new rotatedFile logFile
  lines := by
    have hlog : ∀ (log : Option Log), ∀ l ∈ (log.map Log.lines).getD [], LogLine l := by
      intro log l hl
      cases log with
      | none => simp at hl
      | some log => exact ⟨log.nonempty l hl, log.noBreak l hl, log.short l hl⟩
    intro l hl
    rw [show (new env rotatedFile logFile : QueryLog memSize R).taken.getD [] = [] from rfl, List.append_nil] at hl
    exact (List.mem_append.1 hl).elim (hlog rotatedFile l) (hlog logFile l)
  pending := by simp [new]
  complete := by simp [new]

/-- The files are logs with the records. -/
theorem exists_logs (h : ∀ l ∈ s.records, LogLine l) :
    ∃ logs : List Log, logs.map Log.file = s.files ∧ newestFirst logs = s.records.reverse := by
  have hlog : ∀ (name : String) (lines : Option (List Bytes)), (∀ l ∈ lines.getD [], LogLine l) →
      ∃ logs : List Log, logs.map Log.file = (lines.map fun ls => (⟨name, unlines newline ls⟩ : File)).toList ∧
        logs.flatMap Log.lines = lines.getD [] := by
    intro name lines hlines
    cases lines with
    | none => exact ⟨[], rfl, rfl⟩
    | some ls =>
      refine ⟨[⟨name, ls, fun l hl => (hlines l hl).nonempty, fun l hl => (hlines l hl).noBreak,
        fun l hl => (hlines l hl).short⟩], rfl, ?_⟩
      simp
  obtain ⟨older, hfiles, hlines⟩ := hlog "querylog.json.1" s.rotatedFile fun l hl => h l (List.mem_append_left _ hl)
  obtain ⟨newer, hfiles', hlines'⟩ := hlog "querylog.json" s.logFile fun l hl => h l (List.mem_append_right _ hl)
  refine ⟨older ++ newer, by rw [List.map_append, hfiles, hfiles']; rfl, ?_⟩
  rw [newestFirst, List.flatMap_append, hlines, hlines']
  rfl

/-- A search from the newest record needs no more than that the files are logs. -/
theorem Sought.exists_logs {params : SearchParams} (h : s.Sought env params) (hlines : ∀ l ∈ s.records, LogLine l) :
    ∃ logs : List Log, logs.map Log.file = s.files ∧ newestFirst logs = s.records.reverse ∧
      (params.olderThan.IsZero ∨
        (DatedLogs (readQLogTimestamp parseNano) logs ∧ Reached (readQLogTimestamp parseNano) logs params.olderThan) ∧
          ValidLines env (newestFirst logs) ∧ Cursor params.olderThan) := by
  rcases h with hzero | ⟨logs, hfiles, hnewest, hplace⟩
  · obtain ⟨logs, hfiles, hnewest⟩ := QueryLog.exists_logs hlines
    exact ⟨logs, hfiles, hnewest, .inl hzero⟩
  · exact ⟨logs, hfiles, hnewest, .inr hplace⟩

/-- The second half of a search finds what the first half has not. -/
theorem complete_searchFiles (hlines : ∀ l ∈ s.records, LogLine l) {call : SearchCall} {memory written : List LogEntry}
    (hcall : HalfDone env call memory written) (hsettled : s.records = call.settled) (hsought : s.Sought env call.params)
    (htold : ∀ l ∈ s.records, Told env call.params l) :
    Answer.Complete env ⟨call.params, call.before, s.records.length,
      finishSearch call.params call.memoryEntries (searchFilesIn env call.params s.files (s.records.length + 1))⟩ := by
  rintro ⟨-, hlimit, hscans⟩
  obtain ⟨logs, hfiles, hnewest, hplace⟩ := hsought.exists_logs hlines
  have htold : ∀ l ∈ newestFirst logs, Told env call.params l :=
    fun l hl => htold l (by rw [hnewest] at hl; exact List.mem_reverse.1 hl)
  obtain ⟨es, hmatching, hshown⟩ := hcall.found (hsettled ▸ hnewest) fun l hl => (htold l hl).isSome
  have hlength : ((call.memoryEntries ++
      ((newestFirst logs).map (readEntry env)).filter
        (call.params.matches env.fold)).length : ℤ) < call.params.offset + call.params.limit := by
    rw [← hshown.length_eq, hmatching.length_eq]
    exact hlimit
  obtain ⟨oldest, hsearch⟩ := @searchFiles_of_told env call.params logs htold hplace
    (by rw [hnewest, List.length_reverse]; exact hscans) (by rw [List.length_append] at hlength; omega)
  rw [searchFiles_eq, hfiles, hnewest, List.length_reverse, ← hnewest] at hsearch
  obtain ⟨all, oldest', hperm, hfinish⟩ := finishSearch_all oldest hlength
  -- the sort moves the entries as it moves what is shown of them
  have hcomp : Relation.Comp (List.Forall₂ (Shown env)) List.Perm es all := ⟨_, hshown, hperm.symm⟩
  rw [List.forall₂_comp_perm_eq_perm_comp_forall₂] at hcomp
  obtain ⟨es', hes, hshown'⟩ := hcomp
  refine ⟨es', all, oldest', hes.symm.trans hmatching, hshown', ?_⟩
  dsimp only
  rw [hsearch, hfinish]

/-- A search has looked through the memory. -/
theorem halfDone_searchMemory (h : Inv env s) {params : SearchParams} (hok : memSize = 0 → R.toList s.buffer = []) :
    ∃ written, HalfDone env ⟨params, Querylog.searchMemory env params memSize (R.toList s.buffer).reverse, s.added,
      s.records ++ s.taken.getD []⟩ (R.toList s.buffer).reverse written := by
  obtain ⟨written, hrec, hperm⟩ := h.conserved
  refine ⟨written, ?_, hrec, ((List.reverse_perm _).append_left written).trans hperm⟩
  unfold Querylog.searchMemory
  split
  · rename_i hzero
    rw [hok hzero]
    rfl
  · rfl

theorem Inv.step (h : Inv env s) {op : Op} (hok : s.Orderly env op) : Inv env (s.step env op) := by
  have hconserved : (s.step env op).Conserved env := h.conserved.step hok.noOverwrite
  cases op with
  | add entry => exact ⟨hconserved, h.lines, h.pending, h.complete⟩
  | flushLogBuffer => exact ⟨hconserved, h.lines, h.pending, h.complete⟩
  | encodeEntries zone =>
    obtain ⟨hrecords, hsearches, hanswers, -⟩ := history_encodeEntries s zone
    refine ⟨hconserved, ?_, ?_, ?_⟩ <;> unfold QueryLog.step <;> dsimp only
    · rw [hrecords]
      rcases encodeEntries_cases s zone with ⟨-, htaken⟩ | ⟨-, -, recs, hrecs, htaken⟩ <;> rw [htaken]
      · exact h.lines
      · intro l hl
        rcases List.mem_append.1 hl with hl | hl
        · exact h.lines l (List.mem_append_left _ hl)
        · obtain ⟨e, he, cs, hcs, rfl⟩ := exists_left_of_forall₂ (forall₂_encoded hrecs) hl
          exact logLine_encode hcs (hok e he cs hcs)
    · rw [hsearches]
      exact h.pending
    · rw [hanswers]
      exact h.complete
  | flushToFile =>
    refine ⟨hconserved, ?_, ?_, ?_⟩ <;> unfold QueryLog.step <;> dsimp only
    · rw [records_flushToFile]
      exact h.lines
    · unfold flushToFile
      cases s.taken <;> exact h.pending
    · unfold flushToFile
      cases s.taken <;> exact h.complete
  | searchMemory params =>
    obtain ⟨written, hhalf⟩ := @halfDone_searchMemory memSize R env s h params hok
    unfold QueryLog.step QueryLog.searchMemory at hconserved ⊢
    dsimp only at hconserved ⊢
    split at hconserved
    · rename_i hzero
      rw [if_pos hzero]
      refine ⟨hconserved, h.lines, h.pending, fun a ha => ?_⟩
      rcases List.mem_append.1 ha with ha | ha
      · exact h.complete a ha
      · -- a search for nothing has reached its limit
        rw [List.mem_singleton.1 ha]
        exact fun hunlimited => absurd hzero hunlimited.limit
    · rename_i hlimit
      rw [if_neg hlimit]
      refine ⟨hconserved, h.lines, fun call hcall => ?_, h.complete⟩
      rcases List.mem_append.1 hcall with hcall | hcall
      · exact h.pending call hcall
      · rw [List.mem_singleton.1 hcall]
        exact ⟨_, written, hhalf⟩
  | searchFiles i =>
    unfold QueryLog.step QueryLog.searchFiles at hconserved ⊢
    dsimp only at hconserved ⊢
    cases hcall : s.searches[i]? with
    | none => exact h
    | some call =>
      rw [hcall] at hconserved
      obtain ⟨hsettled, hsought, htold⟩ := hok call hcall
      obtain ⟨memory, written, hhalf⟩ := h.pending call (List.mem_of_getElem? hcall)
      refine ⟨hconserved, h.lines, fun c hc => h.pending c (List.mem_of_mem_eraseIdx hc), fun a ha => ?_⟩
      rcases List.mem_append.1 ha with ha | ha
      · exact h.complete a ha
      · rw [List.mem_singleton.1 ha]
        exact complete_searchFiles (fun l hl => h.lines l (List.mem_append_left _ hl)) hhalf hsettled hsought htold

/-- An entry for a host. -/
def entryFor (host : String) : LogEntry :=
  { time := ⟨63871200000, 0⟩, qHost := host, qType := "A", qClass := "IN", ip := [192, 0, 2, 1] }

/-- A search looks through the memory while the records of two entries are about to be appended, and goes on after
that. -/
def inTransit : List Op :=
  [.add (entryFor "one.lan"), .add (entryFor "two.lan"), .encodeEntries fun _ => 0, .searchMemory {}, .flushToFile,
    .searchFiles 0]

/-- Two entries are added to a log with room for one before the flush takes the first one, which is lost. -/
def overwritten : List Op := [.add (entryFor "one.lan"), .add (entryFor "two.lan")]

/-- A search looks through the memory and the files while the record of an entry is about to be appended. -/
def missed : List Op :=
  [.add (entryFor "one.lan"), .encodeEntries fun _ => 0, .searchMemory {}, .searchFiles 0, .flushToFile]

end QueryLog

end AdGuardHome.Querylog
