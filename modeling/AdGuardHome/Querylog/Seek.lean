import AdGuardHome.Querylog.ReadBack

/-!
# Seeking in the query log

What the binary search of a file finds, what the reader makes of the answers of its files, and when
`seekRecord` lands at the records older than a time.
-/

namespace AdGuardHome.Querylog

open AdGuardHome.Lib

/-! ## Probes -/

section probe

variable {q : QLogFile} {s e p : ℕ}

/-- The bytes around a probe and the window of the file that they are. -/
theorem readProbeLine_chunk (hp : p ≤ q.file.data.length) (hne : q.file.data ≠ []) :
    ∃ chunk off, q.readProbeLine p = (QLogFile.lineAround chunk off (p - off)).map .ok ∧ off = p - maxEntrySize
      ∧ chunk.length = min (maxEntrySize * 2) (q.file.data.length - off)
      ∧ Window q.file.data (chunk ++ List.replicate (maxEntrySize * 2 - chunk.length) 0) off chunk.length := by
  have hpos : 0 < q.file.data.length := List.length_pos_iff.2 hne
  have hmax : 0 < maxEntrySize := by decide
  have hread : q.file.readAt (p - maxEntrySize) (maxEntrySize * 2)
      = .ok ((q.file.data.drop (p - maxEntrySize)).take (maxEntrySize * 2)) := by
    rw [File.readAt, if_neg (by omega)]
  have hseek : (if maxEntrySize < p then p - maxEntrySize else 0) = p - maxEntrySize := by
    split <;> omega
  have hrel : (if maxEntrySize < p then maxEntrySize else p) = p - (p - maxEntrySize) := by
    split <;> omega
  have hlen : ((q.file.data.drop (p - maxEntrySize)).take (maxEntrySize * 2)).length
      = min (maxEntrySize * 2) (q.file.data.length - (p - maxEntrySize)) := by simp
  refine ⟨_, _, ?_, rfl, hlen, ?_⟩
  · rw [QLogFile.readProbeLine]
    simp only [hseek, hrel, hread]
  · rw [hlen]
    exact window_take_drop _ _ _ _

/-- A probe inside a line, or at its break, reads that line. -/
theorem readProbeLine_eq (h : LineAt newline q.file.data s e) (hlen : e - s < maxEntrySize) (hs : s ≤ p)
    (he : p ≤ e) : q.readProbeLine p = some (.ok ((q.file.data.take e).drop s, s, e + 1)) := by
  have hle := h.le
  have hlt := h.lt_length
  obtain ⟨chunk, off, hprobe, hoff, hclen, hw⟩ :=
    readProbeLine_chunk (q := q) (p := p) (by omega) (List.ne_nil_of_length_pos (by omega))
  have hback := scanBack_window h (hw.mono (m := p - off) (by omega)) (by omega) (by omega) (by omega)
  have hfwd : scanFwd newline _ (chunk.length - (p - off)) (p - off) = some (e - off) :=
    scanFwd_window h hw (by omega) (by omega) (by omega) (by omega)
  have hslice := hw.slice (i := s - off) (j := e - off) (by omega)
  rw [Nat.add_sub_cancel' (by omega), Nat.add_sub_cancel' (by omega)] at hslice
  have hscan := Nat.eq_sub_of_add_eq' hback
  rw [hprobe]
  simp only [QLogFile.lineAround, hfwd, Option.getD_some, Option.elim_some]
  rw [hscan, if_neg (by omega), hslice, Nat.sub_add_cancel (by omega), Nat.sub_add_cancel (by omega)]
  rfl

/-- A probe at the end of the file reads no line. -/
theorem readProbeLine_end (hlast : q.file.data[q.file.data.length - 1]? = some newline) :
    q.readProbeLine q.file.data.length = some (.ok ([], q.file.data.length, q.file.data.length)) := by
  have hlt : 0 < q.file.data.length := by
    by_contra hc
    rw [List.getElem?_eq_none (by omega)] at hlast
    cases hlast
  have hmax : 0 < maxEntrySize := by decide
  obtain ⟨chunk, off, hprobe, hoff, hclen, hw⟩ :=
    readProbeLine_chunk (q := q) le_rfl (List.ne_nil_of_length_pos hlt)
  have hrel : q.file.data.length - off = chunk.length := by omega
  have hscan : scanBack newline (chunk ++ List.replicate (maxEntrySize * 2 - chunk.length) 0) chunk.length
      = chunk.length := by
    apply scanBack_eq le_rfl
    · right
      rw [hw _ (by omega), ← hlast]
      congr 1
      omega
    · intro j hj hlt
      omega
  rw [hprobe, hrel]
  simp only [QLogFile.lineAround, hscan, Nat.sub_self, scanFwd, Option.getD_none, Option.elim_none]
  have : chunk.length + off = q.file.data.length := by omega
  simp [this]

end probe

/-! ## The binary search of a file -/

section search

variable {readTS : Bytes → ℤ} {t : ℤ} {q : QLogFile} {st : TsSearchState} {log : Log}

/-- What one iteration does with a line that was not probed before. -/
theorem seekTSStep_eq {line : Bytes} {idx endIdx : ℕ}
    (hprobe : q.readProbeLine st.probe = some (.ok (line, idx, endIdx)))
    (hlast : (idx : ℤ) ≠ st.lastProbeLineIdx) (hsize : idx ≠ st.fileSize) (hts : readTS line ≠ 0)
    (hdepth : st.depth + 1 < maxSearchDepth) :
    (readTS line = t ∧ q.seekTSStep readTS t st
        = some (.ok true, { st with lastProbeLineIdx := idx, line := line, lineIdx := idx }))
    ∨ (t < readTS line ∧ q.seekTSStep readTS t st
        = some (.ok false, { st with lastProbeLineIdx := idx, stop := idx, probe := st.start + (idx - st.start) / 2,
                                     depth := st.depth + 1 }))
    ∨ (readTS line < t ∧ q.seekTSStep readTS t st
        = some (.ok false, { st with lastProbeLineIdx := idx, start := endIdx,
                                     probe := endIdx + (st.stop - endIdx) / 2, depth := st.depth + 1 })) := by
  have hvalid : q.readAndValidateProbe st t
      = some (.ok (line, idx, endIdx), { st with lastProbeLineIdx := idx }) := by
    rw [QLogFile.readAndValidateProbe, hprobe]
    simp only [QLogFile.validateQLogLineIdx, if_neg hlast, if_neg hsize]
  rw [QLogFile.seekTSStep, hvalid]
  simp only [if_neg hts]
  rcases lt_trichotomy (readTS line) t with hlt | heq | hgt
  · right; right
    refine ⟨hlt, ?_⟩
    rw [if_neg hlt.ne, if_neg (not_lt.2 hlt.le), if_neg (not_lt.2 hlt.le), if_neg (by omega)]
  · left
    exact ⟨heq, by rw [if_pos heq]⟩
  · right; left
    refine ⟨hgt, ?_⟩
    rw [if_neg hgt.ne', if_pos hgt, if_pos hgt, if_neg (by omega)]

/-- The interval of the search holds the lines `ms`: the lines `as` before it are older than the timestamp, the
lines `bs` after it are newer, and the last probe was at one of them. -/
structure Narrowed (readTS : Bytes → ℤ) (t : ℤ) (log : Log) (as ms bs : List Bytes) (st : TsSearchState) : Prop where
  lines : log.lines = as ++ ms ++ bs
  older : ∀ l ∈ as, readTS l < t
  newer : ∀ l ∈ bs, t < readTS l
  start : st.start = (unlines newline as).length
  stop : st.stop = st.start + (unlines newline ms).length
  probe : st.probe = st.start + (st.stop - st.start) / 2
  fileSize : st.fileSize = log.file.data.length
  lastProbe : st.lastProbeLineIdx < st.start ∨ (st.stop ≤ st.lastProbeLineIdx ∧ st.lastProbeLineIdx < st.fileSize)

/-- The lines have timestamps, in increasing order. -/
structure Dated (readTS : Bytes → ℤ) (ls : List Bytes) : Prop where
  increasing : ls.Pairwise fun a b => readTS a < readTS b
  dated : ∀ l ∈ ls, readTS l ≠ 0

theorem Dated.older {as bs : List Bytes} {l : Bytes} (h : Dated readTS (as ++ l :: bs)) :
    ∀ l' ∈ as, readTS l' < readTS l :=
  fun l' hl' => (List.pairwise_append.1 h.increasing).2.2 l' hl' l (by simp)

theorem Dated.newer {as bs : List Bytes} {l : Bytes} (h : Dated readTS (as ++ l :: bs)) :
    ∀ l' ∈ bs, readTS l < readTS l' :=
  (List.pairwise_cons.1 (List.pairwise_append.1 h.increasing).2.1).1

/-- What the search of a file with records can end with.  `At as l` says that it has stopped at the line `l` after
the lines `as`. -/
inductive Searched (readTS : Bytes → ℤ) (t : ℤ) (log : Log) (At : List Bytes → Bytes → Prop) {α : Type} :
    Except Err α → Prop
  | found {as bs : List Bytes} {l : Bytes} {a : α} (lines : log.lines = as ++ l :: bs) (ts : readTS l = t)
      (stopped : At as l) : Searched readTS t log At (.ok a)
  | tooEarly (newer : ∀ l ∈ log.lines, t < readTS l) :
      Searched readTS t log At (.error (.validatingLineIndex .tsTooEarly))
  | tooLate (older : ∀ l ∈ log.lines, readTS l < t) :
      Searched readTS t log At (.error (.validatingLineIndex .tsTooLate))
  | notFound {as bs : List Bytes} (lines : log.lines = as ++ bs) (as_ne : as ≠ []) (bs_ne : bs ≠ [])
      (older : ∀ l ∈ as, readTS l < t) (newer : ∀ l ∈ bs, t < readTS l) :
      Searched readTS t log At (.error (.validatingLineIndex (.lookingUp t log.name .tsNotFound)))

/-- The state of a search that has stopped at the line. -/
def TsSearchState.At (st : TsSearchState) (as : List Bytes) (l : Bytes) : Prop :=
  st.lineIdx = (unlines newline as).length ∧ st.line = l

/-- A probe in a line of the log. -/
theorem readProbeLine_log {as bs : List Bytes} {l : Bytes} {p : ℕ} (hq : q.file = log.file)
    (hlines : log.lines = as ++ l :: bs) (hs : (unlines newline as).length ≤ p)
    (he : p ≤ (unlines newline as).length + l.length) :
    q.readProbeLine p
      = some (.ok (l, (unlines newline as).length, (unlines newline as).length + l.length + 1)) := by
  have hmem : l ∈ log.lines := by simp [hlines]
  have hdata : q.file.data = unlines newline (as ++ l :: bs) := by rw [hq, Log.file, hlines]
  have hline := lineAt_unlines as bs (log.noBreak l hmem)
  have hshort := log.short l hmem
  rw [← hdata] at hline
  rw [readProbeLine_eq hline (by omega) hs he, hdata, slice_unlines]

/-- The interval is narrowed to one side of the line that was probed. -/
theorem Narrowed.step {as bs ns ms : List Bytes} {l : Bytes} (hq : q.file = log.file)
    (h : Narrowed readTS t log as (ns ++ l :: ms) bs st) (hdated : Dated readTS log.lines)
    (hs : (unlines newline (as ++ ns)).length ≤ st.probe)
    (he : st.probe ≤ (unlines newline (as ++ ns)).length + l.length) (hdepth : st.depth + 1 < maxSearchDepth) :
    (∃ st', q.seekTSStep readTS t st = some (.ok true, st') ∧ Searched readTS t log st'.At (.ok ()))
    ∨ ∃ as' ms' bs' st', q.seekTSStep readTS t st = some (.ok false, st') ∧ st'.depth = st.depth + 1
        ∧ Narrowed readTS t log as' ms' bs' st' ∧ 2 * (st'.stop - st'.start) ≤ st.stop - st.start := by
  have hlines : log.lines = (as ++ ns) ++ l :: (ms ++ bs) := by simp [h.lines]
  have hsize : log.file.data.length
      = (unlines newline (as ++ ns)).length + l.length + 1 + (unlines newline (ms ++ bs)).length := by
    rw [Log.file, hlines, unlines_append, unlines_cons, List.length_append, List.length_append, List.length_cons]
    omega
  have hstart := h.start
  have hstop := h.stop
  have hprobe := h.probe
  have hfile := h.fileSize
  have hlen : (unlines newline (ns ++ l :: ms)).length
      = (unlines newline ns).length + l.length + 1 + (unlines newline ms).length := by
    rw [unlines_append, unlines_cons, List.length_append, List.length_append, List.length_cons]
    omega
  have hns : (unlines newline (as ++ ns)).length = st.start + (unlines newline ns).length := by
    rw [unlines_append, List.length_append, hstart]
  have hlast := h.lastProbe
  obtain ⟨hts, hstep⟩ | ⟨hts, hstep⟩ | ⟨hts, hstep⟩ :=
    seekTSStep_eq (t := t) (readProbeLine_log hq hlines hs he) (by omega) (by omega)
      (hdated.dated l (by simp [hlines])) hdepth
  · exact .inl ⟨_, hstep, .found hlines hts ⟨rfl, rfl⟩⟩
  · -- the line is newer: the search goes on before it
    refine .inr ⟨as, ns, l :: (ms ++ bs), _, hstep, rfl,
      ⟨by simp [h.lines], h.older, ?_, hstart, hns, rfl, hfile, ?_⟩, ?_⟩
    · intro l' hl'
      obtain rfl | hl' := List.mem_cons.1 hl'
      · exact hts
      · exact hts.trans ((hlines ▸ hdated).newer l' hl')
    · right
      simp only
      omega
    · simp only
      omega
  · refine .inr ⟨as ++ ns ++ [l], ms, bs, _, hstep, rfl, ⟨by simp [h.lines], ?_, h.newer, ?_, ?_, rfl, hfile, ?_⟩, ?_⟩
    · intro l' hl'
      obtain hl' | hl' := List.mem_append.1 hl'
      · exact ((hlines ▸ hdated).older l' hl').trans hts
      · rw [List.mem_singleton.1 hl']
        exact hts
    · simp only [unlines_append, List.length_append, unlines_cons, List.length_cons, unlines_nil,
        List.length_nil] at hns ⊢
      omega
    · simp only
      omega
    · left
      simp only
      omega
    · simp only
      omega

/-- With nothing left in the interval and no line after it, the timestamp is too late. -/
theorem Narrowed.step_end {as : List Bytes} (hq : q.file = log.file) (h : Narrowed readTS t log as [] [] st)
    (hne : log.lines ≠ []) :
    q.seekTSStep readTS t st = some (.error (.validatingLineIndex .tsTooLate), st) := by
  have hlines : log.lines = as := by simpa using h.lines
  have hstop := h.stop
  have hstart : st.start = q.file.data.length := by rw [h.start, hq, Log.file, hlines]
  have hsize : st.fileSize = q.file.data.length := by rw [h.fileSize, hq]
  have hprobe : st.probe = q.file.data.length := by
    rw [h.probe, hstop, unlines_nil, List.length_nil]
    omega
  have hlast : q.file.data[q.file.data.length - 1]? = some newline := by
    rw [hq, Log.file]
    exact getElem?_unlines_last hne
  have hne' : (q.file.data.length : ℤ) ≠ st.lastProbeLineIdx := by
    have := h.lastProbe
    omega
  rw [QLogFile.seekTSStep, QLogFile.readAndValidateProbe, hprobe, readProbeLine_end hlast]
  simp only [QLogFile.validateQLogLineIdx, if_neg hne', hsize, if_true]

/-- With nothing left in the interval and the line after it probed last, the search ends. -/
theorem Narrowed.step_again {as bs : List Bytes} {l : Bytes} (hq : q.file = log.file)
    (h : Narrowed readTS t log as [] (l :: bs) st) (hlast : st.lastProbeLineIdx = st.start) :
    ∃ err, q.seekTSStep readTS t st = some (.error err, st)
      ∧ Searched readTS t log st.At (.error err : Except Err Unit) := by
  have hlines : log.lines = as ++ l :: bs := by simpa using h.lines
  have hstart := h.start
  have hprobe : st.probe = (unlines newline as).length := by
    rw [h.probe, h.stop, unlines_nil, List.length_nil]
    omega
  have hread := readProbeLine_log hq hlines hprobe.ge (by omega)
  rw [QLogFile.seekTSStep, QLogFile.readAndValidateProbe, hread]
  simp only [QLogFile.validateQLogLineIdx, hlast, ← hstart, if_true]
  by_cases has : as = []
  · rw [has, unlines_nil, List.length_nil] at hstart
    rw [if_pos hstart]
    refine ⟨_, rfl, .tooEarly ?_⟩
    rw [hlines, has]
    exact h.newer
  · have hpos : st.start ≠ 0 := by
      intro h0
      have hl := @getElem?_unlines_last _ newline _ has
      rw [List.getElem?_eq_none (by omega)] at hl
      cases hl
    rw [if_neg hpos]
    refine ⟨_, rfl, ?_⟩
    rw [hq]
    exact .notFound hlines has (by simp) h.older h.newer

/-- With nothing left in the interval, the line after it is probed again. -/
theorem Narrowed.step_next {as bs : List Bytes} {l : Bytes} (hq : q.file = log.file)
    (h : Narrowed readTS t log as [] (l :: bs) st) (hdated : Dated readTS log.lines)
    (hlast : st.lastProbeLineIdx ≠ st.start) (hdepth : st.depth + 1 < maxSearchDepth) :
    ∃ st', q.seekTSStep readTS t st = some (.ok false, st') ∧ Narrowed readTS t log as [] (l :: bs) st'
      ∧ st'.lastProbeLineIdx = st'.start := by
  have hlines : log.lines = as ++ l :: bs := by simpa using h.lines
  have hstart := h.start
  have hprobe : st.probe = (unlines newline as).length := by
    rw [h.probe, h.stop, hstart, unlines_nil, List.length_nil]
    omega
  have hsize : (unlines newline as).length < st.fileSize := by
    rw [h.fileSize, Log.file, hlines, unlines_append, unlines_cons]
    simp
  have hl := h.newer l (by simp)
  obtain ⟨hts, _⟩ | ⟨_, hstep⟩ | ⟨hts, _⟩ :=
    seekTSStep_eq (t := t) (readProbeLine_log hq hlines hprobe.ge (by omega)) (by omega) (by omega)
      (hdated.dated l (by simp [hlines])) hdepth
  · omega
  · refine ⟨_, hstep, ⟨h.lines, h.older, h.newer, hstart, ?_, rfl, h.fileSize, .inr ⟨le_rfl, ?_⟩⟩, ?_⟩
    · simp [hstart]
    · simpa using hsize
    · simp [hstart]
  · omega

/-- With nothing left in the interval, the search ends after one more look at the line after it. -/
theorem Narrowed.loop_nil {as bs : List Bytes} {fuel : ℕ} (hq : q.file = log.file)
    (h : Narrowed readTS t log as [] bs st) (hne : log.lines ≠ []) (hdated : Dated readTS log.lines)
    (hdepth : st.depth + 1 < maxSearchDepth) :
    ∃ res st', q.seekTSLoop readTS t (fuel + 2) st = some (res, st') ∧ Searched readTS t log st'.At res := by
  cases bs with
  | nil =>
    rw [QLogFile.seekTSLoop, h.step_end hq hne]
    refine ⟨_, _, rfl, .tooLate ?_⟩
    have hlines : log.lines = as := by simpa using h.lines
    rw [hlines]
    exact h.older
  | cons l bs =>
    by_cases hlast : st.lastProbeLineIdx = st.start
    · obtain ⟨err, hstep, hres⟩ := h.step_again hq hlast
      rw [QLogFile.seekTSLoop, hstep]
      exact ⟨_, _, rfl, hres⟩
    · obtain ⟨st', hstep, h', hlast'⟩ := h.step_next hq hdated hlast hdepth
      obtain ⟨err, hstep', hres⟩ := h'.step_again hq hlast'
      rw [QLogFile.seekTSLoop, hstep]
      simp only
      rw [QLogFile.seekTSLoop, hstep']
      exact ⟨_, _, rfl, hres⟩

/-- The interval halves with every probe, so the search ends before it is too deep. -/
theorem Narrowed.loop {as ms bs : List Bytes} {k fuel : ℕ} (hq : q.file = log.file)
    (h : Narrowed readTS t log as ms bs st) (hne : log.lines ≠ []) (hdated : Dated readTS log.lines)
    (hk : st.stop - st.start < 2 ^ k) (hdepth : st.depth + k + 1 < maxSearchDepth) (hfuel : k + 2 ≤ fuel) :
    ∃ res st', q.seekTSLoop readTS t fuel st = some (res, st') ∧ Searched readTS t log st'.At res := by
  obtain ⟨fuel, rfl⟩ := Nat.exists_eq_add_of_le' hfuel
  induction k generalizing as ms bs st fuel with
  | zero =>
    have hms : ms = [] := by
      have hstop := h.stop
      cases ms with
      | nil => rfl
      | cons l ms =>
        rw [unlines_cons, List.length_append, List.length_cons] at hstop
        omega
    subst hms
    exact h.loop_nil hq hne hdated (by omega)
  | succ k ih =>
    by_cases hms : ms = []
    · subst hms
      exact @loop_nil _ _ _ _ _ _ _ (fuel + k + 1) hq h hne hdated (by omega)
    · have hstop := h.stop
      have hpos : 0 < (unlines newline ms).length := by
        have hl := @getElem?_unlines_last _ newline _ hms
        have := (List.getElem?_eq_some_iff.1 hl).1
        omega
      have hprobe := h.probe
      have hmid : (st.stop - st.start) / 2 < (unlines newline ms).length := by omega
      obtain ⟨ns, l, ms, rfl, hle, hge⟩ := exists_line hmid
      have hns : (unlines newline (as ++ ns)).length = st.start + (unlines newline ns).length := by
        rw [unlines_append, List.length_append, h.start]
      obtain ⟨st', hstep, hres⟩ | ⟨as', ms', bs', st', hstep, hdepth', h', hhalf⟩ :=
        h.step hq hdated (by omega) (by omega) (by omega)
      all_goals rw [show fuel + (k + 1 + 2) = fuel + (k + 2) + 1 by omega, QLogFile.seekTSLoop, hstep]
      · exact ⟨_, _, rfl, hres⟩
      · simp only
        exact ih h' (by rw [pow_succ] at hk; omega) (by omega) _ (by omega)

/-- What `seekTS` of a file with records ends with. -/
theorem seekTS_searched (hq : q.file = log.file) (hne : log.lines ≠ []) (hdated : Dated readTS log.lines)
    (hsize : log.file.data.length < 2 ^ 63) :
    ∃ res q', q.seekTS readTS t = some (res, q') ∧ q'.file = log.file
      ∧ Searched readTS t log (fun as l => Aligned log (as ++ [l]) q') res := by
  have hstart : Narrowed readTS t log [] log.lines []
      { start := 0, stop := q.file.data.length, probe := q.file.data.length / 2, lastProbeLineIdx := -1,
        fileSize := q.file.data.length } :=
    ⟨by simp, by simp, by simp, rfl, by simp [hq, Log.file], by simp, by simp [hq], .inl (by simp)⟩
  have hdepth : 0 + 63 + 1 < maxSearchDepth := by decide
  obtain ⟨res, st', hloop, hres⟩ := hstart.loop (q := { q with buffer := none }) (k := 63) hq hne hdated
    (by simpa [hq] using hsize) hdepth (show 63 + 2 ≤ maxSearchDepth by decide)
  rw [QLogFile.seekTS]
  simp only [hloop]
  cases hres with
  | @found as bs l _ hlines hts hat =>
    refine ⟨_, _, rfl, hq, .found hlines hts ⟨hq, ?_, ?_, by simp⟩⟩
    · exact ⟨bs, by simp [hlines]⟩
    · simp [hat.1, hat.2]
  | tooEarly h => exact ⟨_, _, rfl, hq, .tooEarly h⟩
  | tooLate h => exact ⟨_, _, rfl, hq, .tooLate h⟩
  | notFound hlines has hbs holder hnewer => exact ⟨_, _, rfl, hq, .notFound hlines has hbs holder hnewer⟩

/-- The search of an empty file fails to read. -/
theorem seekTS_empty (hq : q.file = log.file) (hnil : log.lines = []) :
    ∃ q', q.seekTS readTS t = some (.error (.readingProbeLine .eof), q') ∧ q'.file = log.file := by
  have hdata : q.file.data = [] := by rw [hq, Log.file, hnil, unlines_nil]
  refine ⟨{ q with buffer := none }, ?_, hq⟩
  simp [QLogFile.seekTS, maxSearchDepth, QLogFile.seekTSLoop, QLogFile.seekTSStep, QLogFile.readAndValidateProbe,
    QLogFile.readProbeLine, File.readAt, hdata]

end search

end AdGuardHome.Querylog
