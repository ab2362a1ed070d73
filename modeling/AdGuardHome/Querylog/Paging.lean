import AdGuardHome.Querylog.Seek

/-!
# Paging through the query log

After `seekRecord` the reader is expected to return the records older than the time, newest first, and
`seekRecord` to fail only if there are none.  The reader does so if there is no older record, if a record has
exactly the time and no newer file is empty, or if the time is right before the only record of the newest file;
for any other time it drops records, returns records that are not older or fails.
-/

namespace AdGuardHome.Querylog

open AdGuardHome.Lib

variable (readTS : Bytes → ℤ)

/-- The records of the logs have timestamps that increase from the oldest log to the newest, and the sizes of the
files are `int64`. -/
structure DatedLogs (logs : List Log) : Prop where
  dated : Dated readTS (logs.flatMap Log.lines)
  size : ∀ log ∈ logs, log.file.data.length < 2 ^ 63

/-- After `seekRecord` succeeds, the reader returns the records older than the time, newest first; it fails only if
there are none. -/
def PagesRight (logs : List Log) (r : QLogReader) (olderThan : Time) : Prop :=
  match r.seekRecord readTS olderThan with
  | none => False
  | some (none, r') =>
    ∀ n, r'.reads n = some (answers n ((newestFirst logs).filter fun l => readTS l < olderThan.unixNano))
  | some (some _, _) => ∀ l ∈ newestFirst logs, ¬ readTS l < olderThan.unixNano

/-- A record has exactly the timestamp, and no file newer than its own is empty. -/
def Exact (logs : List Log) (t : ℤ) : Prop :=
  ∃ older log newer, logs = older ++ log :: newer ∧ (∃ l ∈ log.lines, readTS l = t) ∧ ∀ log' ∈ newer, log'.lines ≠ []

/-- The newest file has a single record, which is newer than the timestamp, and the records of the file before it
are older. -/
def BeforeSingle (logs : List Log) (t : ℤ) : Prop :=
  ∃ older log newest l, logs = older ++ [log, newest] ∧ newest.lines = [l] ∧ t < readTS l ∧ log.lines ≠ []
    ∧ ∀ l' ∈ log.lines, readTS l' < t

/-- The times to which `seekRecord` can seek. -/
def Reached (logs : List Log) (olderThan : Time) : Prop :=
  if olderThan.IsZero then ∀ l ∈ newestFirst logs, readTS l < olderThan.unixNano
  else (∀ l ∈ newestFirst logs, ¬ readTS l < olderThan.unixNano) ∨ Exact readTS logs olderThan.unixNano
    ∨ BeforeSingle readTS logs olderThan.unixNano

variable {readTS} {t : ℤ} {logs : List Log} {r : QLogReader}

/-! ## What the reader makes of its files -/

/-- The logs that the search has passed: they have records, all newer than the timestamp. -/
def Passed (readTS : Bytes → ℤ) (t : ℤ) (newer : List Log) : Prop :=
  ∀ log ∈ newer, log.lines ≠ [] ∧ ∀ l ∈ log.lines, t < readTS l

/-- What `seekTS` of the reader can end with. -/
inductive Sought (readTS : Bytes → ℤ) (t : ℤ) (logs : List Log) : Option Err → QLogReader → Prop
  /-- The record is found, and is the next one to be read. -/
  | found {older newer : List Log} {log : Log} {as bs : List Bytes} {l : Bytes} {r : QLogReader}
      (split : logs = older ++ log :: newer) (passed : Passed readTS t newer) (lines : log.lines = as ++ l :: bs)
      (ts : readTS l = t) (pending : Pending logs r (l :: (as.reverse ++ newestFirst older))) :
      Sought readTS t logs none r
  /-- A file is older than the timestamp: the reader is moved to the end of the newest one. -/
  | tooLate {older newer : List Log} {log : Log} {r : QLogReader} (split : logs = older ++ log :: newer)
      (passed : Passed readTS t newer) (ne : log.lines ≠ []) (log_older : ∀ l ∈ log.lines, readTS l < t)
      (pending : Pending logs r (newestFirst logs)) : Sought readTS t logs none r
  /-- There are no files. -/
  | noFiles {r : QLogReader} (nil : logs = []) (pending : Pending logs r []) : Sought readTS t logs none r
  /-- All records are newer than the timestamp. -/
  | tooEarly {err : Err} {r : QLogReader} (passed : Passed readTS t logs) : Sought readTS t logs (some err) r
  /-- A file is empty. -/
  | empty {older newer : List Log} {log : Log} {err : Err} {r : QLogReader} (split : logs = older ++ log :: newer)
      (passed : Passed readTS t newer) (nil : log.lines = []) : Sought readTS t logs (some err) r
  /-- The timestamp is between two records of a file. -/
  | notFound {older newer : List Log} {log : Log} {as bs : List Bytes} {err : Err} {r : QLogReader}
      (split : logs = older ++ log :: newer) (passed : Passed readTS t newer) (lines : log.lines = as ++ bs)
      (as_ne : as ≠ []) (bs_ne : bs ≠ []) (as_older : ∀ l ∈ as, readTS l < t) (bs_newer : ∀ l ∈ bs, t < readTS l) :
      Sought readTS t logs (some err) r

theorem DatedLogs.log {older newer : List Log} {log : Log} (h : DatedLogs readTS logs)
    (hsplit : logs = older ++ log :: newer) : Dated readTS log.lines := by
  have hsub : List.Sublist log.lines (logs.flatMap Log.lines) := by
    rw [hsplit]
    simp
  exact ⟨h.dated.increasing.sublist hsub, fun l hl => h.dated.dated l (hsub.subset hl)⟩

theorem seekTSLoop_sought {n : ℕ} {err : Option Err} (h : DatedLogs readTS logs) (hover : Over logs r)
    (hn : n ≤ logs.length) (hpassed : Passed readTS t (logs.drop n)) (herr : err = none → n = logs.length) :
    ∃ res r', QLogReader.seekTSLoop readTS t n err r = some (res, r') ∧ Sought readTS t logs res r' := by
  induction n generalizing r err with
  | zero =>
    rw [QLogReader.seekTSLoop]
    cases err with
    | none =>
      have hnil : logs = [] := List.length_eq_zero_iff.1 (herr rfl).symm
      exact ⟨_, _, rfl, .noFiles hnil (.done hover (.inl hnil))⟩
    | some err => exact ⟨_, _, rfl, .tooEarly (by simpa using hpassed)⟩
  | succ i ih =>
    obtain ⟨log, hlog, hdrop⟩ : ∃ log, logs[i]? = some log ∧ logs.drop i = log :: logs.drop (i + 1) :=
      ⟨_, List.getElem?_eq_getElem hn, List.drop_eq_getElem_cons hn⟩
    have hsplit : logs = logs.take i ++ log :: logs.drop (i + 1) := by rw [← hdrop, List.take_append_drop]
    obtain ⟨q, hq, hfile⟩ := hover.getElem? hlog
    simp only [QLogReader.seekTSLoop, hq]
    by_cases hnil : log.lines = []
    · obtain ⟨q', hseek, _⟩ := @seekTS_empty readTS t _ _ hfile hnil
      rw [hseek]
      exact ⟨_, _, rfl, .empty hsplit hpassed hnil⟩
    · obtain ⟨res, q', hseek, hfile', hres⟩ :=
        seekTS_searched (t := t) hfile hnil (h.log hsplit) (h.size log (List.mem_of_getElem? hlog))
      have hover' : Over logs (r.setFile i q') := hover.setFile hq (hfile'.trans hfile.symm)
      rw [hseek]
      cases hres with
      | @found as bs l p hlines hts hal =>
        refine ⟨_, _, rfl, .found hsplit hpassed hlines hts ?_⟩
        have hlen : i < r.qFiles.length := (List.getElem?_eq_some_iff.1 hq).1
        have hpending : Pending logs { r.setFile i q' with currentFile := i } _ :=
          .reading hover' rfl hlog (by simp [QLogReader.setFile, hlen]) hal
        simpa using hpending
      | tooEarly hnewer =>
        refine ih hover' (by omega) ?_ (by simp)
        rw [hdrop]
        intro log' hlog'
        obtain rfl | hlog' := List.mem_cons.1 hlog'
        · exact ⟨hnil, hnewer⟩
        · exact hpassed log' hlog'
      | tooLate holder =>
        exact ⟨_, _, rfl, .tooLate hsplit hpassed hnil holder hover'.pending_seekStart⟩
      | notFound hlines has hbs holder hnewer =>
        exact ⟨_, _, rfl, .notFound hsplit hpassed hlines has hbs holder hnewer⟩

theorem seekTS_sought (h : DatedLogs readTS logs) (hover : Over logs r) :
    ∃ res r', r.seekTS readTS t = some (res, r') ∧ Sought readTS t logs res r' := by
  have hlen := hover.length_eq
  exact seekTSLoop_sought h hover (by omega) (by simp [hlen, Passed]) (by simp [hlen])

/-! ## The records around the timestamp -/

/-- Two places in a list are the same one, or one is before the other. -/
theorem split_cases {α : Type} {as bs cs ds : List α} {x y : α} (h : as ++ x :: bs = cs ++ y :: ds) :
    (as = cs ∧ x = y ∧ bs = ds) ∨ (x ∈ cs ∧ y ∈ bs) ∨ (x ∈ ds ∧ y ∈ as) := by
  obtain ⟨es, rfl, hbs⟩ | ⟨es, rfl, hds⟩ := List.append_eq_append_iff.1 h
  · cases es with
    | nil =>
      obtain ⟨rfl, rfl⟩ := List.cons.inj hbs
      exact .inl ⟨by simp, rfl, rfl⟩
    | cons e es =>
      obtain ⟨rfl, rfl⟩ := List.cons.inj hbs
      exact .inr (.inl ⟨by simp, by simp⟩)
  · cases es with
    | nil =>
      obtain ⟨rfl, rfl⟩ := List.cons.inj hds
      exact .inl ⟨by simp, rfl, rfl⟩
    | cons e es =>
      obtain ⟨rfl, rfl⟩ := List.cons.inj hds
      exact .inr (.inr ⟨by simp, by simp⟩)

theorem filter_append_eq_right {α : Type} {p : α → Bool} {as bs : List α} (has : ∀ a ∈ as, p a = false)
    (hbs : ∀ b ∈ bs, p b = true) : (as ++ bs).filter p = bs := by
  rw [List.filter_append, List.filter_eq_self.2 hbs, List.filter_eq_nil_iff.2 (by simpa using has), List.nil_append]

theorem mem_newestFirst {l : Bytes} : l ∈ newestFirst logs ↔ ∃ log ∈ logs, l ∈ log.lines := by
  simp [newestFirst]

theorem answers_injective {as bs : List Bytes} (h : ∀ n, answers n as = answers n bs) : as = bs := by
  induction as generalizing bs with
  | nil =>
    have h1 := h 1
    rw [answers_succ, answers_succ] at h1
    cases bs with
    | nil => rfl
    | cons b bs => simp [answer] at h1
  | cons a as ih =>
    cases bs with
    | nil =>
      have h1 := h 1
      rw [answers_succ, answers_succ] at h1
      simp [answer] at h1
    | cons b bs =>
      have hsucc : ∀ n, a = b ∧ answers n as = answers n bs := by
        intro n
        have := h (n + 1)
        rw [answers_succ, answers_succ] at this
        simpa [answer] using this
      rw [(hsucc 0).1, ih fun n => (hsucc n).2]

theorem newestFirst_split (older newer : List Log) (log : Log) :
    newestFirst (older ++ log :: newer) = newestFirst newer ++ (log.lines.reverse ++ newestFirst older) := by
  simp [newestFirst]

variable {older newer : List Log} {log : Log}

theorem DatedLogs.lt_of_older (h : DatedLogs readTS logs) (hsplit : logs = older ++ log :: newer) {log' : Log}
    (hlog' : log' ∈ older) {l' l : Bytes} (hl' : l' ∈ log'.lines) (hl : l ∈ log.lines) : readTS l' < readTS l := by
  have hinc := h.dated.increasing
  rw [hsplit, List.flatMap_append] at hinc
  exact (List.pairwise_append.1 hinc).2.2 l' (List.mem_flatMap.2 ⟨log', hlog', hl'⟩) l
    (List.mem_flatMap.2 ⟨log, by simp, hl⟩)

theorem Passed.not_older (h : Passed readTS t newer) {l : Bytes} (hl : l ∈ newestFirst newer) : ¬ readTS l < t := by
  obtain ⟨log, hlog, hl⟩ := mem_newestFirst.1 hl
  exact not_lt.2 ((h log hlog).2 l hl).le

/-- The records older than one with the timestamp. -/
theorem filter_found {as bs : List Bytes} {l : Bytes} (h : DatedLogs readTS logs)
    (hsplit : logs = older ++ log :: newer) (hpassed : Passed readTS t newer) (hlines : log.lines = as ++ l :: bs)
    (hts : readTS l = t) : (newestFirst logs).filter (fun l => readTS l < t) = as.reverse ++ newestFirst older := by
  have hlog := h.log hsplit
  rw [hlines] at hlog
  have heq : newestFirst logs
      = (newestFirst newer ++ (bs.reverse ++ [l])) ++ (as.reverse ++ newestFirst older) := by
    rw [hsplit, newestFirst_split, hlines]
    simp
  rw [heq]
  apply filter_append_eq_right
  · intro l' hl'
    simp only [List.mem_append, List.mem_reverse, List.mem_singleton] at hl'
    obtain hl' | hl' | rfl := hl'
    · exact decide_eq_false (hpassed.not_older hl')
    · exact decide_eq_false (not_lt.2 (hts ▸ (hlog.newer l' hl').le))
    · exact decide_eq_false (by omega)
  · intro l' hl'
    simp only [List.mem_append, List.mem_reverse] at hl'
    obtain hl' | hl' := hl'
    · exact decide_eq_true (hts ▸ hlog.older l' hl')
    · obtain ⟨log', hlog', hl'⟩ := mem_newestFirst.1 hl'
      exact decide_eq_true (hts ▸ h.lt_of_older hsplit hlog' hl' (by simp [hlines]))

/-- The records older than the timestamp, if they are those of a log and of the logs older than it. -/
theorem filter_tooLate (h : DatedLogs readTS logs) (hsplit : logs = older ++ log :: newer)
    (hpassed : Passed readTS t newer) (hne : log.lines ≠ []) (holder : ∀ l ∈ log.lines, readTS l < t) :
    (newestFirst logs).filter (fun l => readTS l < t) = log.lines.reverse ++ newestFirst older := by
  rw [hsplit, newestFirst_split]
  apply filter_append_eq_right
  · intro l hl
    exact decide_eq_false (hpassed.not_older hl)
  · intro l hl
    simp only [List.mem_append, List.mem_reverse] at hl
    obtain hl | hl := hl
    · exact decide_eq_true (holder l hl)
    · obtain ⟨log', hlog', hl⟩ := mem_newestFirst.1 hl
      obtain ⟨l₁, hl₁⟩ := List.exists_mem_of_ne_nil _ hne
      exact decide_eq_true ((h.lt_of_older hsplit hlog' hl hl₁).trans (holder l₁ hl₁))

/-- No record has the timestamp, or a file newer than the record is empty. -/
theorem not_exact (h : DatedLogs readTS logs) (hsplit : logs = older ++ log :: newer)
    (hpassed : Passed readTS t newer) (hno : ∀ l ∈ log.lines, readTS l ≠ t)
    (hlog : log.lines = [] ∨ ∃ l ∈ log.lines, readTS l < t) : ¬ Exact readTS logs t := by
  rintro ⟨older', log', newer', hsplit', ⟨l', hl', hts⟩, hne⟩
  obtain ⟨-, rfl, -⟩ | ⟨-, hmem⟩ | ⟨hmem, hmem'⟩ := split_cases (hsplit.symm.trans hsplit')
  · exact hno l' hl' hts
  · have := (hpassed log' hmem).2 l' hl'
    omega
  · obtain ⟨l, hl, hlt⟩ := hlog.resolve_left (hne log hmem)
    have := h.lt_of_older hsplit hmem' hl' hl
    omega

/-- The record before which the time is, if the log is the next one. -/
theorem BeforeSingle.cases (h : BeforeSingle readTS logs t) (hsplit : logs = older ++ log :: newer)
    (hpassed : Passed readTS t newer) :
    ∃ newest l, newest.lines = [l] ∧ t < readTS l
      ∧ ((newer = [newest] ∧ log.lines ≠ [] ∧ ∀ l' ∈ log.lines, readTS l' < t) ∨ log = newest) := by
  obtain ⟨older', log', newest, l, hsplit', hlines, hlt, hne, holder⟩ := h
  refine ⟨newest, l, hlines, hlt, ?_⟩
  obtain ⟨-, rfl, rfl⟩ | ⟨-, hmem⟩ | ⟨hmem, -⟩ := split_cases (hsplit.symm.trans hsplit')
  · exact .inl ⟨rfl, hne, holder⟩
  · obtain ⟨l', hl'⟩ := List.exists_mem_of_ne_nil _ hne
    have h1 := (hpassed log' hmem).2 l' hl'
    have h2 := holder l' hl'
    omega
  · exact .inr (List.mem_singleton.1 hmem)

/-- An empty file is in the way. -/
theorem not_beforeSingle_of_nil (hsplit : logs = older ++ log :: newer) (hpassed : Passed readTS t newer)
    (hnil : log.lines = []) : ¬ BeforeSingle readTS logs t := by
  intro hb
  obtain ⟨newest, l, hlines, -, ⟨-, hne, -⟩ | rfl⟩ := hb.cases hsplit hpassed
  · exact hne hnil
  · simp [hnil] at hlines

/-- The time is between two records of a file. -/
theorem not_beforeSingle_of_between {as bs : List Bytes} (hsplit : logs = older ++ log :: newer)
    (hpassed : Passed readTS t newer) (hlines : log.lines = as ++ bs) (has : as ≠ []) (hbs : bs ≠ [])
    (hnewer : ∀ l ∈ bs, t < readTS l) : ¬ BeforeSingle readTS logs t := by
  intro hb
  obtain ⟨newest, l, hl, -, ⟨-, -, hall⟩ | rfl⟩ := hb.cases hsplit hpassed
  · obtain ⟨l₁, hl₁⟩ := List.exists_mem_of_ne_nil _ hbs
    have := hall l₁ (by simp [hlines, hl₁])
    have := hnewer l₁ hl₁
    omega
  · have hlen := congrArg List.length (hlines.symm.trans hl)
    have := List.length_pos_iff.2 has
    have := List.length_pos_iff.2 hbs
    simp only [List.length_append, List.length_singleton] at hlen
    omega

theorem not_exact_of_between {as bs : List Bytes} (h : DatedLogs readTS logs) (hsplit : logs = older ++ log :: newer)
    (hpassed : Passed readTS t newer) (hlines : log.lines = as ++ bs) (has : as ≠ [])
    (holder : ∀ l ∈ as, readTS l < t) (hnewer : ∀ l ∈ bs, t < readTS l) : ¬ Exact readTS logs t := by
  obtain ⟨l₀, hl₀⟩ := List.exists_mem_of_ne_nil _ has
  refine not_exact h hsplit hpassed ?_ (.inr ⟨l₀, by simp [hlines, hl₀], holder l₀ hl₀⟩)
  intro l hl
  rw [hlines] at hl
  obtain hl | hl := List.mem_append.1 hl
  · exact (holder l hl).ne
  · exact (hnewer l hl).ne'

/-- Logs that are not empty and have one record in all. -/
theorem Passed.single (h : Passed readTS t newer) (hlen : (newestFirst newer).length = 1) :
    ∃ newest l, newer = [newest] ∧ newest.lines = [l] := by
  cases newer with
  | nil => simp [newestFirst] at hlen
  | cons newest rest =>
    have hpos := List.length_pos_iff.2 (h newest (by simp)).1
    simp only [newestFirst, List.length_reverse, List.flatMap_cons, List.length_append] at hlen
    obtain ⟨l, hl⟩ := List.length_eq_one_iff.1 (show newest.lines.length = 1 by omega)
    cases rest with
    | nil => exact ⟨newest, l, rfl, hl⟩
    | cons log rest =>
      have hpos' := List.length_pos_iff.2 (h log (by simp)).1
      simp only [List.flatMap_cons, List.length_append] at hlen
      omega

/-! ## Paging -/

section paging

variable {olderThan : Time}

theorem pagesRight_zero (hover : Over logs r) (hzero : olderThan.IsZero) :
    PagesRight readTS logs r olderThan ↔ ∀ l ∈ newestFirst logs, readTS l < olderThan.unixNano := by
  unfold PagesRight QLogReader.seekRecord
  rw [if_pos hzero]
  simp only [hover.pending_seekStart.reads, Option.some.injEq]
  constructor
  · intro hall l hl
    rw [answers_injective hall] at hl
    simpa using (List.mem_filter.1 hl).2
  · intro hall n
    rw [List.filter_eq_self.2 fun l hl => by simpa using hall l hl]

theorem pagesRight_failed {err : Err} {r' : QLogReader} (ht : ¬ olderThan.IsZero)
    (hseek : r.seekTS readTS olderThan.unixNano = some (some err, r')) :
    PagesRight readTS logs r olderThan ↔ ∀ l ∈ newestFirst logs, ¬ readTS l < olderThan.unixNano := by
  unfold PagesRight QLogReader.seekRecord
  rw [if_neg ht, hseek]

theorem pagesRight_pending_nil {r' : QLogReader} (ht : ¬ olderThan.IsZero)
    (hseek : r.seekTS readTS olderThan.unixNano = some (none, r')) (hp : Pending logs r' []) :
    PagesRight readTS logs r olderThan ↔ ∀ l ∈ newestFirst logs, ¬ readTS l < olderThan.unixNano := by
  obtain ⟨r'', hread, -⟩ := hp.readNext
  unfold PagesRight QLogReader.seekRecord
  rw [if_neg ht, hseek]
  simp only [hread, answer]

theorem pagesRight_pending_cons {l : Bytes} {ls : List Bytes} {r' : QLogReader} (ht : ¬ olderThan.IsZero)
    (hseek : r.seekTS readTS olderThan.unixNano = some (none, r')) (hp : Pending logs r' (l :: ls)) :
    PagesRight readTS logs r olderThan
      ↔ ls = (newestFirst logs).filter fun l => readTS l < olderThan.unixNano := by
  obtain ⟨r'', hread, hp'⟩ := hp.readNext
  unfold PagesRight QLogReader.seekRecord
  rw [if_neg ht, hseek]
  simp only [hread, answer, hp'.reads, Option.some.injEq, List.tail_cons]
  exact ⟨answers_injective, fun h n => by rw [h]⟩

/-- The time is later than all records of a log and before those of the newer ones: the reader is moved to the
start, and the newest record is skipped. -/
theorem beforeSingle_iff (h : DatedLogs readTS logs) (hsplit : logs = older ++ log :: newer)
    (hpassed : Passed readTS t newer) (hne : log.lines ≠ []) (holder : ∀ l ∈ log.lines, readTS l < t) :
    BeforeSingle readTS logs t
      ↔ (newestFirst logs).tail = (newestFirst logs).filter fun l => readTS l < t := by
  rw [filter_tooLate h hsplit hpassed hne holder]
  constructor
  · intro hb
    obtain ⟨newest, l, hlines, hlt, ⟨rfl, -, -⟩ | rfl⟩ := hb.cases hsplit hpassed
    · rw [hsplit, newestFirst_split]
      simp [newestFirst, hlines]
    · have := holder l (by simp [hlines])
      omega
  · intro htail
    have hlen := congrArg List.length htail
    have hpos := List.length_pos_iff.2 hne
    rw [hsplit, newestFirst_split] at hlen
    simp only [List.length_tail, List.length_append, List.length_reverse] at hlen
    obtain ⟨newest, l, rfl, hl⟩ := hpassed.single (by omega)
    exact ⟨older, log, newest, l, hsplit, hl, (hpassed newest (by simp)).2 l (by simp [hl]), hne, holder⟩

/-- `seekRecord` pages right exactly for the times it can reach: no record is older, a record has exactly the time
and no newer file is empty, or the time is right before the only record of the newest file. -/
theorem pagesRight_iff_reached (parse : Bytes → Option ℤ) (hover : Over logs r)
    (h : DatedLogs (readQLogTimestamp parse) logs) (olderThan : Time) :
    PagesRight (readQLogTimestamp parse) logs r olderThan ↔ Reached (readQLogTimestamp parse) logs olderThan := by
  generalize readQLogTimestamp parse = readTS at h
  unfold Reached
  split
  · rename_i hzero
    exact pagesRight_zero hover hzero
  · rename_i hzero
    obtain ⟨res, r', hseek, hsought⟩ := seekTS_sought (t := olderThan.unixNano) h hover
    cases hsought with
    | @found older newer log as bs l _ hsplit hpassed hlines hts hpending =>
      have hexact : Exact readTS logs olderThan.unixNano :=
        ⟨older, log, newer, hsplit, ⟨l, by simp [hlines], hts⟩, fun log' hlog' => (hpassed log' hlog').1⟩
      rw [pagesRight_pending_cons hzero hseek hpending, filter_found h hsplit hpassed hlines hts]
      simp [hexact]
    | @tooLate older newer log _ hsplit hpassed hne holder hpending =>
      obtain ⟨l₀, hl₀⟩ := List.exists_mem_of_ne_nil _ hne
      have hlt := holder l₀ hl₀
      have hnot := not_exact h hsplit hpassed (fun l hl => (holder l hl).ne) (.inr ⟨l₀, hl₀, hlt⟩)
      have hmem : l₀ ∈ newestFirst logs := mem_newestFirst.2 ⟨log, by simp [hsplit], hl₀⟩
      have hsome : ¬ ∀ l ∈ newestFirst logs, ¬ readTS l < olderThan.unixNano := fun hall => hall l₀ hmem hlt
      obtain ⟨l, ls, hls⟩ := List.exists_cons_of_ne_nil (List.ne_nil_of_mem hmem)
      rw [hls] at hpending
      rw [pagesRight_pending_cons hzero hseek hpending]
      simp only [hsome, hnot, false_or, beforeSingle_iff h hsplit hpassed hne holder]
      rw [hls, List.tail_cons]
    | noFiles hnil hpending =>
      rw [pagesRight_pending_nil hzero hseek hpending]
      simp [hnil, newestFirst]
    | tooEarly hpassed =>
      have hall : ∀ l ∈ newestFirst logs, ¬ readTS l < olderThan.unixNano := fun l hl => hpassed.not_older hl
      rw [pagesRight_failed hzero hseek]
      exact ⟨.inl, fun _ => hall⟩
    | @empty older newer log err _ hsplit hpassed hnil =>
      have hno : ∀ l ∈ log.lines, readTS l ≠ olderThan.unixNano := by simp [hnil]
      have hexact := not_exact h hsplit hpassed hno (.inl hnil)
      have hsingle := not_beforeSingle_of_nil hsplit hpassed hnil
      rw [pagesRight_failed hzero hseek]
      simp only [hexact, hsingle, or_false]
    | @notFound older newer log as bs err _ hsplit hpassed hlines has hbs holder hnewer =>
      have hexact := not_exact_of_between h hsplit hpassed hlines has holder hnewer
      have hsingle := not_beforeSingle_of_between hsplit hpassed hlines has hbs hnewer
      rw [pagesRight_failed hzero hseek]
      simp only [hexact, hsingle, or_false]

end paging

/-! ## A log of two records -/

/-- A record of a second of the first of January of 2023, as the digit of that second. -/
def record (second : UInt8) : Bytes :=
  [123, 34, 84, 34, 58, 34, 50, 48, 50, 51, 45, 48, 49, 45, 48, 49, 84, 48, 48, 58, 48, 48, 58, 48, second, 90, 34, 125]

/-- The log of the records of two seconds, 1 and 3. -/
def twoRecords : List Log := [⟨"querylog.json", [record 49, record 51], by decide, by decide, by decide⟩]

/-- A second of the same day. -/
def secondOf2023 (second : ℤ) : Time := ⟨daysSinceYearOne 2023 1 1 * 86400 + second, 0⟩

/-- `time.Parse` and `UnixNano` -/
def parseNano (s : Bytes) : Option ℤ := (parseRFC3339Nano s).map Time.unixNano

/-- A time after all records: the newest of them is skipped. -/
theorem not_pagesRight_twoRecords :
    ¬ PagesRight (readQLogTimestamp parseNano) twoRecords (QLogReader.newQLogReader (twoRecords.map Log.file))
        (secondOf2023 5) := by
  intro h
  have hrun : ((QLogReader.newQLogReader (twoRecords.map Log.file)).seekRecord (readQLogTimestamp parseNano)
      (secondOf2023 5)).map (fun p => (p.1, p.2.reads 1)) = some (none, some [.ok (record 49)]) := by decide +kernel
  have hwant : answers 1 ((newestFirst twoRecords).filter fun l =>
      readQLogTimestamp parseNano l < (secondOf2023 5).unixNano) = [.ok (record 51)] := by decide +kernel
  obtain ⟨⟨res, r'⟩, hseek, hres⟩ := Option.map_eq_some_iff.1 hrun
  obtain ⟨rfl, hread⟩ := Prod.mk.inj hres
  rw [PagesRight, hseek] at h
  have hpage := h 1
  rw [hread, hwant] at hpage
  revert hpage
  decide +kernel

/-- The time of a record: the one before it is returned. -/
theorem pagesRight_twoRecords :
    Reached (readQLogTimestamp parseNano) twoRecords (secondOf2023 3)
      ∧ PagesRight (readQLogTimestamp parseNano) twoRecords (QLogReader.newQLogReader (twoRecords.map Log.file))
          (secondOf2023 3) := by
  have hdated : DatedLogs (readQLogTimestamp parseNano) twoRecords :=
    ⟨⟨by decide +kernel, by decide +kernel⟩, by decide +kernel⟩
  have hreached : Reached (readQLogTimestamp parseNano) twoRecords (secondOf2023 3) := by
    rw [Reached, if_neg (by decide +kernel)]
    exact .inr (.inl ⟨[], _, [], rfl, ⟨record 51, by decide, by decide +kernel⟩, by simp⟩)
  exact ⟨hreached, (pagesRight_iff_reached parseNano (over_newQLogReader twoRecords) hdated _).2 hreached⟩

end AdGuardHome.Querylog
