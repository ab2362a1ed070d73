import AdGuardHome.Querylog.Paging

/-!
# The line of a timestamp (`internal/querylog/qlogfile.go`)

In a file of lines with increasing timestamps the search finds the line that has the timestamp, so that the reads after
it return this line and the older ones, and else it tells on which side of the file the timestamp is.  It has then
looked at fewer than `maxSearchDepth` lines.
-/

namespace AdGuardHome.Querylog

open AdGuardHome.Lib

/-! ## Reads of a file -/

/-- The results of `n` calls of `ReadNext`. -/
def QLogFile.reads : ℕ → QLogFile → Option (List (Except Err Bytes))
  | 0, _ => some []
  | n + 1, q =>
    match q.readNext with
    | none => none
    | some (res, q) => (reads n q).map (res :: ·)

theorem Aligned.reads {log : Log} {ls : List Bytes} {q : QLogFile} (h : Aligned log ls q) (n : ℕ) :
    q.reads n = some (answers n ls.reverse) := by
  induction n generalizing ls q with
  | zero => simp [QLogFile.reads, answers]
  | succ n ih =>
    rw [QLogFile.reads, answers_succ]
    obtain rfl | ⟨before, l, rfl⟩ := List.eq_nil_or_concat ls
    · rw [readNext_nil h]
      simp [ih h, answer]
    · rw [List.concat_eq_append] at h ⊢
      obtain ⟨q', hread, h'⟩ := readNext_concat h
      rw [hread]
      simp [ih h', answer]

/-! ## The depth of the search -/

section Depth

variable {readTS : Bytes → ℤ} {q : QLogFile} {t : ℤ} {st st' : TsSearchState}

/-- An iteration that leaves the search too deep says so. -/
theorem seekTSStep_depth {res : Except Err Bool} (hdepth : st.depth < maxSearchDepth)
    (hstep : q.seekTSStep readTS t st = some (res, st')) :
    st'.depth < maxSearchDepth ∨ ∃ d, res = .error (.depthTooHigh t q.file.name d .tsNotFound) := by
  have hprobe : ∀ r st₁, q.readAndValidateProbe st t = some (r, st₁) → st₁.depth = st.depth := by
    intro r st₁ h
    unfold QLogFile.readAndValidateProbe at h
    split at h
    · cases h
    · cases h
      rfl
    · split at h <;> cases h <;> rfl
  unfold QLogFile.seekTSStep at hstep
  split at hstep
  · cases hstep
  · rename_i hread
    cases hstep
    exact .inl ((hprobe _ _ hread).trans_lt hdepth)
  · rename_i hread
    have hsame := hprobe _ _ hread
    dsimp only at hstep
    split at hstep
    · cases hstep
      exact .inl (hsame.trans_lt hdepth)
    · split at hstep
      · cases hstep
        exact .inl (hsame.trans_lt hdepth)
      · split at hstep
        · cases hstep
          exact .inr ⟨_, rfl⟩
        · rename_i hlt
          cases hstep
          exact .inl (Nat.lt_of_not_le hlt)

theorem seekTSLoop_depth {res : Except Err Unit} {fuel : ℕ} (hdepth : st.depth < maxSearchDepth)
    (hloop : q.seekTSLoop readTS t fuel st = some (res, st')) :
    st'.depth < maxSearchDepth ∨ ∃ d, res = .error (.depthTooHigh t q.file.name d .tsNotFound) := by
  induction fuel generalizing st with
  | zero => cases hloop
  | succ fuel ih =>
    unfold QLogFile.seekTSLoop at hloop
    split at hloop
    · cases hloop
    · rename_i hstep
      cases hloop
      exact (seekTSStep_depth hdepth hstep).imp_right fun ⟨d, hd⟩ => ⟨d, by cases hd; rfl⟩
    · rename_i hstep
      cases hloop
      exact .inl ((seekTSStep_depth hdepth hstep).resolve_right fun ⟨d, hd⟩ => by cases hd)
    · rename_i hstep
      exact ih ((seekTSStep_depth hdepth hstep).resolve_right fun ⟨d, hd⟩ => by cases hd) hloop

end Depth

/-! ## Lines in order -/

section Ordered

variable {readTS : Bytes → ℤ} {ls as bs as' bs' : List Bytes} {l l' : Bytes}

theorem Dated.head?_le (h : Dated readTS ls) (hl' : l' ∈ ls.head?) (hl : l ∈ ls) : readTS l' ≤ readTS l := by
  obtain ⟨rest, rfl⟩ := List.head?_eq_some_iff.1 hl'
  rcases List.mem_cons.1 hl with rfl | hl
  · exact le_rfl
  · exact (Dated.newer (show Dated readTS ([] ++ l' :: rest) from h) l hl).le

theorem Dated.le_getLast? (h : Dated readTS ls) (hl' : l' ∈ ls.getLast?) (hl : l ∈ ls) : readTS l ≤ readTS l' := by
  obtain ⟨init, rfl⟩ := List.getLast?_eq_some_iff.1 hl'
  rcases List.mem_append.1 hl with hl | hl
  · exact (Dated.older h l hl).le
  · rw [List.mem_singleton.1 hl]

/-- A timestamp is that of one line. -/
theorem Dated.split_unique (h : Dated readTS ls) (hls : ls = as ++ l :: bs) (hls' : ls = as' ++ l' :: bs')
    (hts : readTS l = readTS l') : as = as' ∧ l = l' := by
  have hlt : ∀ {xs ys zs : List Bytes} {a b : Bytes}, ls = xs ++ a :: (ys ++ b :: zs) → readTS a < readTS b :=
    fun hsplit => Dated.newer (hsplit ▸ h) _ (by simp)
  rcases List.append_eq_append_iff.1 (hls.symm.trans hls') with ⟨c, hc, hrest⟩ | ⟨c, hc, hrest⟩
  · cases c with
    | nil =>
      cases hrest
      exact ⟨(List.append_nil as ▸ hc).symm, rfl⟩
    | cons a c =>
      rw [List.cons_append] at hrest
      cases hrest
      exact absurd hts (hlt hls).ne
  · cases c with
    | nil =>
      cases hrest
      exact ⟨List.append_nil as' ▸ hc, rfl⟩
    | cons a c =>
      rw [List.cons_append] at hrest
      cases hrest
      exact absurd hts (hlt hls').ne'

end Ordered

/-! ## Seeking a line -/

/-- What the search for a timestamp returns, and what is read after it. -/
structure SoughtLine (readTS : Bytes → ℤ) (t : ℤ) (name : String) (ls : List Bytes) (res : Except Err (ℕ × ℕ))
    (q : QLogFile) : Prop where
  found : ∀ before l after, ls = before ++ l :: after → readTS l = t →
    (∃ pos depth, res = .ok (pos, depth) ∧ depth < maxSearchDepth) ∧
      ∀ n, q.reads n = some (answers n (l :: before.reverse))
  tooEarly : (∀ l ∈ ls.head?, t < readTS l) → res = .error (.validatingLineIndex .tsTooEarly)
  tooLate : (∀ l ∈ ls.getLast?, readTS l < t) → res = .error (.validatingLineIndex .tsTooLate)
  between : (∀ l ∈ ls.head?, readTS l < t) → (∀ l ∈ ls.getLast?, t < readTS l) → (∀ l ∈ ls, readTS l ≠ t) →
    res = .error (.validatingLineIndex (.lookingUp t name .tsNotFound))

theorem Searched.soughtLine {readTS : Bytes → ℤ} {t : ℤ} {log : Log} {res : Except Err (ℕ × ℕ)} {q : QLogFile}
    (h : Searched readTS t log (fun as l => Aligned log (as ++ [l]) q) res) (hne : log.lines ≠ [])
    (hdated : Dated readTS log.lines)
    (hdepth : ∀ pos depth, res = .ok (pos, depth) → depth < maxSearchDepth) :
    SoughtLine readTS t log.name log.lines res q := by
  obtain ⟨first, hfirst⟩ : ∃ l, l ∈ log.lines.head? := ⟨_, List.head?_eq_some_head hne⟩
  obtain ⟨last, hlast⟩ : ∃ l, l ∈ log.lines.getLast? := ⟨_, List.getLast?_eq_some_getLast hne⟩
  have hfirst_mem : first ∈ log.lines := List.mem_of_mem_head? hfirst
  have hlast_mem : last ∈ log.lines := List.mem_of_mem_getLast? hlast
  cases h with
  | @found as bs l a hlines hts hat =>
    have hmem : l ∈ log.lines := by simp [hlines]
    refine ⟨fun before l' after hlines' hts' => ?_, fun hearly => ?_, fun hlate => ?_, fun _ _ hnone => ?_⟩
    · obtain ⟨rfl, rfl⟩ := hdated.split_unique hlines hlines' (hts.trans hts'.symm)
      refine ⟨⟨a.1, a.2, rfl, hdepth _ _ rfl⟩, fun n => ?_⟩
      rw [hat.reads, List.reverse_concat]
    · exact absurd (hearly _ hfirst) (not_lt.2 (hts ▸ hdated.head?_le hfirst hmem))
    · exact absurd (hlate _ hlast) (not_lt.2 (hts ▸ hdated.le_getLast? hlast hmem))
    · exact absurd hts (hnone l hmem)
  | tooEarly hnewer =>
    refine ⟨fun before l' after hlines' hts' => ?_, fun _ => rfl, fun hlate => ?_, fun hfirst' _ _ => ?_⟩
    · exact absurd hts' (hnewer l' (by simp [hlines'])).ne'
    · exact absurd (hlate _ hlast) (hnewer _ hlast_mem).not_gt
    · exact absurd (hfirst' _ hfirst) (hnewer _ hfirst_mem).not_gt
  | tooLate holder =>
    refine ⟨fun before l' after hlines' hts' => ?_, fun hearly => ?_, fun _ => rfl, fun _ hlast' _ => ?_⟩
    · exact absurd hts' (holder l' (by simp [hlines'])).ne
    · exact absurd (hearly _ hfirst) (holder _ hfirst_mem).not_gt
    · exact absurd (hlast' _ hlast) (holder _ hlast_mem).not_gt
  | @notFound as bs hlines has hbs holder hnewer =>
    have hside : ∀ l ∈ log.lines, readTS l ≠ t := by
      intro l hl
      rw [hlines] at hl
      rcases List.mem_append.1 hl with hl | hl
      · exact (holder l hl).ne
      · exact (hnewer l hl).ne'
    refine ⟨fun before l' after hlines' hts' => ?_, fun hearly => ?_, fun hlate => ?_, fun _ _ _ => rfl⟩
    · exact absurd hts' (hside l' (by simp [hlines']))
    · have hmem : first ∈ as := by
        rw [hlines, List.head?_append_of_ne_nil _ has] at hfirst
        exact List.mem_of_mem_head? hfirst
      exact absurd (hearly _ hfirst) (holder _ hmem).not_gt
    · have hmem : last ∈ bs := by
        rw [hlines, List.getLast?_append_of_ne_nil _ hbs] at hlast
        exact List.mem_of_mem_getLast? hlast
      exact absurd (hlate _ hlast) (hnewer _ hmem).not_gt

/-- `readQLogTimestamp` finds no timestamp in an empty line. -/
theorem readQLogTimestamp_nil (parse : Bytes → Option ℤ) : readQLogTimestamp parse [] = 0 := rfl

/-- The state with which `seekTS` begins. -/
def QLogFile.searchStart (q : QLogFile) : TsSearchState where
  start := 0
  stop := q.file.data.length
  probe := q.file.data.length / 2
  lastProbeLineIdx := -1
  fileSize := q.file.data.length

/-- The search ends before it is too deep, and finds the line of the timestamp or says where the timestamp is. -/
theorem seekTS_line (parse : Bytes → Option ℤ) (t : ℤ) {name : String} {ls : List Bytes} {q : QLogFile}
    (hq : q.file = ⟨name, unlines newline ls⟩) (hne : ls ≠ []) (hbreak : ∀ l ∈ ls, newline ∉ l)
    (hshort : ∀ l ∈ ls, l.length < maxEntrySize) (hdated : Dated (readQLogTimestamp parse) ls)
    (hsize : (unlines newline ls).length < 2 ^ 63) :
    (∃ res st, QLogFile.seekTSLoop (readQLogTimestamp parse) { q with buffer := none } t maxSearchDepth q.searchStart =
        some (res, st) ∧ st.depth < maxSearchDepth) ∧
      ∃ res q', q.seekTS (readQLogTimestamp parse) t = some (res, q') ∧
        SoughtLine (readQLogTimestamp parse) t name ls res q' := by
  have hnonempty : ∀ l ∈ ls, l ≠ [] := by
    rintro l hl rfl
    exact hdated.dated _ hl (readQLogTimestamp_nil parse)
  obtain ⟨log, hlog⟩ : ∃ log : Log, log = ⟨name, ls, hnonempty, hbreak, hshort⟩ := ⟨_, rfl⟩
  obtain rfl : log.name = name := by rw [hlog]
  obtain rfl : log.lines = ls := by rw [hlog]
  obtain ⟨res, q', hseek, -, hres⟩ := seekTS_searched (q := q) (t := t) hq hne hdated hsize
  obtain ⟨loop, hloop⟩ : ∃ loop, QLogFile.seekTSLoop (readQLogTimestamp parse) { q with buffer := none } t maxSearchDepth
    q.searchStart = loop := ⟨_, rfl⟩
  have hend : q.seekTS (readQLogTimestamp parse) t = some (res, q') := hseek
  unfold QLogFile.seekTS at hend
  dsimp only at hend
  unfold QLogFile.searchStart at hloop
  rw [hloop] at hend
  cases loop with
  | none => cases hend
  | some r =>
    obtain ⟨r, st⟩ := r
    have hdepth := seekTSLoop_depth (show 0 < maxSearchDepth by decide) hloop
    cases r with
    | error err =>
      cases hend
      have hshallow : ∀ d, err ≠ .depthTooHigh t q.file.name d .tsNotFound := by
        rintro d rfl
        cases hres
      have hlt := hdepth.resolve_right fun ⟨d, hd⟩ => hshallow d (Except.error.inj hd)
      exact ⟨⟨_, st, hloop, hlt⟩, _, _, hseek, hres.soughtLine hne hdated fun pos depth h => by cases h⟩
    | ok u =>
      cases hend
      have hlt := hdepth.resolve_right fun ⟨d, hd⟩ => by cases hd
      refine ⟨⟨_, st, hloop, hlt⟩, _, _, hseek, hres.soughtLine hne hdated fun pos depth h => ?_⟩
      cases h
      exact hlt

/-- The file of the records of two seconds. -/
def recordsFile : QLogFile := { file := ⟨"querylog.json", unlines newline [record 49, record 51]⟩ }

/-- The second of two records is found, and the first one is read after it. -/
theorem seekTS_recordsFile : ∃ res q', recordsFile.seekTS (readQLogTimestamp parseNano) (secondOf2023 3).unixNano =
    some (res, q') ∧ q'.reads 3 = some [.ok (record 51), .ok (record 49), .error .eof] := by
  obtain ⟨-, res, q', hseek, hsought⟩ := seekTS_line parseNano (secondOf2023 3).unixNano (q := recordsFile) rfl
    (by decide) (by decide) (by decide) ⟨by decide +kernel, by decide +kernel⟩ (by decide)
  exact ⟨res, q', hseek, (hsought.found [record 49] (record 51) [] rfl (by decide +kernel)).2 3⟩

end AdGuardHome.Querylog
