import AdGuardHome.Lib.Cursor
import AdGuardHome.Querylog.ScanLimit

/-!
# Paging with searches

A client that searches again and again, each time for the entries older than the oldest time of the search before, until
that time is zero, gets all entries that match, if no search stops at an ignored record or panics at a record, and each
finds the place of its time in the files.
-/

namespace AdGuardHome.Querylog

open AdGuardHome.Lib AdGuardHome.Net

/-! ## Times of the timeline -/

theorem before_unix (a b : ℤ) : (Time.unix a).before (Time.unix b) = decide (a < b) := by
  rw [Time.before, Time.unix, Time.unix, Bool.eq_iff_iff]
  simp only [Bool.or_eq_true, Bool.and_eq_true, decide_eq_true_eq, beq_iff_eq]
  omega

theorem not_isZero_unix {n : ℤ} (h : -2 ^ 63 ≤ n) : ¬ (Time.unix n).IsZero := by
  rintro ⟨hsec, -⟩
  simp only [Time.unix, unixEpoch] at hsec
  omega

/-- The time is zero or the one of a number of nanoseconds. -/
def Cursor (t : Time) : Prop := t.IsZero ∨ ∃ n, (-2 ^ 63 ≤ n ∧ n < 2 ^ 63) ∧ t = Time.unix n

/-- A search for the entries older than the time can return what has the timestamp. -/
def Older (t : Time) (ts : ℤ) : Prop := t.IsZero ∨ ts < t.unixNano

instance (t : Time) (ts : ℤ) : Decidable (Older t ts) := inferInstanceAs (Decidable (_ ∨ _))

theorem older_unix {n : ℤ} (h : -2 ^ 63 ≤ n ∧ n < 2 ^ 63) (ts : ℤ) : Older (Time.unix n) ts ↔ ts < n := by
  rw [Older, unixNano_unix h]
  exact or_iff_right (not_isZero_unix h.1)

/-! ## Timelines -/

/-- Timestamps, the newest first, with the entry that is returned for each, if any. -/
abbrev Timeline := List (ℤ × Option LogEntry)

/-- The timestamps decrease, and the entries have them. -/
structure Timeline.Ordered (line : Timeline) : Prop where
  decreasing : line.Pairwise fun p q => q.1 < p.1
  range : ∀ p ∈ line, -2 ^ 63 ≤ p.1 ∧ p.1 < 2 ^ 63
  time : ∀ p ∈ line, ∀ e ∈ p.2, e.time = Time.unix p.1

/-- What is older than the time. -/
def Timeline.olderThan (line : Timeline) (t : Time) : Timeline := line.filter fun p => Older t p.1

/-- The entries of a timeline. -/
def Timeline.entries (line : Timeline) : List LogEntry := line.filterMap Prod.snd

section timeline

variable {line : Timeline}

/-- What is older than a place of the timeline comes after it. -/
theorem Timeline.Ordered.olderThan_place (h : line.Ordered) {t : Time} {as bs : Timeline} {p : ℤ × Option LogEntry}
    (hsplit : line.olderThan t = as ++ p :: bs) : line.olderThan (Time.unix p.1) = bs := by
  have hp : p ∈ line.olderThan t := by simp [hsplit]
  obtain ⟨hmem, hold⟩ := List.mem_filter.1 hp
  have hold : Older t p.1 := by simpa using hold
  have hrange := h.range p hmem
  have hsub : line.olderThan (Time.unix p.1) = (line.olderThan t).olderThan (Time.unix p.1) := by
    rw [Timeline.olderThan, Timeline.olderThan, Timeline.olderThan, List.filter_filter]
    refine List.filter_congr fun q _ => ?_
    rw [eq_comm, Bool.and_eq_left_iff_imp]
    intro hq
    have hlt := (older_unix hrange q.1).1 (by simpa using hq)
    exact decide_eq_true (hold.imp_right fun hlt' => lt_trans hlt hlt')
  have hpair : (as ++ p :: bs).Pairwise fun p q => q.1 < p.1 := by
    rw [← hsplit]
    exact h.decreasing.sublist List.filter_sublist
  obtain ⟨-, hpbs, has⟩ := List.pairwise_append.1 hpair
  rw [hsub, hsplit, Timeline.olderThan, ← List.singleton_append, ← List.append_assoc]
  refine filter_append_eq_right (fun q hq => ?_) (fun q hq => ?_)
  · rw [decide_eq_false_iff_not, older_unix hrange, not_lt]
    obtain hq | hq := List.mem_append.1 hq
    · exact (has q hq p (by simp)).le
    · rw [List.mem_singleton.1 hq]
  · rw [decide_eq_true_eq, older_unix hrange]
    exact (List.pairwise_cons.1 hpbs).1 q hq

/-- The entries are in the order in which a search sorts them. -/
theorem Timeline.Ordered.entries_sorted (h : line.Ordered) :
    line.entries.Pairwise fun a b => (!a.time.before b.time) = true := by
  rw [Timeline.entries, List.pairwise_filterMap]
  refine h.decreasing.imp_of_mem fun {p q} hp hq hlt e he e' he' => ?_
  rw [h.time p hp e he, h.time q hq e' he', before_unix, decide_eq_false (by omega)]
  rfl

theorem Timeline.Ordered.olderThan (h : line.Ordered) (t : Time) : (line.olderThan t).Ordered where
  decreasing := h.decreasing.sublist List.filter_sublist
  range p hp := h.range p (List.mem_of_mem_filter hp)
  time p hp := h.time p (List.mem_of_mem_filter hp)

/-- The end of a page: nothing is left behind it, or its time is the one of its last place. -/
def PageEnd (oldest : Time) (as bs : Timeline) : Prop :=
  (oldest = ⟨0, 0⟩ ∧ bs = []) ∨ ∃ init p, as = init ++ [p] ∧ oldest = Time.unix p.1

/-- A page of the entries up to some place of the timeline, so many of them at most: with the time of its last entry, if
it has one, it has what is between its time and the next. -/
theorem Timeline.Ordered.page (h : line.Ordered) {t oldest : Time} {as bs : Timeline}
    (hsplit : line.olderThan t = as ++ bs) (hend : PageEnd oldest as bs) {limit : ℕ} (hpos : 0 < limit)
    {es : List LogEntry} (hes : es = as.entries.take limit) {u : Time}
    (hu : u = (es.getLast?.map LogEntry.time).getD oldest) :
    (u.IsZero ∧ (line.olderThan t).entries = es) ∨
      (¬ u.IsZero ∧ (line.olderThan t).entries = es ++ (line.olderThan u).entries ∧
        (line.olderThan u).length < (line.olderThan t).length ∧ Cursor u) := by
  have hentries : (line.olderThan t).entries = as.entries ++ bs.entries := by
    rw [hsplit, Timeline.entries, List.filterMap_append]
    rfl
  obtain hnil | ⟨xs, e, hxs⟩ := List.eq_nil_or_concat es
  · -- the page is empty: its end is that of the scan
    have has : as.entries = [] := by
      rw [hnil] at hes
      obtain hlimit | has := List.take_eq_nil_iff.1 hes.symm
      · omega
      · exact has
    rw [hnil, List.getLast?_nil, Option.map_none, Option.getD_none] at hu
    rw [hentries, has, hnil, hu, List.nil_append, List.nil_append]
    obtain ⟨rfl, rfl⟩ | ⟨init, p, rfl, rfl⟩ := hend
    · exact .inl ⟨⟨rfl, rfl⟩, rfl⟩
    · rw [List.append_assoc, List.singleton_append] at hsplit
      have hp : p ∈ line.olderThan t := by simp [hsplit]
      have hrange := h.range p (List.mem_filter.1 hp).1
      refine .inr ⟨not_isZero_unix hrange.1, by rw [h.olderThan_place hsplit], ?_, .inr ⟨p.1, hrange, rfl⟩⟩
      rw [h.olderThan_place hsplit, hsplit, List.length_append, List.length_cons]
      omega
  · -- the page ends with an entry
    rw [List.concat_eq_append] at hxs
    obtain ⟨rest, hrest⟩ : ∃ rest, as.entries = es ++ rest := ⟨_, by rw [hes, List.take_append_drop]⟩
    have hprefix : (line.olderThan t).entries = xs ++ e :: (rest ++ bs.entries) := by
      rw [hentries, hrest, hxs]
      simp
    obtain ⟨l₁, l₂, hl, hl₁, hl₂⟩ := List.filterMap_eq_append_iff.1 hprefix
    obtain ⟨l₃, p, l₄, rfl, hl₃, hp, hl₄⟩ := List.filterMap_eq_cons_iff.1 hl₂
    rw [← List.append_assoc] at hl
    have hmem : p ∈ line := (List.mem_filter.1 (show p ∈ line.olderThan t by simp [hl])).1
    have hrange := h.range p hmem
    obtain rfl : u = Time.unix p.1 := by
      rw [hu, hxs, List.getLast?_concat, Option.map_some, Option.getD_some, h.time p hmem e hp]
    have hplace := h.olderThan_place hl
    refine .inr ⟨not_isZero_unix hrange.1, ?_, ?_, .inr ⟨p.1, hrange, rfl⟩⟩
    · have hl₄ : Timeline.entries l₄ = rest ++ bs.entries := hl₄
      rw [hplace, hprefix, hxs, hl₄, List.append_assoc, List.singleton_append]
    · rw [hplace, hl, List.length_append, List.length_cons]
      omega

end timeline

/-! ## The timeline of a search -/

section search

variable (env : SearchEnv) (params : SearchParams) (memSize : ℕ) (memory : List LogEntry) (logs : List Log)

/-- All criteria accept the entry. -/
def meetsCriteria (e : LogEntry) : Bool := params.searchCriteria.all fun c => c.matches env.fold e

/-- The entry of a record that matches and is not ignored. -/
def wanted (l : Bytes) : Option LogEntry :=
  (decoded env.decode l).bind fun e =>
    let e := e.withClient env.findClient
    if env.isIgnored e.qHost || e.client.any Client.ignoreQueryLog then none
    else if meetsCriteria env params e then some e
    else none

/-- The entry in the memory, if it matches. -/
def wantedInMemory (m : LogEntry) : Option LogEntry :=
  let e := m.withClient env.findClient
  if meetsCriteria env params e then some e else none

/-- The places of the memory. -/
def memoryLine : Timeline :=
  if memSize = 0 then [] else memory.map fun m => (m.time.unixNano, wantedInMemory env params m)

/-- The places of the files. -/
def filesLine : Timeline := (newestFirst logs).map fun l => (readQLogTimestamp parseNano l, wanted env params l)

/-- What a search can find, from the newest to the oldest. -/
def timeline : Timeline := memoryLine env params memSize memory ++ filesLine env params logs

/-- The entries in the memory are newer than the records in the files, and both are in the order of their times. -/
structure InOrder : Prop where
  dated : DatedLogs (readQLogTimestamp parseNano) logs
  valid : ValidLines env (newestFirst logs)
  time : ∀ m ∈ memory, m.time = Time.unix m.time.unixNano
  decreasing : memory.Pairwise fun a b => b.time.unixNano < a.time.unixNano
  newer : ∀ m ∈ memory, ∀ l ∈ newestFirst logs, readQLogTimestamp parseNano l < m.time.unixNano

/-- The quick match accepts the records that match. -/
def QuickMatched : Prop :=
  ∀ l ∈ newestFirst logs, (wanted env params l).isSome → params.quickMatch env.fold env.findClient l = true

/-- The parameters of the search for older entries. -/
def SearchParams.older (params : SearchParams) (t : Time) : SearchParams := { params with olderThan := t }

/-- The records older than the time, newest first. -/
def olderRecords (t : Time) : List Bytes := (newestFirst logs).filter fun l => Older t (readQLogTimestamp parseNano l)

/-- The search of a page: its place in the files is found, and its scan neither stops at an ignored record nor panics at
one. -/
def PageOK (t : Time) : Prop :=
  (t.IsZero ∨ Reached (readQLogTimestamp parseNano) logs t) ∧
    ¬ StopsAtIgnored env (params.older t) params.limit (olderRecords logs t) ∧
      ¬ PanicsAt env (params.older t) params.limit (olderRecords logs t)

/-- A page of the search, with the time for the next one. -/
def searchPage (t : Time) : Option (List LogEntry × Option Time) :=
  (search env (params.older t) memSize memory logs).map fun p => (p.1, if p.2.IsZero then none else some p.2)

variable {env params memSize memory logs}

theorem wanted_time {l : Bytes} {e : LogEntry} (h : wanted env params l = some e) :
    ∃ r ∈ decoded env.decode l, e.time = r.time := by
  obtain ⟨r, hr, h⟩ := Option.bind_eq_some_iff.1 h
  simp only [Option.ite_none_left_eq_some, Option.ite_none_right_eq_some, Option.some.injEq] at h
  refine ⟨r, hr, ?_⟩
  rw [← h.2.2]
  rfl

theorem wantedInMemory_time {m e : LogEntry} (h : wantedInMemory env params m = some e) : e.time = m.time := by
  simp only [wantedInMemory, Option.ite_none_right_eq_some, Option.some.injEq] at h
  rw [← h.2]
  rfl

theorem InOrder.memoryLine (h : InOrder env memory logs) : (memoryLine env params memSize memory).Ordered := by
  unfold Querylog.memoryLine
  split
  · exact ⟨.nil, by simp, by simp⟩
  · refine ⟨List.pairwise_map.2 h.decreasing, ?_, ?_⟩
    · intro p hp
      obtain ⟨m, -, rfl⟩ := List.mem_map.1 hp
      exact unixNano_range m.time
    · intro p hp e he
      obtain ⟨m, hm, rfl⟩ := List.mem_map.1 hp
      rw [wantedInMemory_time he, h.time m hm, unixNano_unix (unixNano_range m.time)]

theorem InOrder.filesLine (h : InOrder env memory logs) : (filesLine env params logs).Ordered := by
  refine ⟨?_, ?_, ?_⟩
  · rw [Querylog.filesLine, List.pairwise_map, newestFirst, List.pairwise_reverse]
    exact h.dated.dated.increasing
  · intro p hp
    obtain ⟨l, -, rfl⟩ := List.mem_map.1 hp
    exact readQLogTimestamp_range l
  · intro p hp e he
    obtain ⟨l, hl, rfl⟩ := List.mem_map.1 hp
    obtain ⟨r, hr, htime⟩ := wanted_time he
    rw [htime, (h.valid l hl).2 r hr]

theorem InOrder.timeline (h : InOrder env memory logs) : (timeline env params memSize memory logs).Ordered := by
  have hm : (Querylog.memoryLine env params memSize memory).Ordered := h.memoryLine
  have hf : (Querylog.filesLine env params logs).Ordered := h.filesLine
  refine ⟨List.pairwise_append.2 ⟨hm.decreasing, hf.decreasing, ?_⟩, ?_, ?_⟩
  · intro p hp q hq
    obtain ⟨l, hl, rfl⟩ := List.mem_map.1 hq
    rw [Querylog.memoryLine] at hp
    split at hp
    · cases hp
    · obtain ⟨m, hmem, rfl⟩ := List.mem_map.1 hp
      exact h.newer m hmem l hl
  · exact fun p hp => (List.mem_append.1 hp).elim (hm.range p) (hf.range p)
  · exact fun p hp => (List.mem_append.1 hp).elim (hm.time p) (hf.time p)

/-! ## The page of a search -/

variable {t : Time}

theorem older_of_isZero (ht : t.IsZero) (ts : ℤ) : Older t ts := .inl ht

theorem older_of_not_isZero (ht : ¬ t.IsZero) (ts : ℤ) : Older t ts ↔ ts < t.unixNano := or_iff_right ht

/-- If the place of the time is found, the reader has the older records to return, or the search fails and there are
none. -/
theorem seekRecord_older (hreach : t.IsZero ∨
    DatedLogs (readQLogTimestamp parseNano) logs ∧ Reached (readQLogTimestamp parseNano) logs t) :
    ∃ res r, (QLogReader.newQLogReader (logs.map Log.file)).seekRecord (readQLogTimestamp parseNano) t = some (res, r) ∧
      (res = none → Delivers r (olderRecords logs t)) ∧ (res ≠ none → olderRecords logs t = []) := by
  have hover := over_newQLogReader logs
  by_cases ht : t.IsZero
  · have hall : olderRecords logs t = newestFirst logs :=
      List.filter_eq_self.2 fun l _ => decide_eq_true (older_of_isZero ht _)
    refine ⟨none, _, by rw [QLogReader.seekRecord, if_pos ht], fun _ => ?_, fun hne => absurd rfl hne⟩
    rw [hall]
    exact reads_seekStart hover
  · have hfilter : olderRecords logs t =
        (newestFirst logs).filter fun l => readQLogTimestamp parseNano l < t.unixNano :=
      List.filter_congr fun l _ => decide_eq_decide.2 (older_of_not_isZero ht _)
    obtain ⟨hdated, hreached⟩ := hreach.resolve_left ht
    have hright := (pagesRight_iff_reached parseNano hover hdated t).2 hreached
    rw [PagesRight] at hright
    split at hright
    · exact hright.elim
    · rename_i r hseek
      refine ⟨none, r, hseek, fun _ => ?_, fun hne => absurd rfl hne⟩
      rw [hfilter]
      exact hright
    · rename_i err r hseek
      refine ⟨some err, r, hseek, by simp, fun _ => ?_⟩
      rw [hfilter]
      exact List.filter_eq_nil_iff.2 fun l hl => by simpa using hright l hl

theorem searchFiles_scanned (hreach : t.IsZero ∨
      DatedLogs (readQLogTimestamp parseNano) logs ∧ Reached (readQLogTimestamp parseNano) logs t)
    (hchecks : Checks env (params.older t) (params.offset + params.limit) (olderRecords logs t)) :
    ∃ entries oldest, ∃ total : ℕ,
      searchFiles env (params.older t) logs = some (entries, if oldest ≠ 0 then Time.unix oldest else ⟨0, 0⟩) ∧
        Scanned env (params.older t) (params.offset + params.limit) (olderRecords logs t) entries oldest total := by
  obtain ⟨res, r, hseek, hsome, hfail⟩ := seekRecord_older hreach
  have hrounds : (olderRecords logs t).length < (newestFirst logs).length + 1 :=
    Nat.lt_succ_of_le (List.length_filter_le _ _)
  have hseek : (QLogReader.newQLogReader (logs.map Log.file)).seekRecord (readQLogTimestamp parseNano)
      (params.older t).olderThan = some (res, r) := hseek
  rw [searchFiles, hseek]
  cases res with
  | none =>
    obtain ⟨entries, oldest, total, hres, hscanned⟩ : ∃ entries oldest, ∃ total : ℕ,
        readEntries env (params.older t) ((params.older t).offset + (params.older t).limit)
          ((newestFirst logs).length + 1) r = some (entries, oldest, (total : ℤ)) ∧
            Scanned env (params.older t) (params.offset + params.limit) (olderRecords logs t) entries oldest total :=
      readEntries_scanned (hsome rfl) hrounds hchecks
    exact ⟨entries, oldest, total, by simp only [hres], hscanned⟩
  | some err =>
    have hnil := hfail (by simp)
    rw [hnil]
    exact ⟨[], 0, 0, rfl, .eof (lt_or_ge 0 _)⟩

/-- The search for older entries accepts what is older than the time and meets the criteria. -/
theorem matches_older (ht : Cursor t) {n : ℤ} {e : LogEntry} (he : e.time = Time.unix n) :
    (params.older t).matches env.fold e = (decide (Older t n) && meetsCriteria env params e) := by
  have hmatches : (params.older t).matches env.fold e =
      if !decide t.IsZero && !e.time.before t then false else meetsCriteria env params e := rfl
  rw [hmatches]
  obtain hzero | ⟨m, hm, rfl⟩ := ht
  · simp [hzero, Older]
  · rw [he, before_unix, decide_eq_false (not_isZero_unix hm.1), decide_eq_decide.2 (older_unix hm n)]
    cases decide (n < m) <;> rfl

/-- The search for older entries returns the entry of an older record just if it is wanted. -/
theorem checkLine_older (ht : Cursor t) {l : Bytes}
    (htime : ∀ e ∈ decoded env.decode l, e.time = Time.unix (readQLogTimestamp parseNano l))
    (hold : Older t (readQLogTimestamp parseNano l))
    (hquick : (wanted env params l).isSome → params.quickMatch env.fold env.findClient l = true) :
    (checkLine env (params.older t) l).bind Prod.fst = wanted env params l := by
  have hq : (params.older t).quickMatch env.fold env.findClient l = params.quickMatch env.fold env.findClient l := rfl
  rw [checkLine, hq]
  split
  · rename_i hnot
    rw [Bool.not_eq_true'] at hnot
    rw [Option.bind_some, eq_comm, ← Option.not_isSome_iff_eq_none]
    intro hsome
    rw [hquick hsome] at hnot
    cases hnot
  · unfold wanted
    cases hdecoded : decoded env.decode l with
    | none => rfl
    | some e =>
      have htime' : (e.withClient env.findClient).time = Time.unix (readQLogTimestamp parseNano l) := htime e hdecoded
      have hhost : (e.withClient env.findClient).qHost = e.qHost := rfl
      simp only [Option.map_some, Option.bind_some, hhost, matches_older ht htime', decide_eq_true hold, Bool.true_and,
        Bool.or_eq_true]
      by_cases hi : env.isIgnored e.qHost = true
      · rw [if_pos hi, if_pos (.inl hi)]
      · rw [if_neg hi]
        by_cases hc : (e.withClient env.findClient).client.any Client.ignoreQueryLog = true
        · rw [if_pos hc, if_pos (.inr hc)]
        · rw [if_neg hc, if_neg (not_or.2 ⟨hi, hc⟩)]
          cases meetsCriteria env params (e.withClient env.findClient) <;> rfl

/-- The entries of the memory that a search returns. -/
theorem searchMemory_older (ht : Cursor t) (htime : ∀ m ∈ memory, m.time = Time.unix m.time.unixNano) :
    searchMemory env (params.older t) memSize memory =
      ((memoryLine env params memSize memory).olderThan t).entries := by
  unfold searchMemory Querylog.memoryLine
  split
  · rfl
  · rw [Timeline.entries, Timeline.olderThan]
    induction memory with
    | nil => rfl
    | cons m ms ih =>
      have hm : (params.older t).matches env.fold (m.withClient env.findClient) =
          (decide (Older t m.time.unixNano) && meetsCriteria env params (m.withClient env.findClient)) :=
        matches_older ht (htime m (by simp))
      have hms := ih fun m' hm' => htime m' (by simp [hm'])
      rw [List.map_cons, List.map_cons, List.filter_cons, List.filter_cons, hm, hms]
      by_cases hold : Older t m.time.unixNano
      · simp only [hold, decide_true, Bool.true_and, if_true, List.filterMap_cons, wantedInMemory]
        split <;> rfl
      · simp [hold]

variable (env params) in
/-- The place of a record in the timeline. -/
def place (l : Bytes) : ℤ × Option LogEntry := (readQLogTimestamp parseNano l, wanted env params l)

theorem olderThan_filesLine : (filesLine env params logs).olderThan t = (olderRecords logs t).map (place env params) := by
  rw [Timeline.olderThan, Querylog.filesLine, List.filter_map]
  rfl

theorem olderThan_timeline : (timeline env params memSize memory logs).olderThan t =
    (memoryLine env params memSize memory).olderThan t ++ (olderRecords logs t).map (place env params) := by
  rw [Querylog.timeline, ← olderThan_filesLine, Timeline.olderThan, List.filter_append]
  rfl

theorem mem_olderRecords {l : Bytes} (hl : l ∈ olderRecords logs t) :
    l ∈ newestFirst logs ∧ Older t (readQLogTimestamp parseNano l) := by
  obtain ⟨hmem, hold⟩ := List.mem_filter.1 hl
  exact ⟨hmem, by simpa using hold⟩

/-- What the search for older entries finds in older records are the entries of their places. -/
theorem found_older (h : InOrder env memory logs) (hquick : QuickMatched env params logs) (ht : Cursor t) {ls : List Bytes}
    (hls : ∀ l ∈ ls, l ∈ olderRecords logs t) :
    found env (params.older t) ls = Timeline.entries (ls.map (place env params)) := by
  rw [found, Timeline.entries, List.filterMap_map]
  refine List.filterMap_congr fun l hl => ?_
  obtain ⟨hmem, hold⟩ := mem_olderRecords (hls l hl)
  exact checkLine_older ht (h.valid l hmem).2 hold (hquick l hmem)

theorem finalizeSearchResults_sorted {es : List LogEntry} {oldest : Time} (hoffset : params.offset = 0)
    (hsorted : es.Pairwise fun a b => (!a.time.before b.time) = true) :
    finalizeSearchResults es params oldest = (es, (es.getLast?.map LogEntry.time).getD oldest) := by
  simp only [finalizeSearchResults, List.mergeSort_of_pairwise hsorted, hoffset, lt_irrefl, false_and, if_false]

/-- A search returns the first entries of a prefix of what is older than its time, and where to go on. -/
theorem search_older (henv : ∀ s, env.decode.isValidIPString s = true → parseAddr s ≠ none)
    (h : InOrder env memory logs) (hquick : QuickMatched env params logs) (hoffset : params.offset = 0)
    (hlimit : 0 < params.limit) (ht : Cursor t) (hok : PageOK env params logs t) :
    ∃ as bs oldest es u, (timeline env params memSize memory logs).olderThan t = as ++ bs ∧ PageEnd oldest as bs ∧
      search env (params.older t) memSize memory logs = some (es, u) ∧ es = as.entries.take params.limit.toNat ∧
        u = (es.getLast?.map LogEntry.time).getD oldest := by
  obtain ⟨hreach, hstops, hpanics⟩ := hok
  obtain ⟨fileEntries, n, total, hfiles, hscanned⟩ :=
    @searchFiles_scanned env params _ _ (hreach.imp_right fun hreached => ⟨h.dated, hreached⟩)
      (by rw [hoffset, zero_add]; exact (checks_iff henv).2 hpanics)
  rw [hoffset, zero_add] at hscanned
  have hvalid : ValidLines env (olderRecords logs t) := fun l hl => h.valid l (mem_olderRecords hl).1
  obtain ⟨as, bs, hsplit, -, rfl, hn⟩ := hscanned.ends hvalid hstops
  have hline : (timeline env params memSize memory logs).olderThan t =
      ((memoryLine env params memSize memory).olderThan t ++ as.map (place env params)) ++ bs.map (place env params) := by
    rw [olderThan_timeline, hsplit, List.map_append, List.append_assoc]
  have hentries : searchMemory env (params.older t) memSize memory ++ found env (params.older t) as =
      Timeline.entries ((memoryLine env params memSize memory).olderThan t ++ as.map (place env params)) := by
    rw [searchMemory_older ht h.time, found_older h hquick ht fun l hl => by simp [hsplit, hl], Timeline.entries,
      Timeline.entries, Timeline.entries, List.filterMap_append]
  have hordered : (timeline env params memSize memory logs).Ordered := h.timeline
  have hsorted : (Timeline.entries ((memoryLine env params memSize memory).olderThan t ++
      as.map (place env params))).Pairwise fun a b => (!a.time.before b.time) = true := by
    have hall := (hordered.olderThan t).entries_sorted
    rw [hline, Timeline.entries, List.filterMap_append] at hall
    exact (List.pairwise_append.1 hall).1
  refine ⟨_, _, if n ≠ 0 then Time.unix n else ⟨0, 0⟩, _, _, hline, ?_, ?_, rfl, rfl⟩
  · obtain ⟨rfl, rfl⟩ | ⟨init, l, rfl, rfl, hne⟩ := hn
    · exact .inl ⟨rfl, rfl⟩
    · refine .inr ⟨(memoryLine env params memSize memory).olderThan t ++ init.map (place env params),
        place env params l, ?_,
        if_pos hne⟩
      rw [List.map_append, List.append_assoc]
      rfl
  · have hparams : (params.older t).offset + (params.older t).limit = params.limit := by
      show params.offset + params.limit = params.limit
      rw [hoffset, zero_add]
    have hlimit' : (params.older t).limit ≠ 0 := hlimit.ne'
    rw [search, if_neg hlimit', hfiles]
    simp only [hparams, hentries]
    have hoffset' : (params.older t).offset = 0 := hoffset
    split
    · rw [if_neg (by omega), finalizeSearchResults_sorted hoffset' (hsorted.sublist (List.take_sublist _ _))]
    · rw [finalizeSearchResults_sorted hoffset' hsorted, List.take_of_length_le (by omega)]

/-- A page whose search meets its conditions has what is between its time and the next one. -/
theorem accounts_searchPage (henv : ∀ s, env.decode.isValidIPString s = true → parseAddr s ≠ none)
    (h : InOrder env memory logs) (hquick : QuickMatched env params logs)
    (hoffset : params.offset = 0) (hlimit : 0 < params.limit) (hok : PageOK env params logs t) (ht : Cursor t) :
    Accounts (searchPage env params memSize memory logs)
      (fun u => ((timeline env params memSize memory logs).olderThan u).entries)
      (fun u => ((timeline env params memSize memory logs).olderThan u).length) Cursor t := by
  obtain ⟨as, bs, oldest, es, u, hsplit, hend, hsearch, hes, hu⟩ :=
    @search_older env params memSize memory logs t henv h hquick hoffset hlimit ht hok
  have hpage := h.timeline.page hsplit hend (Int.lt_toNat.2 hlimit) hes hu
  refine ⟨es, if u.IsZero then none else some u, by rw [searchPage, hsearch, Option.map_some], ?_⟩
  obtain ⟨hzero, hall⟩ | ⟨hne, hall, hless, hcursor⟩ := hpage
  · rw [if_pos hzero]
    exact hall
  · rw [if_neg hne]
    exact ⟨hall, hless, hcursor⟩

end search

/-- What `readEntries` returns tells where to go on just if the scan neither stops at an ignored record nor panics at one;
and a client that goes on from the returned time until it is zero sees what is older than its first time, all of it and
once. -/
theorem resumable (env : SearchEnv) (henv : ∀ s, env.decode.isValidIPString s = true → parseAddr s ≠ none)
    (params : SearchParams) :
    (∀ totalLimit rounds r ls, Delivers r ls → ValidLines env ls → ls.length < rounds →
      (Resumes ls (readEntries env params totalLimit rounds r) ↔
        ¬ StopsAtIgnored env params totalLimit ls ∧ ¬ PanicsAt env params totalLimit ls)) ∧
    ∀ memSize memory logs t n, InOrder env memory logs → QuickMatched env params logs →
      params.offset = 0 → 0 < params.limit → Cursor t → (timeline env params memSize memory logs).length < n →
        (∀ u ∈ cursors (searchPage env params memSize memory logs) n t, PageOK env params logs u) →
          pages (searchPage env params memSize memory logs) n t =
            some ((timeline env params memSize memory logs).olderThan t).entries := by
  constructor
  · intro totalLimit rounds r ls h hvalid hrounds
    exact resumes_iff henv h hvalid hrounds
  · intro memSize memory logs t n h hquick hoffset hlimit ht hn hok
    have hsize : ((timeline env params memSize memory logs).olderThan t).length < n :=
      lt_of_le_of_lt (List.length_filter_le _ _) hn
    have hpages := @pages_eq _ _ (searchPage env params memSize memory logs)
      (fun u => ((timeline env params memSize memory logs).olderThan u).entries)
      (fun u => ((timeline env params memSize memory logs).olderThan u).length) Cursor n t hsize ht
    apply hpages
    intro u hu hcursor
    exact accounts_searchPage henv h hquick hoffset hlimit (hok u hu) hcursor

/-! ## A log with an ignored host -/

/-- A record of a host that is ignored. -/
def adsRecord : Bytes := utf8 "\x7b\x22T\x22:\x222023-01-01T00:00:03Z\x22,\x22QH\x22:\x22ads\x22\x7d".toList

/-- The log of a record and of a newer one of an ignored host. -/
def adsLast : List Log :=
  [⟨"querylog.json", [record 49, adsRecord], by decide +kernel, by decide +kernel, by decide +kernel⟩]

/-- A query log that ignores a host and knows no clients. -/
def noAds : SearchEnv where
  fold := ⟨id, fun s t => s == t⟩
  findClient _ := .ok none
  isIgnored host := host == "ads"
  decode := Decoding.netutilEnv

/-- The scan of a single record stops at the ignored one: the search is at its end, and the older record is not seen. -/
theorem not_resumes_adsLast :
    ¬ Resumes (newestFirst adsLast) (readEntries noAds { maxFileScanEntries := 1 } 500 3
        (QLogReader.newQLogReader (adsLast.map Log.file)).seekStart) ∧
      (search noAds { maxFileScanEntries := 1 } 0 [] adsLast).map (fun p => (p.1.length, decide p.2.IsZero))
        = some (0, true) ∧
      record 49 ∈ newestFirst adsLast ∧ (wanted noAds { maxFileScanEntries := 1 } (record 49)).isSome := by
  refine ⟨?_, by decide +kernel, by decide +kernel, by decide +kernel⟩
  rintro ⟨entries, oldestNano, total, hres, hresumes⟩
  have hrun : (readEntries noAds { maxFileScanEntries := 1 } 500 3
      (QLogReader.newQLogReader (adsLast.map Log.file)).seekStart).map (fun p => p.2) = some (0, 1) := by
    decide +kernel
  rw [hres] at hrun
  simp only [Option.map_some, Option.some.injEq, Prod.mk.injEq] at hrun
  obtain ⟨rfl, htotal⟩ := hrun
  have hlen : (newestFirst adsLast).length = 2 := rfl
  rw [if_pos rfl, hlen] at hresumes
  omega

/-- Pages of one entry: the records of the log are seen, the newest first. -/
theorem resumable_twoRecords :
    Resumes (newestFirst twoRecords) (readEntries noAds { limit := 1 } 1 3
        (QLogReader.newQLogReader (twoRecords.map Log.file)).seekStart) ∧
      pages (searchPage noAds { limit := 1 } 0 [] twoRecords) 3 ⟨0, 0⟩ =
        some ((timeline noAds { limit := 1 } 0 [] twoRecords).olderThan ⟨0, 0⟩).entries := by
  have hdated : DatedLogs (readQLogTimestamp parseNano) twoRecords :=
    ⟨⟨by decide +kernel, by decide +kernel⟩, by decide +kernel⟩
  have hvalid : ValidLines noAds (newestFirst twoRecords) := by
    unfold ValidLines
    decide +kernel
  have hignored : ∀ l ∈ newestFirst twoRecords, ¬ Ignored noAds l := by
    unfold Ignored
    decide +kernel
  have hdecodes : ∀ l ∈ newestFirst twoRecords, Decodes l := by decide +kernel
  have hstops : ∀ params totalLimit ls, (∀ l ∈ ls, l ∈ newestFirst twoRecords) →
      ¬ StopsAtIgnored noAds params totalLimit ls := by
    rintro params totalLimit ls hls ⟨before, l, after, rfl, -, -, -, hl, -⟩
    exact hignored l (hls l (by simp)) hl
  have hpanics : ∀ params totalLimit ls, (∀ l ∈ ls, l ∈ newestFirst twoRecords) →
      ¬ PanicsAt noAds params totalLimit ls := by
    rintro params totalLimit ls hls ⟨before, l, after, rfl, -, -, hl⟩
    exact hl (hdecodes l (hls l (by simp)))
  have horder : InOrder noAds [] twoRecords := ⟨hdated, hvalid, by simp, .nil, by simp⟩
  have hquick : QuickMatched noAds { limit := 1 } twoRecords := fun l _ _ => rfl
  have hcursors : cursors (searchPage noAds { limit := 1 } 0 [] twoRecords) 3 ⟨0, 0⟩
      = [⟨0, 0⟩, secondOf2023 3, secondOf2023 1] := by decide +kernel
  have hreached : ∀ second ∈ [49, 51], ∀ t : Time, ¬ t.IsZero →
      t.unixNano = readQLogTimestamp parseNano (record second) → Reached (readQLogTimestamp parseNano) twoRecords t := by
    have hlines : ∀ second ∈ [49, 51], record second ∈ [record 49, record 51] := by simp
    intro second hsecond t hne ht
    rw [Reached, if_neg hne]
    exact .inr (.inl ⟨[], _, [], rfl, ⟨record second, hlines second hsecond, ht.symm⟩, by simp⟩)
  refine ⟨((resumable noAds Decoding.netutilEnv_valid _).1 1 3 _ _ (reads_seekStart (over_newQLogReader _)) hvalid
      (by decide)).2 ⟨hstops _ _ _ fun l hl => hl, hpanics _ _ _ fun l hl => hl⟩, ?_⟩
  refine (resumable noAds Decoding.netutilEnv_valid _).2 0 [] twoRecords ⟨0, 0⟩ 3 horder hquick rfl one_pos (.inl ⟨rfl, rfl⟩) (by decide) ?_
  rw [hcursors]
  intro u hu
  refine ⟨?_, hstops _ _ _ fun l hl => (mem_olderRecords hl).1, hpanics _ _ _ fun l hl => (mem_olderRecords hl).1⟩
  simp only [List.mem_cons, List.not_mem_nil, or_false] at hu
  obtain rfl | rfl | rfl := hu
  · exact .inl ⟨rfl, rfl⟩
  · exact .inr (hreached 51 (by decide) _ (by decide +kernel) (by decide +kernel))
  · exact .inr (hreached 49 (by decide) _ (by decide +kernel) (by decide +kernel))

end AdGuardHome.Querylog
