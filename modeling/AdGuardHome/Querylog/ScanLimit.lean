import AdGuardHome.Querylog.Search

/-!
# How far a search reads the files

`readEntries` is expected to return zero as the oldest timestamp only if it has read all records, and the timestamp of
the last record it read otherwise.  A record of an ignored host or client has no timestamp, which matters only if the
scan stops at it.  A record on which the decoder panics ends the search, if the scan comes to it.
-/

namespace AdGuardHome.Querylog

open AdGuardHome.Lib AdGuardHome.Net

/-- The reader has these lines yet to return. -/
def Delivers (r : QLogReader) (ls : List Bytes) : Prop := ∀ n, r.reads n = some (answers n ls)

theorem Delivers.readNext {r : QLogReader} {ls : List Bytes} (h : Delivers r ls) :
    ∃ r', r.readNext = some (answer ls, r') ∧ Delivers r' ls.tail := by
  have hone := h 1
  rw [QLogReader.reads] at hone
  split at hone
  · cases hone
  · rename_i res r' hread
    have hres : res = answer ls := by
      rw [answers_succ] at hone
      exact (List.cons.inj (Option.some.inj hone)).1
    refine ⟨r', by rw [hread, hres], fun n => ?_⟩
    have hsucc := h (n + 1)
    rw [QLogReader.reads, hread, answers_succ] at hsucc
    simp only at hsucc
    obtain ⟨rest, hrest, hcons⟩ := Option.map_eq_some_iff.1 hsucc
    rw [hrest, (List.cons.inj hcons).2]

section scan

variable (env : SearchEnv) (params : SearchParams) (totalLimit : ℤ)

/-- The lines have timestamps, which are those of their entries. -/
def ValidLines (ls : List Bytes) : Prop :=
  ∀ l ∈ ls, readQLogTimestamp parseNano l ≠ 0 ∧
    ∀ e ∈ decoded env.decode l, e.time = Time.unix (readQLogTimestamp parseNano l)

/-- The host or the client of the record is ignored. -/
def Ignored (l : Bytes) : Prop :=
  ∃ e ∈ decoded env.decode l,
    env.isIgnored e.qHost = true ∨ (e.withClient env.findClient).client.any Client.ignoreQueryLog = true

/-- The entries of the lines that match. -/
def found (ls : List Bytes) : List LogEntry := ls.filterMap fun l => (checkLine env params l).bind Prod.fst

/-- The scan reads more records after those: neither are there as many as it may look at, nor as many entries of them. -/
def GoesOn (before : List Bytes) : Prop :=
  params.scans before.length ∧ (totalLimit ≤ 0 ∨ ((found env params before).length : ℤ) < totalLimit)

/-- The scan stops at an ignored record, with more records after it. -/
def StopsAtIgnored (ls : List Bytes) : Prop :=
  ∃ before l after, ls = before ++ l :: after ∧ after ≠ [] ∧ (before.length + 1 : ℤ) = params.maxFileScanEntries ∧
    params.quickMatch env.fold env.findClient l = true ∧ Ignored env l ∧
      (totalLimit ≤ 0 ∨ ((found env params before).length : ℤ) < totalLimit)

/-- The scan comes to a record that the quick match accepts and on which the decoder panics. -/
def PanicsAt (ls : List Bytes) : Prop :=
  ∃ before l after, ls = before ++ l :: after ∧ GoesOn env params totalLimit before ∧
    params.quickMatch env.fold env.findClient l = true ∧ ¬ Decodes l

/-- The decoder panics at no record to which the scan comes. -/
def Checks (ls : List Bytes) : Prop :=
  ∀ before l after, ls = before ++ l :: after → GoesOn env params totalLimit before → checkLine env params l ≠ none

/-- The result of `readEntries` tells whether there is more to read, and where. -/
def Resumes (ls : List Bytes) (res : Option (List LogEntry × ℤ × ℤ)) : Prop :=
  ∃ entries oldestNano, ∃ total : ℕ, res = some (entries, oldestNano, (total : ℤ)) ∧
    if oldestNano = 0 then total = ls.length
    else ∃ l, 0 < total ∧ ls[total - 1]? = some l ∧ oldestNano = readQLogTimestamp parseNano l

/-- The ways in which the scan of the lines ends. -/
inductive Scanned (ls : List Bytes) : List LogEntry → ℤ → ℕ → Prop
  | eof (scans : params.scans ls.length) : Scanned ls (found env params ls) 0 ls.length
  /-- The limit of entries is reached with an entry. -/
  | limit {before after : List Bytes} {l : Bytes} {e : LogEntry} {ts : ℤ} (split : ls = before ++ l :: after)
      (scans : params.scans before.length) (check : checkLine env params l = some (some e, ts))
      (reached : ((found env params (before ++ [l])).length : ℤ) = totalLimit) :
      Scanned ls (found env params (before ++ [l])) ts (before.length + 1)
  /-- As many records are read as may be. -/
  | full {before after : List Bytes} {l : Bytes} {res : Option LogEntry} {ts : ℤ} (split : ls = before ++ l :: after)
      (scans : params.scans before.length) (check : checkLine env params l = some (res, ts))
      (stop : ¬ params.scans (before.length + 1 : ℤ))
      (below : totalLimit ≤ 0 ∨ ((found env params (before ++ [l])).length : ℤ) < totalLimit) :
      Scanned ls (found env params (before ++ [l])) ts (before.length + 1)

end scan

variable {env : SearchEnv} {params : SearchParams} {totalLimit : ℤ}

theorem found_concat (before : List Bytes) (l : Bytes) :
    found env params (before ++ [l]) =
      found env params before ++ ((checkLine env params l).bind Prod.fst).toList := by
  rw [found, List.filterMap_append, found]
  cases h : (checkLine env params l).bind Prod.fst <;> simp [h]

/-- The loop, with some records read, scans the rest of them or panics at one. -/
theorem readEntriesLoop_scanned {n : ℕ} {r : QLogReader} {before ls : List Bytes} {oldestNano : ℤ}
    (h : Delivers r ls) (hn : ls.length < n)
    (hlast : ∀ init l, before = init ++ [l] →
      params.scans init.length ∧ ∃ res, checkLine env params l = some (res, oldestNano))
    (hbelow : totalLimit ≤ 0 ∨ ((found env params before).length : ℤ) < totalLimit)
    (hchecked : ∀ l ∈ before, checkLine env params l ≠ none) :
    (∃ entries oldest, ∃ total : ℕ,
      readEntriesLoop env params totalLimit n r (found env params before) oldestNano before.length
        = some (entries, oldest, (total : ℤ)) ∧ Scanned env params totalLimit (before ++ ls) entries oldest total ∧
          ∀ l ∈ (before ++ ls).take total, checkLine env params l ≠ none) ∨
    (readEntriesLoop env params totalLimit n r (found env params before) oldestNano before.length = none ∧
      ∃ read l after, before ++ ls = read ++ l :: after ∧ GoesOn env params totalLimit read ∧
        checkLine env params l = none) := by
  induction n generalizing r before ls oldestNano with
  | zero => exact absurd hn (Nat.not_lt_zero _)
  | succ n ih =>
    rw [readEntriesLoop]
    by_cases hscans : params.scans before.length
    · rw [if_pos hscans]
      obtain ⟨r', hread, hrest⟩ := h.readNext
      cases ls with
      | nil =>
        have hnext : readNextEntry env params r = some (.error .eof, r') := by
          rw [readNextEntry, hread]
          rfl
        rw [hnext, List.append_nil]
        refine .inl ⟨_, _, before.length, by simp only [if_pos], .eof hscans, ?_⟩
        rw [List.take_length]
        exact hchecked
      | cons l ls =>
        have hnext : readNextEntry env params r = (checkLine env params l).map fun p => (.ok p, r') := by
          rw [readNextEntry, hread]
          rfl
        have hsplit : before ++ l :: ls = before ++ [l] ++ ls := by simp
        have htotal : ((before.length : ℤ) + 1) = ((before ++ [l]).length : ℕ) := by simp
        rw [hnext]
        cases hcheck : checkLine env params l with
        | none => exact .inr ⟨rfl, before, l, ls, rfl, ⟨hscans, hbelow⟩, hcheck⟩
        | some p =>
          obtain ⟨res, ts⟩ := p
          have hchecked' : ∀ l' ∈ before ++ [l], checkLine env params l' ≠ none := by
            intro l' hl'
            rw [List.mem_append, List.mem_singleton] at hl'
            rcases hl' with hl' | rfl
            · exact hchecked l' hl'
            · simp [hcheck]
          have hlast' : ∀ init l', before ++ [l] = init ++ [l'] →
              params.scans init.length ∧ ∃ res, checkLine env params l' = some (res, ts) := by
            intro init l' heq
            obtain ⟨rfl, hl⟩ := List.append_inj' heq rfl
            obtain rfl := (List.cons.inj hl).1
            exact ⟨hscans, res, hcheck⟩
          have hfound := @found_concat env params before l
          rw [hcheck, Option.bind_some] at hfound
          cases res with
          | none =>
            rw [Option.toList_none, List.append_nil] at hfound
            simp only [Option.map_some]
            rw [hsplit, ← hfound, htotal]
            exact ih hrest (by simpa using hn) hlast' (by rw [hfound]; exact hbelow) hchecked'
          | some e =>
            rw [Option.toList_some] at hfound
            simp only [Option.map_some]
            rw [← hfound]
            split
            · rename_i hlimit
              refine .inl ⟨_, _, before.length + 1, by simp, .limit rfl hscans hcheck hlimit, ?_⟩
              rw [hsplit, List.take_left' (by simp)]
              exact hchecked'
            · rename_i hlimit
              rw [hsplit, htotal]
              refine ih hrest (by simpa using hn) hlast' ?_ hchecked'
              rw [hfound, List.length_append, List.length_singleton] at hlimit ⊢
              omega
    · rw [if_neg hscans]
      obtain rfl | ⟨init, l, rfl⟩ := List.eq_nil_or_concat before
      · exact absurd (lt_or_ge (0 : ℤ) params.maxFileScanEntries) hscans
      · rw [List.concat_eq_append] at hlast hbelow hscans hchecked ⊢
        obtain ⟨hinit, res, hcheck⟩ := hlast init l rfl
        refine .inl ⟨_, _, (init ++ [l]).length, rfl, ?_, ?_⟩
        · rw [List.append_assoc, List.singleton_append, List.length_append, List.length_singleton]
          exact .full rfl hinit hcheck (by simpa using hscans) hbelow
        · rw [List.take_left' rfl]
          exact hchecked

/-- A scan that reads a record before it ends, the last of which it comes to, reads the one that is there. -/
theorem Scanned.goesOn {ls read after : List Bytes} {l : Bytes} {entries : List LogEntry} {oldest : ℤ} {total : ℕ}
    (h : Scanned env params totalLimit ls entries oldest total) (hsplit : ls = read ++ l :: after)
    (hgoes : GoesOn env params totalLimit read) : l ∈ ls.take total := by
  suffices hlt : read.length < total by
    rw [hsplit, List.take_append, List.mem_append, List.take_cons (by omega)]
    exact .inr List.mem_cons_self
  obtain ⟨hscans, hbelow⟩ := hgoes
  cases h with
  | eof scans =>
    rw [hsplit, List.length_append, List.length_cons]
    omega
  | @limit before' after' l' e ts split scans check reached =>
    by_contra hle
    -- as many entries as may be are found before
    obtain ⟨more, rfl⟩ : ∃ more, read = before' ++ [l'] ++ more := by
      have hprefix : before' ++ [l'] <+: read := by
        have hall : before' ++ [l'] <+: ls := ⟨after', by rw [split]; simp⟩
        refine List.prefix_of_prefix_length_le hall ⟨l :: after, hsplit.symm⟩ ?_
        rw [List.length_append, List.length_singleton]
        omega
      exact ⟨_, hprefix.choose_spec.symm⟩
    have hcount := @found_concat env params before' l'
    rw [found, List.filterMap_append, List.length_append] at hbelow
    have hpos : 0 < (found env params (before' ++ [l'])).length := by
      rw [hcount, check]
      simp
    change _ ∨ (((found env params (before' ++ [l'])).length + _ : ℕ) : ℤ) < totalLimit at hbelow
    omega
  | full split scans check stop below =>
    simp only [SearchParams.scans] at hscans stop
    omega

theorem checkLine_eq_none (henv : ∀ s, env.decode.isValidIPString s = true → parseAddr s ≠ none) {l : Bytes} :
    checkLine env params l = none ↔ params.quickMatch env.fold env.findClient l = true ∧ ¬ Decodes l := by
  rw [← decoded_eq_none henv, checkLine]
  cases params.quickMatch env.fold env.findClient l <;> simp

theorem checks_iff (henv : ∀ s, env.decode.isValidIPString s = true → parseAddr s ≠ none) {ls : List Bytes} :
    Checks env params totalLimit ls ↔ ¬ PanicsAt env params totalLimit ls := by
  constructor
  · rintro hchecks ⟨before, l, after, hsplit, hgoes, hpanic⟩
    exact hchecks before l after hsplit hgoes ((checkLine_eq_none henv).2 hpanic)
  · intro hpanics before l after hsplit hgoes hcheck
    exact hpanics ⟨before, l, after, hsplit, hgoes, (checkLine_eq_none henv).1 hcheck⟩

section read

variable {rounds : ℕ} {r : QLogReader} {ls : List Bytes}

theorem readEntries_cases (h : Delivers r ls) (hrounds : ls.length < rounds) :
    (∃ entries oldest, ∃ total : ℕ,
      readEntries env params totalLimit rounds r = some (entries, oldest, (total : ℤ)) ∧
        Scanned env params totalLimit ls entries oldest total ∧ Checks env params totalLimit ls) ∨
    (readEntries env params totalLimit rounds r = none ∧ ¬ Checks env params totalLimit ls) := by
  have hloop := @readEntriesLoop_scanned env params totalLimit rounds r [] ls 0 h hrounds (by simp)
    (by simp [found]; omega) (by simp)
  obtain ⟨entries, oldest, total, hres, hscanned, hchecked⟩ | ⟨hnone, before, l, after, hsplit, hgoes, hcheck⟩ := hloop
  · exact .inl ⟨entries, oldest, total, hres, hscanned, fun before l after hsplit hgoes =>
      hchecked l (hscanned.goesOn hsplit hgoes)⟩
  · exact .inr ⟨hnone, fun hchecks => hchecks before l after hsplit hgoes hcheck⟩

theorem readEntries_scanned (h : Delivers r ls) (hrounds : ls.length < rounds)
    (hchecks : Checks env params totalLimit ls) : ∃ entries oldest, ∃ total : ℕ,
      readEntries env params totalLimit rounds r = some (entries, oldest, (total : ℤ)) ∧
        Scanned env params totalLimit ls entries oldest total := by
  obtain ⟨entries, oldest, total, hres, hscanned, -⟩ | ⟨-, hpanics⟩ :=
    @readEntries_cases env params totalLimit _ _ _ h hrounds
  · exact ⟨entries, oldest, total, hres, hscanned⟩
  · exact absurd hchecks hpanics

end read

/-! ## Timestamps -/

theorem unixNano_unix {n : ℤ} (h : -2 ^ 63 ≤ n ∧ n < 2 ^ 63) : (Time.unix n).unixNano = n := by
  have hsplit : (unixEpoch + n / 1000000000 - unixEpoch) * 1000000000 + ((n % 1000000000).toNat : ℤ) = n := by
    omega
  rw [Time.unixNano, Time.unix, hsplit]
  exact Int.bmod_eq_of_le (by omega) (by omega)

theorem unixNano_range (t : Time) : -2 ^ 63 ≤ t.unixNano ∧ t.unixNano < 2 ^ 63 :=
  ⟨Int.le_bmod (by decide), Int.bmod_lt (by decide)⟩

theorem readQLogTimestamp_range (l : Bytes) :
    -2 ^ 63 ≤ readQLogTimestamp parseNano l ∧ readQLogTimestamp parseNano l < 2 ^ 63 := by
  have hparse : ∀ s, -2 ^ 63 ≤ (parseNano s).getD 0 ∧ (parseNano s).getD 0 < 2 ^ 63 := by
    intro s
    rw [parseNano]
    cases parseRFC3339Nano s with
    | none => decide
    | some t => exact unixNano_range t
  have hempty : ∀ b : Bool, ∀ s, -2 ^ 63 ≤ (if b = true then 0 else (parseNano s).getD 0) ∧
      (if b = true then 0 else (parseNano s).getD 0) < 2 ^ 63 := by
    intro b s
    split
    · decide
    · exact hparse s
  rw [readQLogTimestamp]
  split
  · exact hempty _ _
  · exact hparse _

/-- The timestamp of a record is zero if the record is ignored after the quick match, and it is not found then. -/
theorem checkLine_cases {ls : List Bytes} (h : ValidLines env ls) {l : Bytes} (hl : l ∈ ls) {res : Option LogEntry}
    {ts : ℤ} (hcheck : checkLine env params l = some (res, ts)) :
    (params.quickMatch env.fold env.findClient l = true ∧ Ignored env l ∧ res = none ∧ ts = 0) ∨
      (¬ (params.quickMatch env.fold env.findClient l = true ∧ Ignored env l) ∧
        ts = readQLogTimestamp parseNano l) := by
  rw [checkLine] at hcheck
  split at hcheck
  · rename_i hquick
    obtain ⟨-, rfl⟩ := Prod.mk.inj (Option.some.inj hcheck)
    exact .inr ⟨fun hq => by simp [hq.1] at hquick, rfl⟩
  · rename_i hquick
    have hquick : params.quickMatch env.fold env.findClient l = true := by simpa using hquick
    obtain ⟨e, he, hcheck⟩ := Option.map_eq_some_iff.1 hcheck
    have htime : (e.withClient env.findClient).time.unixNano = readQLogTimestamp parseNano l := by
      show e.time.unixNano = _
      rw [(h l hl).2 e he, unixNano_unix (readQLogTimestamp_range l)]
    split at hcheck
    · rename_i hhost
      obtain ⟨rfl, rfl⟩ := Prod.mk.inj hcheck
      exact .inl ⟨hquick, ⟨e, he, .inl hhost⟩, rfl, rfl⟩
    · rename_i hhost
      dsimp only at hcheck
      split at hcheck
      · rename_i hclient
        obtain ⟨rfl, rfl⟩ := Prod.mk.inj hcheck
        exact .inl ⟨hquick, ⟨e, he, .inr hclient⟩, rfl, rfl⟩
      · rename_i hclient
        refine .inr ⟨?_, ?_⟩
        · rintro ⟨-, e', he', hignored⟩
          obtain rfl := Option.some.inj (he.symm.trans he')
          exact hignored.elim hhost hclient
        · split at hcheck <;> obtain ⟨-, rfl⟩ := Prod.mk.inj hcheck <;> exact htime

/-! ## Resuming -/

theorem length_found_append (as bs : List Bytes) :
    (found env params (as ++ bs)).length = (found env params as).length + (found env params bs).length := by
  rw [found, List.filterMap_append, List.length_append]
  rfl

/-- An ignored record is not found. -/
theorem checkLine_of_ignored {l : Bytes} (hquick : params.quickMatch env.fold env.findClient l = true)
    (h : Ignored env l) : checkLine env params l = some (none, 0) := by
  obtain ⟨e, he, hignored⟩ := h
  rw [checkLine, hquick, Option.mem_def.1 he]
  simp only [Bool.not_true, Bool.false_eq_true, if_false, Option.map_some]
  split
  · rfl
  · rename_i hhost
    rw [if_pos (hignored.resolve_left hhost)]

/-- Of two places in a list, the first is the other one or is before it. -/
theorem split_of_length_le {α : Type} {as bs cs ds : List α} {x y : α} (h : as ++ x :: bs = cs ++ y :: ds)
    (hlen : as.length ≤ cs.length) : (as = cs ∧ x = y ∧ bs = ds) ∨ ∃ es, cs = as ++ x :: es := by
  obtain ⟨es, rfl, hbs⟩ | ⟨es, rfl, hds⟩ := List.append_eq_append_iff.1 h
  · cases es with
    | nil =>
      obtain ⟨rfl, rfl⟩ := List.cons.inj hbs
      exact .inl ⟨by simp, rfl, rfl⟩
    | cons e es =>
      obtain ⟨rfl, rfl⟩ := List.cons.inj hbs
      exact .inr ⟨es, rfl⟩
  · obtain rfl : es = [] := List.length_eq_zero_iff.1 (by rw [List.length_append] at hlen; omega)
    obtain ⟨rfl, rfl⟩ := List.cons.inj hds
    exact .inl ⟨by simp, rfl, rfl⟩

/-- A scan that stops at an ignored record has not read all records, and returns zero. -/
theorem Scanned.of_stopsAtIgnored {ls : List Bytes} {entries : List LogEntry} {oldest : ℤ} {total : ℕ}
    (h : Scanned env params totalLimit ls entries oldest total) (hstops : StopsAtIgnored env params totalLimit ls) :
    oldest = 0 ∧ total < ls.length := by
  obtain ⟨before, l, after, rfl, hafter, hmax, hquick, hignored, hbelow⟩ := hstops
  have hcheck := checkLine_of_ignored hquick hignored
  have hpos := List.length_pos_iff.2 hafter
  cases h with
  | eof scans =>
    simp only [SearchParams.scans, List.length_append, List.length_cons] at scans
    omega
  | @limit before' after' l' e ts split scans check reached =>
    have hle : before'.length ≤ before.length := by
      simp only [SearchParams.scans] at scans
      omega
    obtain ⟨-, rfl, -⟩ | ⟨es, rfl⟩ := split_of_length_le split.symm hle
    · rw [hcheck] at check
      cases check
    · have hone := @found_concat env params before' l'
      have hmore := @length_found_append env params (before' ++ [l']) es
      rw [List.append_assoc, List.singleton_append] at hmore
      rw [hone, check, Option.bind_some, List.length_append, Option.toList_some, List.length_singleton] at reached hmore
      omega
  | @full before' after' l' res ts split scans check stop below =>
    have hle : before'.length ≤ before.length ∧ before.length ≤ before'.length := by
      simp only [SearchParams.scans] at scans stop
      omega
    obtain ⟨rfl, rfl, -⟩ | ⟨es, rfl⟩ := split_of_length_le split.symm hle.1
    · obtain ⟨-, rfl⟩ := Prod.mk.inj (Option.some.inj (check.symm.trans hcheck))
      rw [List.length_append, List.length_cons]
      exact ⟨rfl, by omega⟩
    · rw [List.length_append, List.length_cons] at hle
      omega

/-- A scan that does not stop at an ignored record has read all records and returns zero, or returns the timestamp of the
last record it has read. -/
theorem Scanned.ends {ls : List Bytes} {entries : List LogEntry} {oldest : ℤ} {total : ℕ}
    (h : Scanned env params totalLimit ls entries oldest total) (hvalid : ValidLines env ls)
    (hstops : ¬ StopsAtIgnored env params totalLimit ls) :
    ∃ as bs, ls = as ++ bs ∧ total = as.length ∧ entries = found env params as ∧
      ((oldest = 0 ∧ bs = []) ∨ ∃ init l, as = init ++ [l] ∧ oldest = readQLogTimestamp parseNano l ∧ oldest ≠ 0) := by
  cases h with
  | eof scans => exact ⟨ls, [], by simp, rfl, rfl, .inl ⟨rfl, rfl⟩⟩
  | @limit before after l e ts split scans check reached =>
    have hl : l ∈ ls := by simp [split]
    refine ⟨before ++ [l], after, by simp [split], by simp, rfl, .inr ⟨before, l, rfl, ?_⟩⟩
    obtain ⟨-, -, hres, -⟩ | ⟨-, rfl⟩ := checkLine_cases hvalid hl check
    · cases hres
    · exact ⟨rfl, (hvalid l hl).1⟩
  | @full before after l res ts split scans check stop below =>
    have hl : l ∈ ls := by simp [split]
    refine ⟨before ++ [l], after, by simp [split], by simp, rfl, ?_⟩
    obtain ⟨hquick, hignored, rfl, rfl⟩ | ⟨-, rfl⟩ := checkLine_cases hvalid hl check
    · refine .inl ⟨rfl, ?_⟩
      by_contra hafter
      have hcount := @found_concat env params before l
      rw [check, Option.bind_some, Option.toList_none, List.append_nil] at hcount
      rw [hcount] at below
      refine hstops ⟨before, l, after, split, hafter, ?_, hquick, hignored, below⟩
      simp only [SearchParams.scans] at scans stop
      omega
    · exact .inr ⟨before, l, rfl, rfl, (hvalid l hl).1⟩

/-- `readEntries` can be resumed just if it neither stops at an ignored record nor panics at one. -/
theorem resumes_iff (henv : ∀ s, env.decode.isValidIPString s = true → parseAddr s ≠ none) {rounds : ℕ}
    {r : QLogReader} {ls : List Bytes} (h : Delivers r ls) (hvalid : ValidLines env ls) (hrounds : ls.length < rounds) :
    Resumes ls (readEntries env params totalLimit rounds r) ↔
      ¬ StopsAtIgnored env params totalLimit ls ∧ ¬ PanicsAt env params totalLimit ls := by
  rw [← checks_iff henv]
  obtain ⟨entries, oldest, total, hres, hscanned, hchecks⟩ | ⟨hnone, hpanics⟩ :=
    @readEntries_cases env params totalLimit _ _ _ h hrounds
  · rw [hres]
    constructor
    · rintro ⟨entries', oldest', total', hsome, hresumes⟩
      refine ⟨fun hstops => ?_, hchecks⟩
      obtain ⟨hzero, hless⟩ := hscanned.of_stopsAtIgnored hstops
      simp only [Option.some.injEq, Prod.mk.injEq, Nat.cast_inj] at hsome
      obtain ⟨rfl, rfl, rfl⟩ := hsome
      rw [if_pos hzero] at hresumes
      omega
    · rintro ⟨hstops, -⟩
      refine ⟨entries, oldest, total, rfl, ?_⟩
      obtain ⟨as, bs, rfl, rfl, -, ⟨rfl, rfl⟩ | ⟨init, l, rfl, hts, hne⟩⟩ := hscanned.ends hvalid hstops
      · rw [if_pos rfl, List.append_nil]
      · rw [if_neg hne]
        exact ⟨l, by simp, by simp, hts⟩
  · rw [hnone]
    constructor
    · rintro ⟨entries, oldest, total, hsome, -⟩
      cases hsome
    · rintro ⟨-, hchecks⟩
      exact absurd hchecks hpanics

end AdGuardHome.Querylog
