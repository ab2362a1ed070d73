import AdGuardHome.Querylog.QueryLog

/-!
# Flushes that fail (`internal/querylog/querylogfile.go`, `qlog.go`)

A flush empties the buffer as soon as it has the records of the entries; it opens the file and writes them only after
that.  So the entries of a flush that cannot open the file, or write all of it, are in neither place.  If an entry
cannot be encoded, the buffer stays as it is, but so does the flag that says that a flush is pending: no `Add` starts
another flush then, unless the flush was started by something else (`kept_iff`).

Entries are told apart by their addresses, as in the buffer, which has pointers.  The steps are the sections of
`QueryLog`, with the bytes of the file; they do the same where nothing fails (`Corresponds.next`).
-/

namespace AdGuardHome.Querylog

open AdGuardHome.Lib

/-- A pointer to an entry. -/
structure EntryPtr where
  addr : ℕ
  entry : LogEntry

/-- What `flushLogBuffer` returns instead of nil. -/
inductive FlushError
  | nothingToWrite
  | encoding
  | creatingFile
  | writing
  /-- The error of `Close`, if there is no other. -/
  | deferred
deriving DecidableEq

/-- What the file system does in a flush. -/
structure FileErrors where
  /-- `os.OpenFile` returns an error. -/
  openFile : Bool
  /-- `Write` returns an error after so many bytes. -/
  write : Option ℕ
  /-- `Close` returns an error. -/
  close : Bool

/-- `queryLog`, as far as flushes use it. -/
structure FlushLog (memSize : ℕ) (R : RingBuffers EntryPtr (capacity memSize)) where
  buffer : R.Buffer
  flushPending : Bool
  /-- How many calls of `flushLogBuffer` wait for `fileFlushLock`. -/
  waiting : ℕ
  /-- The entries, with their records, that the flush with `fileFlushLock` is about to write. -/
  taken : Option (List (EntryPtr × Bytes))
  /-- The bytes of the file, `none` if there is no file. -/
  logFile : Option Bytes
  /-- The number of the entries that were allocated. -/
  allocated : ℕ

namespace FlushLog

variable {memSize : ℕ} {R : RingBuffers EntryPtr (capacity memSize)}

def new (logFile : Option Bytes) : FlushLog memSize R where
  buffer := R.new
  flushPending := false
  waiting := 0
  taken := none
  logFile := logFile
  allocated := 0

/-! ## The steps -/

/-- `Add`, from where it has `bufferLock`. -/
def add (s : FlushLog memSize R) (entry : LogEntry) (fileIsEnabled : Bool) : FlushLog memSize R :=
  let buffer := R.push s.buffer ⟨s.allocated, entry⟩
  let flushes := !s.flushPending && fileIsEnabled && decide (memSize ≤ R.len buffer)
  { s with
    buffer := buffer
    flushPending := s.flushPending || flushes
    waiting := if flushes then s.waiting + 1 else s.waiting
    allocated := s.allocated + 1 }

/-- Calls of `Add` one after another. -/
def addAll (s : FlushLog memSize R) (adds : List (LogEntry × Bool)) : FlushLog memSize R :=
  run (fun s a => s.add a.1 a.2) s adds

/-- `Shutdown`, up to the call of `flushLogBuffer`. -/
def shutdown (s : FlushLog memSize R) (fileIsEnabled : Bool) : FlushLog memSize R :=
  if fileIsEnabled then { s with waiting := s.waiting + 1 } else s

/-- The entries of the buffer with their records, `none` if an entry cannot be encoded. -/
def encoded (s : FlushLog memSize R) (zone : LogEntry → ℤ) : Option (List (EntryPtr × Bytes)) :=
  (R.toList s.buffer).mapM fun p => (p.entry.encode (zone p.entry)).map fun cs => (p, utf8 cs)

/-- The first half of `flushLogBuffer`, in a call that gets `fileFlushLock`: `encodeEntries`. -/
def encodeEntries (s : FlushLog memSize R) (zone : LogEntry → ℤ) : FlushLog memSize R × Option FlushError :=
  match s.waiting, s.taken with
  | waiting + 1, none =>
    if R.len s.buffer = 0 then ({ s with waiting := waiting }, some .nothingToWrite)
    else
      match s.encoded zone with
      | none => ({ s with waiting := waiting }, some .encoding)
      | some b =>
        ({ s with waiting := waiting, buffer := R.clear s.buffer, flushPending := false, taken := some b }, none)
  | _, _ => (s, none)

/-- The bytes of the records. -/
def bytes (b : List (EntryPtr × Bytes)) : Bytes := unlines newline (b.map (·.2))

/-- The second half: `flushToFile`. -/
def flushToFile (s : FlushLog memSize R) (errs : FileErrors) : FlushLog memSize R × Option FlushError :=
  match s.taken with
  | none => (s, none)
  | some b =>
    if errs.openFile then ({ s with taken := none }, some .creatingFile)
    else
      match errs.write with
      | some n => ({ s with taken := none, logFile := some (s.logFile.getD [] ++ (bytes b).take n) }, some .writing)
      | none =>
        ({ s with taken := none, logFile := some (s.logFile.getD [] ++ bytes b) },
          if errs.close then some .deferred else none)

/-- `clear`, in a call that gets `fileFlushLock`. -/
def clear (s : FlushLog memSize R) (removeErr : Bool) : FlushLog memSize R :=
  match s.taken with
  | some _ => s
  | none =>
    { s with buffer := R.clear s.buffer, flushPending := false, logFile := if removeErr then s.logFile else none }

inductive Op
  | add (entry : LogEntry) (fileIsEnabled : Bool)
  | shutdown (fileIsEnabled : Bool)
  | encodeEntries (zone : LogEntry → ℤ)
  | flushToFile (errs : FileErrors)
  | clear (removeErr : Bool)
  /-- `rotate`, which renames the file. -/
  | rotate

/-- A step of one of the calls, with the error that a flush returns in it. -/
def step (s : FlushLog memSize R) : Op → FlushLog memSize R × Option FlushError
  | .add entry fileIsEnabled => (s.add entry fileIsEnabled, none)
  | .shutdown fileIsEnabled => (s.shutdown fileIsEnabled, none)
  | .encodeEntries zone => s.encodeEntries zone
  | .flushToFile errs => s.flushToFile errs
  | .clear removeErr => (s.clear removeErr, none)
  | .rotate => ({ s with logFile := none }, none)

def next (s : FlushLog memSize R) (op : Op) : FlushLog memSize R := (s.step op).1

/-! ## Failed flushes -/

/-- The entries of the buffer when the flush of the step took its records. -/
def flushed (s : FlushLog memSize R) : Op → List EntryPtr
  | .encodeEntries _ => (R.toList s.buffer)
  | .flushToFile _ => (s.taken.getD []).map (·.1)
  | _ => []

/-- A flush that was about to write entries in `s` has left in the file of `t` the complete records of its first
entries up to that of a number. -/
def InFile (s t : FlushLog memSize R) (k : ℕ) : Prop :=
  k < (s.taken.getD []).length ∧ s.logFile.getD [] ++ bytes ((s.taken.getD []).take (k + 1)) <+: t.logFile.getD []

/-- A flush is about to start, and it writes the entries of the buffer if nothing fails. -/
def Flushes (s : FlushLog memSize R) : Prop :=
  0 < s.waiting ∧ ∀ zone : LogEntry → ℤ, (∀ p ∈ R.toList s.buffer, p.entry.encode (zone p.entry) ≠ none) →
    ∀ k < R.len s.buffer,
      InFile (s.encodeEntries zone).1 ((s.encodeEntries zone).1.flushToFile ⟨false, none, false⟩).1 k

/-- What a flush that has failed in the step leaves. -/
structure Kept (s : FlushLog memSize R) (op : Op) : Prop where
  kept : ∀ k p, (s.flushed op)[k]? = some p → p ∈ R.toList (s.next op).buffer ∨ InFile s (s.next op) k
  retried : ∀ adds entry, memSize ≤ R.len (((s.next op).addAll adds).add entry true).buffer →
    (((s.next op).addAll adds).add entry true).Flushes
  shutdown : ((s.next op).shutdown true).Flushes

/-- The file can be opened and written, and if an entry cannot be encoded, then no flush is pending or another one
waits. -/
def Harmless (s : FlushLog memSize R) : Op → Prop
  | .encodeEntries zone =>
    0 < s.waiting → s.taken = none → (∃ p ∈ R.toList s.buffer, p.entry.encode (zone p.entry) = none) →
      s.flushPending = false ∨ 1 < s.waiting
  | .flushToFile errs =>
    ∀ b, s.taken = some b → errs.openFile = false ∧ ∀ n, errs.write = some n → (bytes b).length ≤ n
  | _ => True

/-! ## The invariant -/

structure Inv (s : FlushLog memSize R) : Prop where
  /-- A pending flush has a full buffer. -/
  full : s.flushPending = true → 0 < R.len s.buffer ∧ memSize ≤ (R.len s.buffer)
  /-- A flush is pending again only if `Add` has started one. -/
  pending : s.taken ≠ none → s.flushPending = true → 0 < s.waiting
  nonempty : s.taken ≠ some []
  fresh : ∀ p ∈ R.toList s.buffer, p.addr < s.allocated
  apart : ∀ b ∈ s.taken.getD [], b.1.addr < s.allocated ∧ b.1 ∉ (R.toList s.buffer)

theorem inv_new (logFile : Option Bytes) : (new logFile : FlushLog memSize R).Inv where
  full := by simp [new]
  pending := by simp [new]
  nonempty := by simp [new]
  fresh := by simp [new]
  apart := by simp [new]

variable {s : FlushLog memSize R}

theorem capacity_pos : 0 < capacity memSize := by
  unfold capacity
  split <;> omega

theorem encoded_eq_none {zone : LogEntry → ℤ} :
    s.encoded zone = none ↔ ∃ p ∈ R.toList s.buffer, p.entry.encode (zone p.entry) = none := by
  unfold encoded
  generalize R.toList s.buffer = ps
  induction ps with
  | nil => simp
  | cons p ps ih =>
    rw [List.mapM_cons]
    cases hp : p.entry.encode (zone p.entry) with
    | none => simp [hp]
    | some cs =>
      cases hps : ps.mapM fun p => (p.entry.encode (zone p.entry)).map fun cs => (p, utf8 cs) with
      | none => simpa [hp, hps] using ih.1 hps
      | some b => simpa [hp, hps] using ih

theorem map_encoded {zone : LogEntry → ℤ} {b : List (EntryPtr × Bytes)} (h : s.encoded zone = some b) :
    b.map (·.1) = R.toList s.buffer := by
  unfold encoded at h
  revert h
  generalize R.toList s.buffer = ps
  intro h
  induction ps generalizing b with
  | nil =>
    cases h
    rfl
  | cons p ps ih =>
    rw [List.mapM_cons] at h
    obtain ⟨r, hr, h⟩ := Option.bind_eq_some_iff.1 h
    obtain ⟨rs, hrs, h⟩ := Option.bind_eq_some_iff.1 h
    obtain ⟨cs, -, rfl⟩ := Option.map_eq_some_iff.1 hr
    cases h
    rw [List.map_cons, ih hrs]

/-- A first half of a flush does nothing, fails, or takes all entries of the buffer. -/
theorem encodeEntries_cases (s : FlushLog memSize R) (zone : LogEntry → ℤ) :
    (¬ (0 < s.waiting ∧ s.taken = none) ∧ s.encodeEntries zone = (s, none)) ∨
      (0 < s.waiting ∧ s.taken = none ∧
        ((R.len s.buffer = 0 ∧ s.encodeEntries zone = ({ s with waiting := s.waiting - 1 }, some .nothingToWrite)) ∨
          (R.len s.buffer ≠ 0 ∧ s.encoded zone = none ∧
            s.encodeEntries zone = ({ s with waiting := s.waiting - 1 }, some .encoding)) ∨
          ∃ b, R.len s.buffer ≠ 0 ∧ s.encoded zone = some b ∧
            s.encodeEntries zone =
              ({ s with
                waiting := s.waiting - 1
                buffer := R.clear s.buffer
                flushPending := false
                taken := some b }, none))) := by
  unfold encodeEntries
  cases hwaiting : s.waiting with
  | zero => exact .inl ⟨by simp, rfl⟩
  | succ waiting =>
    cases htaken : s.taken with
    | some b => exact .inl ⟨by simp, rfl⟩
    | none =>
      refine .inr ⟨Nat.succ_pos _, rfl, ?_⟩
      dsimp only
      by_cases hlen : R.len s.buffer = 0
      · rw [if_pos hlen]
        exact .inl ⟨hlen, rfl⟩
      · rw [if_neg hlen]
        cases hb : s.encoded zone with
        | none => exact .inr (.inl ⟨hlen, rfl, rfl⟩)
        | some b => exact .inr (.inr ⟨b, hlen, rfl, rfl⟩)

theorem Inv.add (h : s.Inv) (entry : LogEntry) (fileIsEnabled : Bool) : (s.add entry fileIsEnabled).Inv := by
  have hle := R.len_le_push s.buffer ⟨s.allocated, entry⟩
  refine ⟨fun hpending => ?_, fun htaken hpending => ?_, h.nonempty, fun p hp => ?_, fun b hb => ⟨?_, fun hp => ?_⟩⟩
  · refine ⟨R.len_push_pos capacity_pos _ _, ?_⟩
    show memSize ≤ R.len (R.push s.buffer ⟨s.allocated, entry⟩)
    rcases Bool.or_eq_true_iff.1 hpending with hpending | hflushes
    · exact (h.full hpending).2.trans hle
    · exact of_decide_eq_true (Bool.and_eq_true_iff.1 hflushes).2
  · show 0 < (s.add entry fileIsEnabled).waiting
    unfold FlushLog.add
    dsimp only
    split
    · exact Nat.succ_pos _
    · rename_i hflushes
      exact h.pending htaken ((Bool.or_eq_true_iff.1 hpending).resolve_right hflushes)
  · show p.addr < s.allocated + 1
    rcases R.mem_push hp with hp | rfl
    · exact (h.fresh p hp).trans (Nat.lt_succ_self _)
    · exact Nat.lt_succ_self _
  · exact (h.apart b hb).1.trans (Nat.lt_succ_self _)
  · rcases R.mem_push hp with hp | hp
    · exact (h.apart b hb).2 hp
    · exact absurd (hp ▸ (h.apart b hb).1) (lt_irrefl _)

theorem Inv.encodeEntries (h : s.Inv) (zone : LogEntry → ℤ) : (s.encodeEntries zone).1.Inv := by
  rcases encodeEntries_cases s zone with ⟨-, heq⟩ | ⟨-, htaken, ⟨-, heq⟩ | ⟨-, -, heq⟩ | ⟨b, hlen, hb, heq⟩⟩
  · rw [heq]
    exact h
  · rw [heq]
    exact ⟨h.full, fun hne => absurd htaken hne, h.nonempty, h.fresh, h.apart⟩
  · rw [heq]
    exact ⟨h.full, fun hne => absurd htaken hne, h.nonempty, h.fresh, h.apart⟩
  · rw [heq]
    have hmap := map_encoded hb
    refine ⟨by simp, by simp, fun hnil => ?_, by simp, fun x hx => ⟨h.fresh x.1 ?_, by simp⟩⟩
    · cases hnil
      exact hlen ((R.len_eq s.buffer).trans (congrArg List.length hmap).symm)
    · rw [← hmap]
      exact List.mem_map_of_mem hx

theorem Inv.flushToFile (h : s.Inv) (errs : FileErrors) : (s.flushToFile errs).1.Inv := by
  have hdone (logFile : Option Bytes) : Inv { s with taken := none, logFile := logFile } :=
    ⟨h.full, by simp, by simp, h.fresh, by simp⟩
  unfold FlushLog.flushToFile
  cases s.taken with
  | none => exact h
  | some b =>
    dsimp only
    split
    · exact hdone s.logFile
    · cases errs.write <;> exact hdone _

/-- Every step keeps the invariant. -/
theorem Inv.next (h : s.Inv) (op : Op) : (s.next op).Inv := by
  cases op with
  | add entry fileIsEnabled => exact h.add entry fileIsEnabled
  | shutdown fileIsEnabled =>
    show (s.shutdown fileIsEnabled).Inv
    unfold shutdown
    split
    · exact ⟨h.full, fun _ _ => Nat.succ_pos _, h.nonempty, h.fresh, h.apart⟩
    · exact h
  | encodeEntries zone => exact h.encodeEntries zone
  | flushToFile errs => exact h.flushToFile errs
  | clear removeErr =>
    show (s.clear removeErr).Inv
    unfold clear
    cases htaken : s.taken with
    | some b => exact h
    | none => exact ⟨by simp, by simp, by simp, by simp, by simp⟩
  | rotate => exact ⟨h.full, h.pending, h.nonempty, h.fresh, h.apart⟩

/-! ## What a failed flush leaves -/

theorem bytes_append (b c : List (EntryPtr × Bytes)) : bytes (b ++ c) = bytes b ++ bytes c := by
  simp [bytes]

theorem length_bytes_pos {b : List (EntryPtr × Bytes)} (h : b ≠ []) : 0 < (bytes b).length := by
  obtain ⟨x, b, rfl⟩ := List.exists_cons_of_ne_nil h
  simp [bytes]

/-- What is in the file before and the first records are the start of a file with all of them. -/
theorem records_take (file : Bytes) (b : List (EntryPtr × Bytes)) (k : ℕ) :
    file ++ bytes (b.take k) <+: file ++ bytes b := by
  rw [List.prefix_append_right_inj]
  exact ⟨bytes (b.drop k), by rw [← bytes_append, List.take_append_drop]⟩

/-- A flush that is about to start writes the entries if nothing fails. -/
theorem flushes_of (hwaiting : 0 < s.waiting) (htaken : s.taken = none) : s.Flushes := by
  refine ⟨hwaiting, fun zone hencode k hk => ?_⟩
  rcases encodeEntries_cases s zone with ⟨hnot, -⟩ | ⟨-, -, ⟨hlen, -⟩ | ⟨-, hnone, -⟩ | ⟨b, -, hb, heq⟩⟩
  · exact absurd ⟨hwaiting, htaken⟩ hnot
  · omega
  · obtain ⟨p, hp, hencode'⟩ := encoded_eq_none.1 hnone
    exact absurd hencode' (hencode p hp)
  · have hlen : b.length = R.len s.buffer := by
      rw [← List.length_map (f := (·.1)), map_encoded hb, R.len_eq]
    rw [heq]
    exact ⟨by simpa [hlen] using hk, records_take _ b (k + 1)⟩

/-- Where a pending flush is one that waits, it still is after an `Add`, and an `Add` to a full buffer finds a flush or
starts one. -/
theorem waiting_add (h : s.flushPending = true → 0 < s.waiting) (entry : LogEntry) (fileIsEnabled : Bool) :
    ((s.add entry fileIsEnabled).flushPending = true → 0 < (s.add entry fileIsEnabled).waiting) ∧
      (fileIsEnabled = true → memSize ≤ R.len (s.add entry fileIsEnabled).buffer →
        0 < (s.add entry fileIsEnabled).waiting) := by
  unfold add
  dsimp only
  split
  · exact ⟨fun _ => Nat.succ_pos _, fun _ _ => Nat.succ_pos _⟩
  · rename_i hflushes
    refine ⟨fun hpending => h ((Bool.or_eq_true_iff.1 hpending).resolve_right hflushes), fun henabled hlen => h ?_⟩
    by_contra hpending
    exact hflushes (by simp [hpending, henabled, hlen])

/-- An `Add` to a full buffer has a flush started, now and later, unless one is pending that has failed. -/
theorem retried_iff (hfull : s.flushPending = true → memSize ≤ R.len s.buffer) (htaken : s.taken = none) :
    (∀ adds entry, memSize ≤ R.len ((s.addAll adds).add entry true).buffer → ((s.addAll adds).add entry true).Flushes) ↔
      (s.flushPending = true → 0 < s.waiting) := by
  constructor
  · intro h hpending
    have hlen : memSize ≤ R.len (s.add {} true).buffer := (hfull hpending).trans (R.len_le_push s.buffer _)
    have hwaiting : 0 < (s.add {} true).waiting := (h [] {} hlen).1
    unfold add at hwaiting
    rwa [hpending] at hwaiting
  · intro h adds entry hlen
    have hadds : ((s.addAll adds).flushPending = true → 0 < (s.addAll adds).waiting) ∧ (s.addAll adds).taken = none :=
      run_invariant (I := fun t : FlushLog memSize R => (t.flushPending = true → 0 < t.waiting) ∧ t.taken = none)
        (fun t (a : LogEntry × Bool) ht => ⟨(waiting_add ht.1 a.1 a.2).1, ht.2⟩) ⟨h, htaken⟩ adds
    exact flushes_of ((waiting_add hadds.1 entry true).2 rfl hlen) hadds.2

theorem shutdown_flushes (htaken : s.taken = none) : (s.shutdown true).Flushes :=
  flushes_of (Nat.succ_pos _) htaken

/-- The first half. -/
theorem kept_encodeEntries (h : s.Inv) (zone : LogEntry → ℤ) :
    ((s.step (.encodeEntries zone)).2 ≠ none → Kept s (.encodeEntries zone)) ↔ Harmless s (.encodeEntries zone) := by
  have hstep : s.step (.encodeEntries zone) = s.encodeEntries zone := rfl
  -- the state after a failure
  have hkept (hnext : s.next (.encodeEntries zone) = { s with waiting := s.waiting - 1 }) (htaken : s.taken = none) :
      Kept s (.encodeEntries zone) ↔ (s.flushPending = true → 0 < s.waiting - 1) := by
    have hretried := retried_iff (s := { s with waiting := s.waiting - 1 }) (fun hp => (h.full hp).2) htaken
    rw [← hnext] at hretried
    refine Iff.trans ⟨Kept.retried, fun hr => ⟨fun k p hp => .inl ?_, hr, shutdown_flushes (by rw [hnext, htaken])⟩⟩
      (hretried.trans (by rw [hnext]))
    rw [hnext]
    exact List.mem_of_getElem? hp
  rcases encodeEntries_cases s zone with
    ⟨hnot, heq⟩ | ⟨hwaiting, htaken, ⟨hlen, heq⟩ | ⟨-, hnone, heq⟩ | ⟨b, -, hb, heq⟩⟩
  · refine iff_of_true (fun hne => ?_) (fun hwaiting htaken => absurd ⟨hwaiting, htaken⟩ hnot)
    rw [hstep, heq] at hne
    exact absurd rfl hne
  · refine iff_of_true (fun _ => (hkept (by rw [next, hstep, heq]) htaken).2 fun hpending => ?_) ?_
    · have := (h.full hpending).1
      omega
    · rintro - - ⟨p, hp, -⟩
      rw [List.length_eq_zero_iff.1 ((R.len_eq s.buffer).symm.trans hlen)] at hp
      cases hp
  · rw [hstep, heq]
    simp only [ne_eq, reduceCtorEq, not_false_eq_true, true_imp_iff]
    rw [hkept (by rw [next, hstep, heq]) htaken]
    unfold Harmless
    simp only [hwaiting, htaken, encoded_eq_none.1 hnone, true_imp_iff]
    cases s.flushPending with
    | false => simp
    | true =>
      simp only [true_imp_iff, Bool.true_eq_false, false_or]
      omega
  · refine iff_of_true (fun hne => ?_) ?_
    · rw [hstep, heq] at hne
      exact absurd rfl hne
    · rintro - - hbad
      rw [encoded_eq_none.2 hbad] at hb
      cases hb

/-- Where the second half of a flush does not change the buffer, all records have to be in the file: the last entry is
not in the buffer. -/
theorem Kept.records (h : s.Inv) {errs : FileErrors} {b : List (EntryPtr × Bytes)} (htaken : s.taken = some b)
    (hbuffer : (s.next (.flushToFile errs)).buffer = s.buffer) (hk : Kept s (.flushToFile errs)) :
    s.logFile.getD [] ++ bytes b <+: (s.next (.flushToFile errs)).logFile.getD [] := by
  have hpos : 0 < b.length := List.length_pos_of_ne_nil fun hnil => h.nonempty (hnil ▸ htaken)
  obtain ⟨p, hp⟩ : ∃ p, b[b.length - 1]? = some p := ⟨_, List.getElem?_eq_getElem (by omega)⟩
  have hflushed : (s.flushed (.flushToFile errs))[b.length - 1]? = some p.1 := by
    show ((s.taken.getD []).map (·.1))[b.length - 1]? = _
    rw [htaken, Option.getD_some, List.getElem?_map, hp]
    rfl
  rcases hk.kept _ _ hflushed with hmem | ⟨-, hfile⟩
  · rw [hbuffer] at hmem
    exact absurd hmem (h.apart p (by rw [htaken]; exact List.mem_of_getElem? hp)).2
  · rwa [htaken, Option.getD_some, Nat.sub_add_cancel hpos, List.take_length] at hfile

/-- Where all records are in the file, nothing is lost. -/
theorem kept_of_records (h : s.Inv) {errs : FileErrors} {b : List (EntryPtr × Bytes)} (htaken : s.taken = some b)
    (hnext : s.next (.flushToFile errs) = { s with taken := none, logFile := some (s.logFile.getD [] ++ bytes b) }) :
    Kept s (.flushToFile errs) := by
  have hretried := retried_iff
    (s := { s with taken := none, logFile := some (s.logFile.getD [] ++ bytes b) }) (fun hp => (h.full hp).2) rfl
  rw [← hnext] at hretried
  refine ⟨fun k p hp => .inr ⟨?_, ?_⟩, hretried.2 ?_, shutdown_flushes (by rw [hnext])⟩
  · have hlt := (List.getElem?_eq_some_iff.1 hp).1
    simpa [flushed] using hlt
  · rw [hnext, htaken]
    exact records_take _ b (k + 1)
  · rw [hnext]
    exact h.pending (by rw [htaken]; exact Option.some_ne_none b)

/-- The second half. -/
theorem kept_flushToFile (h : s.Inv) (errs : FileErrors) :
    ((s.step (.flushToFile errs)).2 ≠ none → Kept s (.flushToFile errs)) ↔ Harmless s (.flushToFile errs) := by
  have hstep : s.step (.flushToFile errs) = s.flushToFile errs := rfl
  cases htaken : s.taken with
  | none =>
    refine iff_of_true (fun hne => ?_) (fun b hb => ?_)
    · rw [hstep, flushToFile, htaken] at hne
      exact absurd rfl hne
    · rw [htaken] at hb
      cases hb
  | some b =>
    have hne : b ≠ [] := by
      rintro rfl
      exact h.nonempty htaken
    have hharmless : Harmless s (.flushToFile errs) ↔
        errs.openFile = false ∧ ∀ n, errs.write = some n → (bytes b).length ≤ n := by
      unfold Harmless
      rw [htaken]
      exact ⟨fun hall => hall b rfl, fun hb b' hb' => Option.some.inj hb' ▸ hb⟩
    rw [hharmless]
    rw [hstep, flushToFile, htaken]
    dsimp only
    cases hopen : errs.openFile with
    | true =>
      have hnext : s.next (.flushToFile errs) = { s with taken := none } := by
        rw [next, hstep, flushToFile, htaken]
        dsimp only
        rw [if_pos hopen]
      refine iff_of_false (fun hkept => ?_) (by simp)
      have hfile := ((hkept (by simp)).records h htaken (by rw [hnext])).length_le
      rw [hnext, List.length_append] at hfile
      have := length_bytes_pos hne
      dsimp only at hfile
      omega
    | false =>
      rw [if_neg Bool.false_ne_true]
      cases hwrite : errs.write with
      | none =>
        refine iff_of_true (fun _ => kept_of_records h htaken ?_) (by simp)
        rw [next, hstep, flushToFile, htaken]
        dsimp only
        rw [if_neg (by simp [hopen]), hwrite]
      | some n =>
        have hnext : s.next (.flushToFile errs) =
            { s with taken := none, logFile := some (s.logFile.getD [] ++ (bytes b).take n) } := by
          rw [next, hstep, flushToFile, htaken]
          dsimp only
          rw [if_neg (by simp [hopen]), hwrite]
        by_cases hn : (bytes b).length ≤ n
        · rw [List.take_of_length_le hn] at hnext
          refine iff_of_true (fun _ => kept_of_records h htaken hnext) ⟨rfl, fun m hm => ?_⟩
          cases hm
          exact hn
        · refine iff_of_false (fun hkept => ?_) (fun hb => hn (hb.2 n rfl))
          have hfile := ((hkept (by simp)).records h htaken (by rw [hnext])).length_le
          rw [hnext, Option.getD_some, List.length_append, List.length_append, List.length_take] at hfile
          omega

end FlushLog

open FlushLog in
/-- A flush that fails loses no entry, and another one can be started after it, exactly if it can open the file and
write all of it, and if the flag that it leaves set is that of another one where an entry cannot be encoded. -/
theorem kept_iff {memSize : ℕ} {R : RingBuffers EntryPtr (capacity memSize)} (logFile : Option Bytes)
    (ops : List FlushLog.Op) (op : FlushLog.Op) :
    let s : FlushLog memSize R := run next (new logFile) ops
    ((s.step op).2 ≠ none → Kept s op) ↔ Harmless s op := by
  intro s
  have h : s.Inv := run_invariant (fun _ o h => h.next o) (inv_new logFile) ops
  cases op with
  | encodeEntries zone => exact kept_encodeEntries h zone
  | flushToFile errs => exact kept_flushToFile h errs
  | _ => exact iff_of_true (fun hne => absurd rfl hne) trivial

open FlushLog in
/-- An entry is lost where the file cannot be opened. -/
theorem not_kept_openFile :
    ¬ ∀ (memSize : ℕ) (R : RingBuffers EntryPtr (capacity memSize)) (logFile : Option Bytes) (ops : List FlushLog.Op)
      (op : FlushLog.Op),
      let s : FlushLog memSize R := run next (new logFile) ops
      (s.step op).2 ≠ none → Kept s op := by
  intro h
  let s : FlushLog 1 .list := run next (new none) [.add {} true, .encodeEntries fun _ => 0]
  have htaken : s.taken.isSome = true := by decide +kernel
  obtain ⟨b, hb⟩ := Option.isSome_iff_exists.1 htaken
  have hinv : s.Inv := run_invariant (fun _ o h => h.next o) (inv_new none) _
  have hharmless := (kept_flushToFile hinv ⟨true, none, false⟩).1 (h 1 .list none _ _)
  exact absurd (hharmless b hb).1 (by decide)

/-! ## Flushes that do not fail -/

/-- The logs have the same entries in the buffer, in the second half of a flush and in the file. -/
structure Corresponds {memSize : ℕ} {R : RingBuffers EntryPtr (capacity memSize)}
    {R' : RingBuffers LogEntry (capacity memSize)} (s : FlushLog memSize R) (q : QueryLog memSize R') : Prop where
  buffer : R'.toList q.buffer = (R.toList s.buffer).map (·.entry)
  flushPending : q.flushPending = s.flushPending
  waiting : q.waiting = s.waiting
  taken : q.taken = s.taken.map fun b => b.map (·.2)
  logFile : s.logFile = q.logFile.map (unlines newline)

namespace Corresponds

variable {memSize : ℕ} {R : RingBuffers EntryPtr (capacity memSize)} {R' : RingBuffers LogEntry (capacity memSize)}
  {s : FlushLog memSize R} {q : QueryLog memSize R'}

theorem encoded (h : Corresponds s q) {zone : LogEntry → ℤ} (hlen : R.len s.buffer ≠ 0) :
    q.encoded zone = (s.encoded zone).map fun b => b.map (·.2) := by
  have hne : ¬ R'.len q.buffer = 0 := by
    rwa [R'.len_eq, h.buffer, List.length_map, ← R.len_eq]
  unfold QueryLog.encoded FlushLog.encoded
  rw [if_neg hne, h.buffer]
  generalize R.toList s.buffer = ps
  induction ps with
  | nil => rfl
  | cons p ps ih =>
    rw [List.map_cons, List.mapM_cons, List.mapM_cons, ih]
    cases p.entry.encode (zone p.entry) with
    | none => rfl
    | some cs => cases (ps.mapM fun p => (p.entry.encode (zone p.entry)).map fun cs => (p, utf8 cs)) <;> rfl

theorem add (h : Corresponds s q) (entry : LogEntry) : Corresponds (s.add entry true) (q.add entry) := by
  have hpush : R'.toList (R'.push q.buffer entry) =
      (R.toList (R.push s.buffer ⟨s.allocated, entry⟩)).map (·.entry) := by
    simp [R'.toList_push, R.toList_push, h.buffer]
  have hlen : R'.len (R'.push q.buffer entry) = (R.len (R.push s.buffer ⟨s.allocated, entry⟩)) := by
    rw [R'.len_eq, hpush, List.length_map, R.len_eq]
  refine ⟨hpush, ?_, ?_, h.taken, h.logFile⟩
  · simp [QueryLog.add, FlushLog.add, h.flushPending, hlen]
  · simp [QueryLog.add, FlushLog.add, h.flushPending, h.waiting, hlen]

theorem encodeEntries (h : Corresponds s q) (zone : LogEntry → ℤ) :
    Corresponds (s.encodeEntries zone).1 (q.encodeEntries zone) := by
  rcases FlushLog.encodeEntries_cases s zone with
    ⟨hnot, heq⟩ | ⟨hwaiting, htaken, ⟨hlen, heq⟩ | ⟨hlen, hnone, heq⟩ | ⟨b, hlen, hb, heq⟩⟩
  · rw [heq]
    have hq : q.encodeEntries zone = q := by
      unfold QueryLog.encodeEntries
      rw [h.waiting, h.taken]
      split
      · rename_i hw ht
        exact absurd ⟨by omega, Option.map_eq_none_iff.1 ht⟩ hnot
      · rfl
    rwa [hq]
  all_goals
    obtain ⟨w, hw⟩ := Nat.exists_eq_add_of_lt hwaiting
    rw [heq]
    unfold QueryLog.encodeEntries
    rw [show q.waiting = w + 1 by rw [h.waiting]; omega, show q.taken = none by rw [h.taken, htaken]; rfl]
    dsimp only
  · have hq : q.encoded zone = none := if_pos (by rw [R'.len_eq, h.buffer, List.length_map, ← R.len_eq]; exact hlen)
    rw [hq]
    exact ⟨h.buffer, h.flushPending, by simp [hw], by simp [htaken], h.logFile⟩
  · rw [h.encoded hlen, hnone]
    exact ⟨h.buffer, h.flushPending, by simp [hw], by simp [htaken], h.logFile⟩
  · rw [h.encoded hlen, hb]
    exact ⟨by simp, rfl, by simp [hw], rfl, h.logFile⟩

theorem flushToFile (h : Corresponds s q) :
    Corresponds (s.flushToFile ⟨false, none, false⟩).1 q.flushToFile := by
  unfold QueryLog.flushToFile FlushLog.flushToFile
  rw [h.taken]
  cases hb : s.taken with
  | none => exact h
  | some b =>
    refine ⟨h.buffer, h.flushPending, h.waiting, rfl, ?_⟩
    show some (s.logFile.getD [] ++ unlines newline (b.map (·.2))) =
      some (unlines newline (q.logFile.getD [] ++ b.map (·.2)))
    rw [unlines_append, h.logFile]
    cases q.logFile <;> rfl

/-- The steps of the log whose flushes do not fail. -/
theorem next {env : SearchEnv} (h : Corresponds s q) :
    (∀ entry, Corresponds (s.next (.add entry true)) (q.step env (.add entry))) ∧
      Corresponds (s.next (.shutdown true)) (q.step env .flushLogBuffer) ∧
      (∀ zone, Corresponds (s.next (.encodeEntries zone)) (q.step env (.encodeEntries zone))) ∧
      Corresponds (s.next (.flushToFile ⟨false, none, false⟩)) (q.step env .flushToFile) :=
  ⟨h.add, ⟨h.buffer, h.flushPending, congrArg (· + 1) h.waiting, h.taken, h.logFile⟩, h.encodeEntries, h.flushToFile⟩

end Corresponds

end AdGuardHome.Querylog
