import AdGuardHome.Lib.FileSys

/-!
# Unpacking a package (`internal/updater/updater.go`)

The entries of a `.tar.gz` and of a `.zip` file are unpacked by two loops.  That of the first goes on after an entry
that fails, with the error variable of the next header, so an error of an entry is never returned; that of the second
stops, and it takes everything that is not a directory for a file (`unpack_iff`).
-/

namespace AdGuardHome.Updater

open AdGuardHome.Lib AdGuardHome.Lib.FileSys

inductive EntryKind
  | dir
  | regular
  | other
deriving DecidableEq

/-- An entry of an archive. -/
structure Entry where
  name : Path
  kind : EntryKind
  data : Bytes
deriving DecidableEq

/-- What goes wrong with an entry. -/
structure EntryFaults where
  /-- `Next` of the tar reader or `Open` of the zip entry returns an error. -/
  header : Bool
  mkdir : Option OpError
  openFile : Option OpError
  /-- `io.Copy` returns an error after so many bytes. -/
  copy : Option ℕ
  /-- `Close` of the file. -/
  close : Bool
  /-- `Close` of the zip entry. -/
  closeEntry : Bool
deriving DecidableEq

/-- What goes wrong with the archive. -/
structure ArchiveFaults where
  openFile : Bool
  newReader : Bool
  closeReader : Bool
  close : Bool
deriving DecidableEq

inductive EntryError
  | openEntry
  | mkdir
  | openFile
  | copy
  /-- The error of a deferred `Close`, if there is no other. -/
  | deferred
deriving DecidableEq

inductive UnpackError
  | openFile
  | newReader
  | next
  | entry (err : EntryError)
  | deferred
deriving DecidableEq

/-- The top-level directory of a package, which is skipped. -/
def topLevel : Path := "AdGuardHome".toList

/-- Creates the file and copies the data of the entry to it. -/
def createFile (fs : Files) (outName name : Path) (e : Entry) (x : EntryFaults) : Files × Path × Option EntryError :=
  match x.openFile with
  | some _ => (fs, [], some .openFile)
  | none =>
    match x.copy with
    | some n => (Function.update fs outName (some (e.data.take n)), [], some .copy)
    | none => (Function.update fs outName (some e.data), name, if x.close then some .deferred else none)

/-- Creates the directory, unless it is the top-level one. -/
def createDir (fs : Files) (name : Path) (x : EntryFaults) : Files × Path × Option EntryError :=
  if name = topLevel then (fs, [], none)
  else
    match x.mkdir with
    | none | some .exist => (fs, [], none)
    | some _ => (fs, [], some .mkdir)

/-- `unpackTarGzFile`: the files, the name, and the error. -/
def unpackTarGzFile (outDir : Path) (fs : Files) (e : Entry) (x : EntryFaults) : Files × Path × Option EntryError :=
  let name := Filepath.base e.name
  if name = [] then (fs, [], none)
  else
    match e.kind with
    | .dir => createDir fs name x
    | .other => (fs, [], none)
    | .regular => createFile fs (Filepath.join [outDir, name]) name e x

/-- `unpackZipFile`, once the entry is open. -/
def unpackOpenZipFile (outDir : Path) (fs : Files) (e : Entry) (x : EntryFaults) : Files × Path × Option EntryError :=
  let name := Filepath.base e.name
  if name = [] then (fs, [], none)
  else
    match e.kind with
    | .dir => createDir fs name x
    | .regular | .other => createFile fs (Filepath.join [outDir, name]) name e x

def unpackZipFile (outDir : Path) (fs : Files) (e : Entry) (x : EntryFaults) : Files × Path × Option EntryError :=
  if x.header then (fs, [], some .openEntry)
  else
    match unpackOpenZipFile outDir fs e x with
    | (fs, name, none) => (fs, name, if x.closeEntry then some .deferred else none)
    | r => r

/-- The loop of `unpackTarGz`. -/
def tarLoop (outDir : Path) : Files → List (Entry × EntryFaults) → List Path → Files × List Path × Option UnpackError
  | fs, [], files => (fs, files, none)
  | fs, (e, x) :: entries, files =>
    if x.header then (fs, files, some .next)
    else
      -- The error of the entry is overwritten by that of the next header.
      let (fs, name, _) := unpackTarGzFile outDir fs e x
      tarLoop outDir fs entries (if name ≠ [] then files ++ [name] else files)

def unpackTarGz (outDir : Path) (fs : Files) (a : ArchiveFaults) (entries : List (Entry × EntryFaults)) :
    Files × List Path × Option UnpackError :=
  if a.openFile then (fs, [], some .openFile)
  else if a.newReader then (fs, [], some .newReader)
  else
    match tarLoop outDir fs entries [] with
    | (fs, files, none) => (fs, files, if a.closeReader ∨ a.close then some .deferred else none)
    | r => r

/-- The loop of `unpackZip`. -/
def zipLoop (outDir : Path) : Files → List (Entry × EntryFaults) → List Path → Files × List Path × Option UnpackError
  | fs, [], files => (fs, files, none)
  | fs, (e, x) :: entries, files =>
    match unpackZipFile outDir fs e x with
    | (fs, _, some err) => (fs, files, some (.entry err))
    | (fs, name, none) => zipLoop outDir fs entries (if name ≠ [] then files ++ [name] else files)

/-- `unpackZip`.  `OpenReader` opens the file and reads the directory of the archive. -/
def unpackZip (outDir : Path) (fs : Files) (a : ArchiveFaults) (entries : List (Entry × EntryFaults)) :
    Files × List Path × Option UnpackError :=
  if a.openFile then (fs, [], some .openFile)
  else if a.newReader then (fs, [], some .newReader)
  else
    match zipLoop outDir fs entries [] with
    | (fs, files, none) => (fs, files, if a.closeReader ∨ a.close then some .deferred else none)
    | r => r

/-! ## What a report means -/

/-- The base names of the regular entries. -/
def regularNames (entries : List (Entry × EntryFaults)) : List Path :=
  (entries.filter fun p => p.1.kind = .regular).map fun p => Filepath.base p.1.name

/-- The file of the entry has all its data, and there is no error. -/
def Written (outDir : Path) (unpackFile : Files → Entry → EntryFaults → Files × Path × Option EntryError)
    (p : Entry × EntryFaults) : Prop :=
  ∀ fs, (unpackFile fs p.1 p.2).1 (Filepath.join [outDir, Filepath.base p.1.name]) = some p.1.data ∧
    (unpackFile fs p.1 p.2).2.2 = none

/-- No error is reported only if every regular entry was written, and the list is that of their names. -/
def AllOrNothing (outDir : Path) (unpackFile : Files → Entry → EntryFaults → Files × Path × Option EntryError)
    (entries : List (Entry × EntryFaults)) (r : Files × List Path × Option UnpackError) : Prop :=
  r.2.2 = none →
    (∀ p ∈ entries, p.1.kind = .regular → Written outDir unpackFile p) ∧ r.2.1 = regularNames entries

/-- Something goes wrong with the archive itself. -/
def ArchiveFaults.fails (a : ArchiveFaults) : Prop := a.openFile ∨ a.newReader ∨ a.closeReader ∨ a.close

/-- Something goes wrong with the directory or the file of an entry. -/
def Fails (p : Entry × EntryFaults) : Prop :=
  p.2.closeEntry ∨
    if p.1.kind = .dir then Filepath.base p.1.name ≠ topLevel ∧ p.2.mkdir ≠ none ∧ p.2.mkdir ≠ some .exist
    else p.2.openFile ≠ none ∨ p.2.copy ≠ none ∨ p.2.close

/-- The archive or the header of an entry cannot be read, or nothing goes wrong and every entry is a directory or a
regular file. -/
def Harmless (a : ArchiveFaults) (entries : List (Entry × EntryFaults)) : Prop :=
  a.fails ∨ (∃ p ∈ entries, p.2.header = true) ∨ ∀ p ∈ entries, ¬ Fails p ∧ p.1.kind ≠ .other

/-! ## An entry -/

variable {outDir : Path} {fs : Files} {e : Entry} {x : EntryFaults}

theorem createFile_err_iff (outName name : Path) :
    (createFile fs outName name e x).2.2 = none ↔ ¬ (x.openFile ≠ none ∨ x.copy ≠ none ∨ x.close) := by
  unfold createFile
  cases x.openFile <;> cases x.copy <;> cases x.close <;> simp

theorem createFile_of_ok {outName name : Path} (h : (createFile fs outName name e x).2.2 = none) :
    (createFile fs outName name e x).1 = Function.update fs outName (some e.data) ∧
      (createFile fs outName name e x).2.1 = name := by
  unfold createFile at h ⊢
  cases hopen : x.openFile with
  | some err =>
    rw [hopen] at h
    cases h
  | none =>
    cases hcopy : x.copy with
    | some n =>
      rw [hopen, hcopy] at h
      cases h
    | none => exact ⟨rfl, rfl⟩

theorem createDir_err_iff (name : Path) :
    (createDir fs name x).2.2 = none ↔ ¬ (name ≠ topLevel ∧ x.mkdir ≠ none ∧ x.mkdir ≠ some .exist) := by
  unfold createDir
  by_cases h : name = topLevel
  · simp [h]
  · rw [if_neg h]
    cases x.mkdir with
    | none => simp
    | some err => cases err <;> simp [h]

theorem createDir_name (name : Path) : (createDir fs name x).2.1 = [] := by
  unfold createDir
  split
  · rfl
  · split <;> rfl

theorem unpackOpenZipFile_err_iff :
    (unpackOpenZipFile outDir fs e x).2.2 = none ↔
      ¬ if e.kind = .dir then Filepath.base e.name ≠ topLevel ∧ x.mkdir ≠ none ∧ x.mkdir ≠ some .exist
        else x.openFile ≠ none ∨ x.copy ≠ none ∨ x.close := by
  simp only [unpackOpenZipFile, if_neg (Filepath.base_ne_nil e.name)]
  cases hkind : e.kind with
  | dir => exact createDir_err_iff _
  | regular => exact createFile_err_iff _ _
  | other => exact createFile_err_iff _ _

/-- A zip entry is unpacked without an error if it can be opened and nothing goes wrong. -/
theorem unpackZipFile_err_iff :
    (unpackZipFile outDir fs e x).2.2 = none ↔ x.header = false ∧ ¬ Fails (e, x) := by
  unfold unpackZipFile Fails
  cases hheader : x.header with
  | true => simp
  | false =>
    have hopen : (unpackOpenZipFile outDir fs e x).2.2 = none ↔ _ := unpackOpenZipFile_err_iff
    rw [if_neg Bool.false_ne_true, not_or, ← hopen]
    generalize unpackOpenZipFile outDir fs e x = r
    obtain ⟨fs', name, err⟩ := r
    cases err with
    | none => cases x.closeEntry <;> simp
    | some err => simp

/-- The name of a zip entry that is unpacked without an error. -/
theorem unpackZipFile_of_ok (h : (unpackZipFile outDir fs e x).2.2 = none) :
    (unpackZipFile outDir fs e x).2.1 = (if e.kind = .dir then [] else Filepath.base e.name) ∧
      (e.kind ≠ .dir → (unpackZipFile outDir fs e x).1
        = Function.update fs (Filepath.join [outDir, Filepath.base e.name]) (some e.data)) := by
  have hok := unpackZipFile_err_iff.1 h
  unfold unpackZipFile
  rw [hok.1, if_neg Bool.false_ne_true]
  have hopen : (unpackOpenZipFile outDir fs e x).2.2 = none := by
    rw [unpackOpenZipFile_err_iff]
    exact fun hfails => hok.2 (.inr hfails)
  have hzip : (unpackOpenZipFile outDir fs e x).2.1 = (if e.kind = .dir then [] else Filepath.base e.name) ∧
      (e.kind ≠ .dir → (unpackOpenZipFile outDir fs e x).1
        = Function.update fs (Filepath.join [outDir, Filepath.base e.name]) (some e.data)) := by
    simp only [unpackOpenZipFile, if_neg (Filepath.base_ne_nil e.name)] at hopen ⊢
    cases hkind : e.kind with
    | dir => exact ⟨createDir_name _, fun hne => absurd rfl hne⟩
    | regular | other =>
      rw [hkind] at hopen
      have hfile := createFile_of_ok hopen
      exact ⟨hfile.2, fun _ => hfile.1⟩
  generalize unpackOpenZipFile outDir fs e x = r at hopen hzip
  obtain ⟨fs', name, err⟩ := r
  cases hopen
  exact hzip

/-- The tar entry of a regular file is unpacked as the zip entry is. -/
theorem unpackTarGzFile_regular (hkind : e.kind = .regular) :
    unpackTarGzFile outDir fs e x
      = createFile fs (Filepath.join [outDir, Filepath.base e.name]) (Filepath.base e.name) e x := by
  simp only [unpackTarGzFile, if_neg (Filepath.base_ne_nil e.name), hkind]

theorem unpackTarGzFile_name_of_not_regular (hkind : e.kind ≠ .regular) :
    (unpackTarGzFile outDir fs e x).2.1 = [] := by
  simp only [unpackTarGzFile, if_neg (Filepath.base_ne_nil e.name)]
  cases h : e.kind with
  | dir => exact createDir_name _
  | regular => exact absurd h hkind
  | other => rfl

/-! ## The loops -/

/-- The loop over a tar file fails only at a header. -/
theorem tarLoop_err_iff (entries : List (Entry × EntryFaults)) :
    ∀ (fs : Files) (files : List Path),
      (tarLoop outDir fs entries files).2.2 = none ↔ ∀ p ∈ entries, p.2.header = false := by
  induction entries with
  | nil => exact fun _ _ => iff_of_true rfl fun p hp => absurd hp List.not_mem_nil
  | cons p entries ih =>
    intro fs files
    obtain ⟨e, x⟩ := p
    rw [tarLoop, List.forall_mem_cons]
    cases hheader : x.header with
    | true => simp
    | false =>
      simp only [Bool.false_eq_true, if_false, true_and]
      exact ih _ _

/-- If every regular entry is unpacked without an error, the list is that of their names. -/
theorem tarLoop_files {entries : List (Entry × EntryFaults)} (hheader : ∀ p ∈ entries, p.2.header = false)
    (hok : ∀ p ∈ entries, p.1.kind = .regular → ¬ Fails p) :
    ∀ (fs : Files) (files : List Path),
      (tarLoop outDir fs entries files).2.1 = files ++ regularNames entries := by
  induction entries with
  | nil =>
    intro fs files
    exact (List.append_nil files).symm
  | cons p entries ih =>
    intro fs files
    obtain ⟨e, x⟩ := p
    obtain ⟨hhead, hheader⟩ := List.forall_mem_cons.1 hheader
    obtain ⟨hfirst, hok⟩ := List.forall_mem_cons.1 hok
    have hhead' : x.header = false := hhead
    rw [tarLoop, hhead', if_neg Bool.false_ne_true]
    simp only
    rw [ih hheader hok]
    by_cases hkind : e.kind = .regular
    · have hnofail := hfirst hkind
      rw [Fails, not_or] at hnofail
      have herr : (createFile fs (Filepath.join [outDir, Filepath.base e.name]) (Filepath.base e.name) e x).2.2
          = none := by
        rw [createFile_err_iff]
        simpa [hkind] using hnofail.2
      have hname := (createFile_of_ok herr).2
      have hcons : regularNames ((e, x) :: entries) = Filepath.base e.name :: regularNames entries := by
        simp [regularNames, hkind]
      rw [unpackTarGzFile_regular hkind, hname, if_pos (Filepath.base_ne_nil _), hcons, List.append_assoc]
      rfl
    · have hcons : regularNames ((e, x) :: entries) = regularNames entries := by
        simp [regularNames, hkind]
      rw [unpackTarGzFile_name_of_not_regular hkind, hcons]
      simp

/-- The loop over a zip file fails at every entry that fails. -/
theorem zipLoop_err_iff (entries : List (Entry × EntryFaults)) :
    ∀ (fs : Files) (files : List Path),
      (zipLoop outDir fs entries files).2.2 = none ↔ ∀ p ∈ entries, p.2.header = false ∧ ¬ Fails p := by
  induction entries with
  | nil => exact fun _ _ => iff_of_true rfl fun p hp => absurd hp List.not_mem_nil
  | cons p entries ih =>
    intro fs files
    obtain ⟨e, x⟩ := p
    have hfile : (unpackZipFile outDir fs e x).2.2 = none ↔ _ := unpackZipFile_err_iff
    rw [zipLoop, List.forall_mem_cons, ← hfile]
    generalize unpackZipFile outDir fs e x = r
    obtain ⟨fs', name, err⟩ := r
    cases err with
    | none => simpa using ih _ _
    | some err => simp

/-- The list of a zip file has the names of all entries that are not directories. -/
theorem zipLoop_files {entries : List (Entry × EntryFaults)} (hok : ∀ p ∈ entries, p.2.header = false ∧ ¬ Fails p) :
    ∀ (fs : Files) (files : List Path), (zipLoop outDir fs entries files).2.1
      = files ++ (entries.filter fun p => p.1.kind ≠ .dir).map fun p => Filepath.base p.1.name := by
  induction entries with
  | nil =>
    intro fs files
    exact (List.append_nil files).symm
  | cons p entries ih =>
    intro fs files
    obtain ⟨e, x⟩ := p
    obtain ⟨hfirst, hok⟩ := List.forall_mem_cons.1 hok
    have herr : (unpackZipFile outDir fs e x).2.2 = none := unpackZipFile_err_iff.2 hfirst
    have hname := (unpackZipFile_of_ok herr).1
    rw [zipLoop]
    generalize unpackZipFile outDir fs e x = r at herr hname
    obtain ⟨fs', name, err⟩ := r
    cases herr
    simp only at hname ⊢
    rw [ih hok, hname]
    by_cases hkind : e.kind = .dir
    · simp [hkind]
    · simp [hkind, Filepath.base_ne_nil]

/-! ## The functions -/

theorem unpackTarGz_err_iff (outDir : Path) (fs : Files) (a : ArchiveFaults) (entries : List (Entry × EntryFaults)) :
    (unpackTarGz outDir fs a entries).2.2 = none ↔ ¬ a.fails ∧ ∀ p ∈ entries, p.2.header = false := by
  rw [← tarLoop_err_iff entries fs []]
  unfold unpackTarGz ArchiveFaults.fails
  generalize tarLoop outDir fs entries [] = r
  obtain ⟨fs', files, err⟩ := r
  cases a.openFile <;> cases a.newReader <;> cases a.closeReader <;> cases a.close <;> cases err <;> simp

theorem unpackZip_err_iff (outDir : Path) (fs : Files) (a : ArchiveFaults) (entries : List (Entry × EntryFaults)) :
    (unpackZip outDir fs a entries).2.2 = none ↔ ¬ a.fails ∧ ∀ p ∈ entries, p.2.header = false ∧ ¬ Fails p := by
  rw [← zipLoop_err_iff entries fs []]
  unfold unpackZip ArchiveFaults.fails
  generalize zipLoop outDir fs entries [] = r
  obtain ⟨fs', files, err⟩ := r
  cases a.openFile <;> cases a.newReader <;> cases a.closeReader <;> cases a.close <;> cases err <;> simp

/-- The list of a function that reports no error is that of its loop. -/
theorem unpackTarGz_files {a : ArchiveFaults} (ha : ¬ a.fails) (entries : List (Entry × EntryFaults)) :
    (unpackTarGz outDir fs a entries).2.1 = (tarLoop outDir fs entries []).2.1 := by
  simp only [ArchiveFaults.fails, not_or] at ha
  rw [unpackTarGz, if_neg ha.1, if_neg ha.2.1]
  generalize tarLoop outDir fs entries [] = r
  obtain ⟨fs', files, err⟩ := r
  cases err <;> rfl

theorem unpackZip_files {a : ArchiveFaults} (ha : ¬ a.fails) (entries : List (Entry × EntryFaults)) :
    (unpackZip outDir fs a entries).2.1 = (zipLoop outDir fs entries []).2.1 := by
  simp only [ArchiveFaults.fails, not_or] at ha
  rw [unpackZip, if_neg ha.1, if_neg ha.2.1]
  generalize zipLoop outDir fs entries [] = r
  obtain ⟨fs', files, err⟩ := r
  cases err <;> rfl

/-- What is not a directory is a regular file or something else. -/
theorem countP_not_dir (entries : List (Entry × EntryFaults)) :
    entries.countP (fun p => decide (p.1.kind ≠ .dir)) =
      entries.countP (fun p => decide (p.1.kind = .regular)) + entries.countP fun p => decide (p.1.kind = .other) := by
  induction entries with
  | nil => rfl
  | cons p entries ih =>
    simp only [List.countP_cons, ih]
    cases p.1.kind <;> simp <;> omega

/-- The regular entries are all that are not directories only if there are no others. -/
theorem no_other_of_names {entries : List (Entry × EntryFaults)}
    (h : ((entries.filter fun p => p.1.kind ≠ .dir).map fun p => Filepath.base p.1.name) = regularNames entries) :
    ∀ p ∈ entries, p.1.kind ≠ .other := by
  have hlen := congrArg List.length h
  rw [regularNames, List.length_map, List.length_map, ← List.countP_eq_length_filter,
    ← List.countP_eq_length_filter, countP_not_dir] at hlen
  have hzero : entries.countP (fun p => decide (p.1.kind = .other)) = 0 := by omega
  intro p hp hother
  exact List.countP_eq_zero.1 hzero p hp (decide_eq_true hother)

theorem names_of_no_other {entries : List (Entry × EntryFaults)} (h : ∀ p ∈ entries, p.1.kind ≠ .other) :
    ((entries.filter fun p => p.1.kind ≠ .dir).map fun p => Filepath.base p.1.name) = regularNames entries := by
  unfold regularNames
  congr 1
  refine List.filter_congr fun p hp => ?_
  have hne := h p hp
  revert hne
  cases p.1.kind <;> simp

theorem not_fails_regular {p : Entry × EntryFaults} (hkind : p.1.kind = .regular) (h : ¬ Fails p) (fs : Files)
    (outName name : Path) : (createFile fs outName name p.1 p.2).2.2 = none := by
  rw [Fails, not_or] at h
  rw [createFile_err_iff]
  simpa [hkind] using h.2

/-- A regular entry with which nothing goes wrong is written by both functions. -/
theorem written_of_not_fails {p : Entry × EntryFaults} (hkind : p.1.kind = .regular) (hheader : p.2.header = false)
    (h : ¬ Fails p) : Written outDir (unpackTarGzFile outDir) p ∧ Written outDir (unpackZipFile outDir) p := by
  refine ⟨fun fs => ?_, fun fs => ?_⟩
  · have herr := not_fails_regular hkind h fs (Filepath.join [outDir, Filepath.base p.1.name]) (Filepath.base p.1.name)
    rw [unpackTarGzFile_regular hkind]
    refine ⟨?_, herr⟩
    rw [(createFile_of_ok herr).1, Function.update_self]
  · have herr : (unpackZipFile outDir fs p.1 p.2).2.2 = none := unpackZipFile_err_iff.2 ⟨hheader, h⟩
    refine ⟨?_, herr⟩
    rw [(unpackZipFile_of_ok herr).2 (by rw [hkind]; decide), Function.update_self]

/-- Both functions are all or nothing in their reports, and report no error for the same archives, exactly if the
archive or a header cannot be read, or nothing goes wrong and every entry is a directory or a regular file. -/
theorem unpack_iff (outDir : Path) (fs : Files) (a : ArchiveFaults) (entries : List (Entry × EntryFaults)) :
    (AllOrNothing outDir (unpackTarGzFile outDir) entries (unpackTarGz outDir fs a entries) ∧
      AllOrNothing outDir (unpackZipFile outDir) entries (unpackZip outDir fs a entries) ∧
      ((unpackTarGz outDir fs a entries).2.2 = none ↔ (unpackZip outDir fs a entries).2.2 = none)) ↔
    Harmless a entries := by
  have htar := unpackTarGz_err_iff outDir fs a entries
  have hzip := unpackZip_err_iff outDir fs a entries
  constructor
  · rintro ⟨_, hzipAll, hsame⟩
    by_cases ha : a.fails
    · exact .inl ha
    · by_cases hheader : ∃ p ∈ entries, p.2.header = true
      · exact .inr (.inl hheader)
      · have hheaders : ∀ p ∈ entries, p.2.header = false := by
          intro p hp
          exact Bool.eq_false_iff.2 fun h => hheader ⟨p, hp, h⟩
        -- Nothing is reported for the tar file, so nothing is for the zip file.
        have hnone := hsame.1 (htar.2 ⟨ha, hheaders⟩)
        have hok := (hzip.1 hnone).2
        have hnames := (hzipAll hnone).2
        rw [unpackZip_files ha, zipLoop_files hok, List.nil_append] at hnames
        have hother := no_other_of_names hnames
        exact .inr (.inr fun p hp => ⟨(hok p hp).2, hother p hp⟩)
  · intro hharmless
    have hfailed : ¬ (¬ a.fails ∧ ∀ p ∈ entries, p.2.header = false) ∨
        ((∀ p ∈ entries, ¬ Fails p ∧ p.1.kind ≠ .other) ∧ ¬ a.fails ∧ ∀ p ∈ entries, p.2.header = false) := by
      by_cases h : ¬ a.fails ∧ ∀ p ∈ entries, p.2.header = false
      · rcases hharmless with ha | ⟨p, hp, hheader⟩ | hok
        · exact absurd ha h.1
        · rw [h.2 p hp] at hheader
          cases hheader
        · exact .inr ⟨hok, h⟩
      · exact .inl h
    rcases hfailed with hbad | ⟨hok, ha, hheaders⟩
    · have htarErr : (unpackTarGz outDir fs a entries).2.2 ≠ none := fun hnone => hbad (htar.1 hnone)
      have hzipErr : (unpackZip outDir fs a entries).2.2 ≠ none := by
        intro hnone
        have hall := hzip.1 hnone
        exact hbad ⟨hall.1, fun p hp => (hall.2 p hp).1⟩
      exact ⟨fun hnone => absurd hnone htarErr, fun hnone => absurd hnone hzipErr, iff_of_false htarErr hzipErr⟩
    · have hzipOk : ∀ p ∈ entries, p.2.header = false ∧ ¬ Fails p := fun p hp => ⟨hheaders p hp, (hok p hp).1⟩
      have hwritten : ∀ p ∈ entries, p.1.kind = .regular →
          Written outDir (unpackTarGzFile outDir) p ∧ Written outDir (unpackZipFile outDir) p :=
        fun p hp hkind => written_of_not_fails hkind (hheaders p hp) (hok p hp).1
      refine ⟨fun _ => ⟨fun p hp hkind => (hwritten p hp hkind).1, ?_⟩,
        fun _ => ⟨fun p hp hkind => (hwritten p hp hkind).2, ?_⟩,
        iff_of_true (htar.2 ⟨ha, hheaders⟩) (hzip.2 ⟨ha, hzipOk⟩)⟩
      · rw [unpackTarGz_files ha, tarLoop_files hheaders fun p hp _ => (hok p hp).1]
        rfl
      · rw [unpackZip_files ha, zipLoop_files hzipOk, List.nil_append]
        exact names_of_no_other fun p hp => (hok p hp).2

def noFaults : EntryFaults := ⟨false, none, none, none, false, false⟩

def noArchiveFaults : ArchiveFaults := ⟨false, false, false, false⟩

/-- A package whose first file is written only in part. -/
def brokenPackage : List (Entry × EntryFaults) :=
  [(⟨"AdGuardHome/AdGuardHome".toList, .regular, [1, 2, 3]⟩, { noFaults with copy := some 1 }),
    (⟨"AdGuardHome/README.md".toList, .regular, [4]⟩, noFaults)]

/-- A package with a symbolic link. -/
def linkPackage : List (Entry × EntryFaults) :=
  [(⟨"AdGuardHome/LICENSE.txt".toList, .regular, [1]⟩, noFaults),
    (⟨"AdGuardHome/latest".toList, .other, [2]⟩, noFaults)]

/-- No error is reported for the half-written file of a tar file, and one is for that of a zip file; and the list of a
zip file has the link, too. -/
theorem unpack_swallows :
    (unpackTarGz "upd".toList (fun _ => none) noArchiveFaults brokenPackage).2 = (["README.md".toList], none) ∧
    (unpackTarGz "upd".toList (fun _ => none) noArchiveFaults brokenPackage).1 "upd/AdGuardHome".toList = some [1] ∧
    regularNames brokenPackage = ["AdGuardHome".toList, "README.md".toList] ∧
    (unpackZip "upd".toList (fun _ => none) noArchiveFaults brokenPackage).2 = ([], some (.entry .copy)) ∧
    (unpackZip "upd".toList (fun _ => none) noArchiveFaults linkPackage).2
      = (["LICENSE.txt".toList, "latest".toList], none) ∧
    regularNames linkPackage = ["LICENSE.txt".toList] := by
  decide +kernel

end AdGuardHome.Updater
