import AdGuardHome.Updater.Update

/-!
# What an update leaves at the path of the executable

Every step before the move of the current executable leaves the files at the paths of the executables alone, as long as
these are apart from what an update writes.  After that move, an update is safe exactly if the new executable gets to
its place.
-/

namespace AdGuardHome.Updater

open AdGuardHome.Lib AdGuardHome.Lib.FileSys

/-! ## Steps that leave a file alone -/

section Frame

variable {outDir p : Path}

theorem createFile_of_ne {fs : Files} {outName name : Path} (h : p ≠ outName) (e : Entry) (x : EntryFaults) :
    (createFile fs outName name e x).1 p = fs p := by
  unfold createFile
  cases x.openFile with
  | some err => rfl
  | none =>
    cases x.copy with
    | some n => exact Function.update_of_ne h _ _
    | none => exact Function.update_of_ne h _ _

theorem createDir_files (fs : Files) (name : Path) (x : EntryFaults) : (createDir fs name x).1 = fs := by
  unfold createDir
  split
  · rfl
  · split <;> rfl

theorem unpackTarGzFile_of_ne {fs : Files} {e : Entry} (h : p ≠ Filepath.join [outDir, Filepath.base e.name])
    (x : EntryFaults) : (unpackTarGzFile outDir fs e x).1 p = fs p := by
  simp only [unpackTarGzFile, if_neg (Filepath.base_ne_nil e.name)]
  cases e.kind with
  | dir => rw [createDir_files]
  | other => rfl
  | regular => exact createFile_of_ne h e x

theorem unpackZipFile_of_ne {fs : Files} {e : Entry} (h : p ≠ Filepath.join [outDir, Filepath.base e.name])
    (x : EntryFaults) : (unpackZipFile outDir fs e x).1 p = fs p := by
  have hopen : (unpackOpenZipFile outDir fs e x).1 p = fs p := by
    simp only [unpackOpenZipFile, if_neg (Filepath.base_ne_nil e.name)]
    cases e.kind with
    | dir => rw [createDir_files]
    | regular | other => exact createFile_of_ne h e x
  unfold unpackZipFile
  split
  · rfl
  · generalize unpackOpenZipFile outDir fs e x = r at hopen
    obtain ⟨fs', name, err⟩ := r
    cases err <;> exact hopen

/-- The name of an entry is its base name, if there is one. -/
theorem unpackTarGzFile_name (fs : Files) (e : Entry) (x : EntryFaults)
    (h : (unpackTarGzFile outDir fs e x).2.1 ≠ []) : (unpackTarGzFile outDir fs e x).2.1 = Filepath.base e.name := by
  by_cases hkind : e.kind = .regular
  · rw [unpackTarGzFile_regular hkind] at h ⊢
    unfold createFile at h ⊢
    cases hopen : x.openFile with
    | some err => simp [hopen] at h
    | none =>
      cases hcopy : x.copy with
      | some n => simp [hopen, hcopy] at h
      | none => rfl
  · exact absurd (unpackTarGzFile_name_of_not_regular hkind) h

theorem tarLoop_frame {entries : List (Entry × EntryFaults)}
    (h : ∀ q ∈ entries, p ≠ Filepath.join [outDir, Filepath.base q.1.name]) :
    ∀ (fs : Files) (files : List Path), (tarLoop outDir fs entries files).1 p = fs p := by
  induction entries with
  | nil => exact fun _ _ => rfl
  | cons q entries ih =>
    intro fs files
    obtain ⟨e, x⟩ := q
    obtain ⟨hfirst, hrest⟩ := List.forall_mem_cons.1 h
    unfold tarLoop
    split
    · rfl
    · exact (ih hrest _ _).trans (unpackTarGzFile_of_ne hfirst x)

theorem zipLoop_frame {entries : List (Entry × EntryFaults)}
    (h : ∀ q ∈ entries, p ≠ Filepath.join [outDir, Filepath.base q.1.name]) :
    ∀ (fs : Files) (files : List Path), (zipLoop outDir fs entries files).1 p = fs p := by
  induction entries with
  | nil => exact fun _ _ => rfl
  | cons q entries ih =>
    intro fs files
    obtain ⟨e, x⟩ := q
    obtain ⟨hfirst, hrest⟩ := List.forall_mem_cons.1 h
    have hstep : (unpackZipFile outDir fs e x).1 p = fs p := unpackZipFile_of_ne hfirst x
    unfold zipLoop
    generalize unpackZipFile outDir fs e x = r at hstep
    obtain ⟨fs', name, err⟩ := r
    cases err with
    | some err => exact hstep
    | none => exact (ih hrest _ _).trans hstep

/-- The names that are listed are base names of entries. -/
def Listed (entries : List (Entry × EntryFaults)) (files : List Path) : Prop :=
  ∀ f ∈ files, ∃ q ∈ entries, f = Filepath.base q.1.name

theorem Listed.concat {all : List (Entry × EntryFaults)} {files : List Path} (hfiles : Listed all files)
    {e : Entry} {x : EntryFaults} (he : (e, x) ∈ all) {name : Path} (hname : name ≠ [] → name = Filepath.base e.name) :
    Listed all (if name ≠ [] then files ++ [name] else files) := by
  split
  · rename_i hne
    intro f hf
    rcases List.mem_append.1 hf with hf | hf
    · exact hfiles f hf
    · rw [List.mem_singleton.1 hf, hname hne]
      exact ⟨(e, x), he, rfl⟩
  · exact hfiles

theorem tarLoop_listed {all : List (Entry × EntryFaults)} (outDir : Path) (entries : List (Entry × EntryFaults)) :
    entries ⊆ all → ∀ (fs : Files) (files : List Path), Listed all files →
      Listed all (tarLoop outDir fs entries files).2.1 := by
  induction entries with
  | nil => exact fun _ _ _ h => h
  | cons q entries ih =>
    intro hall fs files hfiles
    obtain ⟨e, x⟩ := q
    obtain ⟨he, hrest⟩ := List.cons_subset.1 hall
    unfold tarLoop
    split
    · exact hfiles
    · exact ih hrest _ _ (hfiles.concat he (unpackTarGzFile_name fs e x))

theorem zipLoop_listed {all : List (Entry × EntryFaults)} (outDir : Path) (entries : List (Entry × EntryFaults)) :
    entries ⊆ all → ∀ (fs : Files) (files : List Path), Listed all files →
      Listed all (zipLoop outDir fs entries files).2.1 := by
  induction entries with
  | nil => exact fun _ _ _ h => h
  | cons q entries ih =>
    intro hall fs files hfiles
    obtain ⟨e, x⟩ := q
    obtain ⟨he, hrest⟩ := List.cons_subset.1 hall
    have hok : (unpackZipFile outDir fs e x).2.2 = none → (unpackZipFile outDir fs e x).2.1 ≠ [] →
        (unpackZipFile outDir fs e x).2.1 = Filepath.base e.name := by
      intro herr hne
      have hname := (unpackZipFile_of_ok herr).1
      split at hname
      · exact absurd hname hne
      · exact hname
    unfold zipLoop
    generalize unpackZipFile outDir fs e x = r at hok
    obtain ⟨fs', name, err⟩ := r
    cases err with
    | some err => exact hfiles
    | none => exact ih hrest _ _ (hfiles.concat he (hok rfl))

theorem copySupportingFiles_frame (faults : ℕ → CopyFaults) (srcdir : Path) {dstdir : Path} {files : List Path}
    (h : ∀ f ∈ files, skipped (Filepath.splitFile f) = false → p ≠ Filepath.join [dstdir, Filepath.splitFile f]) :
    ∀ (k : ℕ) (fs : Files), (copySupportingFiles faults srcdir dstdir k fs files).1 p = fs p := by
  induction files with
  | nil => exact fun _ _ => rfl
  | cons f files ih =>
    intro k fs
    obtain ⟨hfirst, hrest⟩ := List.forall_mem_cons.1 h
    unfold copySupportingFiles
    simp only
    split
    · exact ih hrest _ _
    · rename_i hskip
      have hcopy : (copyFile fs (Filepath.join [srcdir, Filepath.splitFile f])
          (Filepath.join [dstdir, Filepath.splitFile f]) (faults k).read (faults k).write).1 p = fs p :=
        copyFile_of_ne (hfirst (by simpa using hskip)) _ _
      generalize copyFile fs (Filepath.join [srcdir, Filepath.splitFile f])
        (Filepath.join [dstdir, Filepath.splitFile f]) (faults k).read (faults k).write = r at hcopy
      obtain ⟨fs', err⟩ := r
      cases err with
      | none => exact (ih hrest _ _).trans hcopy
      | some err =>
        cases err with
        | notExist => exact (ih hrest _ _).trans hcopy
        | exist => exact hcopy
        | other => exact hcopy

end Frame

/-! ## The steps before the move of the new executable -/

variable (u : Updater) (env : UpdateEnv)

/-- `Update` after its preparation and up to the move of the new executable. -/
def upToMove (firstRun : Bool) (fs : Files) : Files × Option UpdateError :=
  match u.downloadPackageFile env fs with
  | (fs, some err) => (fs, some err)
  | (fs, none) =>
    match u.unpack env fs with
    | (fs, _, some err) => (fs, some err)
    | (fs, unpackedFiles, none) =>
      match if firstRun then (fs, none) else u.check env fs with
      | (fs, some err) => (fs, some err)
      | (fs, none) =>
        match u.backup env firstRun unpackedFiles fs with
        | (fs, some err) => (fs, some err)
        | (fs, none) => u.moveCurrent env unpackedFiles fs

/-- The files after the package is unpacked. -/
def unpacked (fs : Files) : Files := (u.unpack env (u.downloadPackageFile env fs).1).1

theorem update_eq (firstRun : Bool) (fs : Files) :
    u.update env firstRun fs =
      match u.prepare env fs with
      | some err => (fs, some err)
      | none =>
        match u.upToMove env firstRun fs with
        | (fs, some err) => (u.clean env fs, some err)
        | (fs, none) => (u.clean env (u.moveNew env fs).1, (u.moveNew env fs).2) := by
  unfold update upToMove
  cases u.prepare env fs with
  | some err => rfl
  | none =>
    simp only
    generalize u.downloadPackageFile env fs = r
    obtain ⟨fs, err⟩ := r
    cases err with
    | some err => rfl
    | none =>
      simp only
      generalize u.unpack env fs = r
      obtain ⟨fs, files, err⟩ := r
      cases err with
      | some err => rfl
      | none =>
        simp only
        generalize (if firstRun then (fs, none) else u.check env fs) = r
        obtain ⟨fs, err⟩ := r
        cases err with
        | some err => rfl
        | none =>
          simp only
          generalize u.backup env firstRun files fs = r
          obtain ⟨fs, err⟩ := r
          cases err with
          | some err => rfl
          | none =>
            simp only [replace]
            generalize u.moveCurrent env files fs = r
            obtain ⟨fs, err⟩ := r
            cases err <;> rfl

/-! ### The steps that are reached -/

/-- The package is downloaded. -/
def Downloads (fs : Files) : Prop := u.prepare env fs = none ∧ (u.downloadPackageFile env fs).2 = none

/-- The names of the files that are unpacked. -/
def unpackedFiles (fs : Files) : List Path := (u.unpack env (u.downloadPackageFile env fs).1).2.1

/-- The package is unpacked. -/
def Unpacks (fs : Files) : Prop := u.Downloads env fs ∧ (u.unpack env (u.downloadPackageFile env fs).1).2.2 = none

/-- The files after the check of the configuration, and its error. -/
def checked (firstRun : Bool) (fs : Files) : Files × Option UpdateError :=
  if firstRun then (u.unpacked env fs, none) else u.check env (u.unpacked env fs)

def Checks (firstRun : Bool) (fs : Files) : Prop := u.Unpacks env fs ∧ (u.checked env firstRun fs).2 = none

/-- The files after the backups, and the error. -/
def backedUp (firstRun : Bool) (fs : Files) : Files × Option UpdateError :=
  u.backup env firstRun (u.unpackedFiles env fs) (u.checked env firstRun fs).1

def BacksUp (firstRun : Bool) (fs : Files) : Prop :=
  u.Checks env firstRun fs ∧ (u.backedUp env firstRun fs).2 = none

variable {u env} in
/-- An update fails in one of its steps, or gets to the move of the current executable. -/
theorem upToMove_cases {fs : Files} (firstRun : Bool) (hprepare : u.prepare env fs = none) :
    (∃ err, u.upToMove env firstRun fs = ((u.downloadPackageFile env fs).1, some err)) ∨
    (u.Downloads env fs ∧ ∃ err, u.upToMove env firstRun fs = (u.unpacked env fs, some err)) ∨
    (u.Unpacks env fs ∧ ∃ err, u.upToMove env firstRun fs = ((u.checked env firstRun fs).1, some err)) ∨
    (u.Checks env firstRun fs ∧ ∃ err, u.upToMove env firstRun fs = ((u.backedUp env firstRun fs).1, some err)) ∨
    (u.BacksUp env firstRun fs ∧ u.upToMove env firstRun fs =
      u.moveCurrent env (u.unpackedFiles env fs) (u.backedUp env firstRun fs).1) := by
  unfold BacksUp Checks Unpacks Downloads backedUp checked unpackedFiles unpacked upToMove
  generalize u.downloadPackageFile env fs = r
  obtain ⟨fs₁, err⟩ := r
  cases err with
  | some err => exact .inl ⟨err, rfl⟩
  | none =>
    dsimp only
    generalize u.unpack env fs₁ = r
    obtain ⟨fs₂, files, err⟩ := r
    cases err with
    | some err => exact .inr (.inl ⟨⟨hprepare, rfl⟩, err, rfl⟩)
    | none =>
      dsimp only
      generalize (if firstRun then (fs₂, none) else u.check env fs₂) = r
      obtain ⟨fs₃, err⟩ := r
      cases err with
      | some err => exact .inr (.inr (.inl ⟨⟨⟨hprepare, rfl⟩, rfl⟩, err, rfl⟩))
      | none =>
        dsimp only
        generalize u.backup env firstRun files fs₃ = r
        obtain ⟨fs₄, err⟩ := r
        cases err with
        | some err => exact .inr (.inr (.inr (.inl ⟨⟨⟨⟨hprepare, rfl⟩, rfl⟩, rfl⟩, err, rfl⟩)))
        | none => exact .inr (.inr (.inr (.inr ⟨⟨⟨⟨⟨hprepare, rfl⟩, rfl⟩, rfl⟩, rfl⟩, rfl⟩)))

/-- The paths of the executables are apart from the paths that an update writes, as far as it gets. -/
structure Apart (firstRun : Bool) (fs : Files) : Prop where
  outside : u.prepare env fs = none → within u.updateDir u.execPath = false
  download : u.prepare env fs = none → ¬ (env.request ∨ env.readBody) → u.execPath ≠ u.packageName
  unpack : u.Downloads env fs → ∀ q ∈ env.entries, u.execPath ≠ Filepath.join [u.updateDir, Filepath.base q.1.name]
  check : u.Unpacks env fs → firstRun = false → ∀ p ∈ [u.execPath, u.updateExeName], p ≠ u.updateConf
  backup : u.Checks env firstRun fs → ∀ p ∈ [u.execPath, u.updateExeName], (firstRun = false → p ≠ u.backupConf) ∧
    ∀ q ∈ env.entries, skipped (Filepath.splitFile (Filepath.base q.1.name)) = false →
      p ≠ Filepath.join [u.backupDir, Filepath.splitFile (Filepath.base q.1.name)]
  replace : u.BacksUp env firstRun fs → ∀ p ∈ [u.execPath, u.updateExeName], p ≠ u.backupExeName ∧
    ∀ q ∈ env.entries, skipped (Filepath.splitFile (Filepath.base q.1.name)) = false →
      p ≠ Filepath.join [u.workDir, Filepath.splitFile (Filepath.base q.1.name)]
  new : u.BacksUp env firstRun fs → u.execPath ≠ u.updateExeName

variable {u env} {fs : Files}

theorem downloadPackageFile_of_ne {p : Path} (h : ¬ (env.request ∨ env.readBody) → p ≠ u.packageName) :
    (u.downloadPackageFile env fs).1 p = fs p := by
  unfold downloadPackageFile
  split
  · rfl
  next hread =>
    have hwrite : (writeFile fs u.packageName env.body env.writePackage).1 p = fs p := writeFile_of_ne (h hread) _ _
    generalize writeFile fs u.packageName env.body env.writePackage = r at hwrite
    obtain ⟨fs', err⟩ := r
    cases err <;> exact hwrite

/-- The files and the names of an archive are as they were, or those of its loop. -/
theorem unpackTarGz_cases (outDir : Path) (fs : Files) (a : ArchiveFaults) (entries : List (Entry × EntryFaults)) :
    ((unpackTarGz outDir fs a entries).1 = fs ∧ (unpackTarGz outDir fs a entries).2.1 = []) ∨
      ((unpackTarGz outDir fs a entries).1 = (tarLoop outDir fs entries []).1 ∧
        (unpackTarGz outDir fs a entries).2.1 = (tarLoop outDir fs entries []).2.1) := by
  unfold unpackTarGz
  split
  · exact .inl ⟨rfl, rfl⟩
  · split
    · exact .inl ⟨rfl, rfl⟩
    · right
      generalize tarLoop outDir fs entries [] = r
      obtain ⟨fs', files, err⟩ := r
      cases err <;> exact ⟨rfl, rfl⟩

theorem unpackZip_cases (outDir : Path) (fs : Files) (a : ArchiveFaults) (entries : List (Entry × EntryFaults)) :
    ((unpackZip outDir fs a entries).1 = fs ∧ (unpackZip outDir fs a entries).2.1 = []) ∨
      ((unpackZip outDir fs a entries).1 = (zipLoop outDir fs entries []).1 ∧
        (unpackZip outDir fs a entries).2.1 = (zipLoop outDir fs entries []).2.1) := by
  unfold unpackZip
  split
  · exact .inl ⟨rfl, rfl⟩
  · split
    · exact .inl ⟨rfl, rfl⟩
    · right
      generalize zipLoop outDir fs entries [] = r
      obtain ⟨fs', files, err⟩ := r
      cases err <;> exact ⟨rfl, rfl⟩

/-- The same of a package of either kind. -/
theorem unpack_cases (u : Updater) (env : UpdateEnv) (fs : Files) :
    ((u.unpack env fs).1 = fs ∧ (u.unpack env fs).2.1 = []) ∨
      ∃ r, (r = tarLoop u.updateDir fs env.entries [] ∨ r = zipLoop u.updateDir fs env.entries []) ∧
        (u.unpack env fs).1 = r.1 ∧ (u.unpack env fs).2.1 = r.2.1 := by
  unfold unpack
  split
  · rcases unpackZip_cases u.updateDir fs env.archive env.entries with hsame | hloop
    · exact .inl hsame
    · exact .inr ⟨_, .inr rfl, hloop⟩
  · split
    · rcases unpackTarGz_cases u.updateDir fs env.archive env.entries with hsame | hloop
      · exact .inl hsame
      · exact .inr ⟨_, .inl rfl, hloop⟩
    · exact .inl ⟨rfl, rfl⟩

theorem unpack_of_ne {p : Path} (h : ∀ q ∈ env.entries, p ≠ Filepath.join [u.updateDir, Filepath.base q.1.name]) :
    (u.unpack env fs).1 p = fs p := by
  rcases u.unpack_cases env fs with ⟨hsame, -⟩ | ⟨r, rfl | rfl, hfiles, -⟩
  · rw [hsame]
  · rw [hfiles]
    exact tarLoop_frame h fs []
  · rw [hfiles]
    exact zipLoop_frame h fs []

theorem listed_unpack (fs : Files) : Listed env.entries (u.unpack env fs).2.1 := by
  have hnil : Listed env.entries [] := fun f hf => absurd hf List.not_mem_nil
  have hall : env.entries ⊆ env.entries := List.Subset.refl _
  rcases u.unpack_cases env fs with ⟨-, hnone⟩ | ⟨r, rfl | rfl, -, hnames⟩
  · rw [hnone]
    exact hnil
  · rw [hnames]
    exact tarLoop_listed u.updateDir env.entries hall fs [] hnil
  · rw [hnames]
    exact zipLoop_listed u.updateDir env.entries hall fs [] hnil

theorem check_of_ne {p : Path} (h : p ≠ u.updateConf) : (u.check env fs).1 p = fs p := by
  have hcopy : (copyFile fs u.confName u.updateConf env.checkConf.read env.checkConf.write).1 p = fs p :=
    copyFile_of_ne h _ _
  unfold check
  generalize copyFile fs u.confName u.updateConf env.checkConf.read env.checkConf.write = r at hcopy
  obtain ⟨fs', err⟩ := r
  cases err <;> exact hcopy

theorem backup_of_ne {p : Path} {files : List Path} {firstRun : Bool} (hconf : firstRun = false → p ≠ u.backupConf)
    (hfiles : ∀ f ∈ files, skipped (Filepath.splitFile f) = false →
      p ≠ Filepath.join [u.backupDir, Filepath.splitFile f]) :
    (u.backup env firstRun files fs).1 p = fs p := by
  have hcopy : (if firstRun then (fs, none)
      else copyFile fs u.confName u.backupConf env.backupConf.read env.backupConf.write).1 p = fs p := by
    cases firstRun with
    | true => rfl
    | false => exact copyFile_of_ne (hconf rfl) _ _
  unfold backup
  generalize (if firstRun then (fs, none)
    else copyFile fs u.confName u.backupConf env.backupConf.read env.backupConf.write) = r at hcopy
  obtain ⟨fs', err⟩ := r
  cases err with
  | some err => exact hcopy
  | none =>
    have hsupport := copySupportingFiles_frame env.backupFile u.workDir hfiles 0 fs'
    simp only
    generalize copySupportingFiles env.backupFile u.workDir u.backupDir 0 fs' files = r at hsupport
    obtain ⟨fs'', err⟩ := r
    cases err <;> exact hsupport.trans hcopy

/-- The current executable is left alone by an error, and moved to the backups otherwise. -/
theorem moveCurrent_spec (env : UpdateEnv) (fs : Files) {files : List Path} (hbackup : u.execPath ≠ u.backupExeName)
    (hfiles : ∀ f ∈ files, skipped (Filepath.splitFile f) = false →
      u.execPath ≠ Filepath.join [u.workDir, Filepath.splitFile f]) :
    ((u.moveCurrent env files fs).2 ≠ none → (u.moveCurrent env files fs).1 u.execPath = fs u.execPath) ∧
      ((u.moveCurrent env files fs).2 = none →
        fs u.execPath ≠ none ∧ (u.moveCurrent env files fs).1 u.execPath = none) := by
  have hsupport := copySupportingFiles_frame env.replaceFile u.updateDir hfiles 0 fs
  unfold moveCurrent
  generalize copySupportingFiles env.replaceFile u.updateDir u.workDir 0 fs files = r at hsupport
  obtain ⟨fs', err⟩ := r
  cases err with
  | some err => exact ⟨fun _ => hsupport, fun h => nomatch h⟩
  | none =>
    have herror : ∀ err, (rename fs' u.execPath u.backupExeName env.moveCurrent).2 = some err →
        (rename fs' u.execPath u.backupExeName env.moveCurrent).1 = fs' := fun _ h => rename_of_error h
    have hok := @rename_of_ok fs' u.execPath u.backupExeName env.moveCurrent
    simp only
    generalize rename fs' u.execPath u.backupExeName env.moveCurrent = r at herror hok
    obtain ⟨fs'', err⟩ := r
    cases err with
    | some err => exact ⟨fun _ => (congrFun (herror err rfl) _).trans hsupport, fun h => nomatch h⟩
    | none =>
      obtain ⟨old, hold, hfs⟩ := hok rfl
      refine ⟨fun h => absurd rfl h, fun _ => ⟨?_, ?_⟩⟩
      · rw [← show fs' u.execPath = fs u.execPath from hsupport, hold]
        exact Option.some_ne_none old
      · show fs'' u.execPath = none
        rw [show fs'' = _ from hfs, Function.update_of_ne hbackup, Function.update_self]

/-- A file that is not the current executable or written by the copies is left alone. -/
theorem moveCurrent_of_ne {p : Path} {files : List Path} (hne : p ≠ u.execPath) (hbackup : p ≠ u.backupExeName)
    (hfiles : ∀ f ∈ files, skipped (Filepath.splitFile f) = false →
      p ≠ Filepath.join [u.workDir, Filepath.splitFile f]) :
    (u.moveCurrent env files fs).1 p = fs p := by
  have hsupport := copySupportingFiles_frame env.replaceFile u.updateDir hfiles 0 fs
  unfold moveCurrent
  generalize copySupportingFiles env.replaceFile u.updateDir u.workDir 0 fs files = r at hsupport
  obtain ⟨fs', err⟩ := r
  cases err with
  | some err => exact hsupport
  | none =>
    have hrename : (rename fs' u.execPath u.backupExeName env.moveCurrent).1 p = fs' p :=
      rename_of_ne hne hbackup _
    simp only
    generalize rename fs' u.execPath u.backupExeName env.moveCurrent = r at hrename
    obtain ⟨fs'', err⟩ := r
    cases err <;> exact hrename.trans hsupport

section Steps

variable {firstRun : Bool} {p : Path}

theorem Apart.downloaded_eq (h : u.Apart env firstRun fs) (hprepare : u.prepare env fs = none) :
    (u.downloadPackageFile env fs).1 u.execPath = fs u.execPath := downloadPackageFile_of_ne (h.download hprepare)

theorem Apart.unpacked_eq (h : u.Apart env firstRun fs) (hreached : u.Downloads env fs) :
    u.unpacked env fs u.execPath = fs u.execPath :=
  (unpack_of_ne (h.unpack hreached)).trans (h.downloaded_eq hreached.1)

theorem Apart.checked_eq (h : u.Apart env firstRun fs) (hreached : u.Unpacks env fs)
    (hp : p ∈ [u.execPath, u.updateExeName]) : (u.checked env firstRun fs).1 p = u.unpacked env fs p := by
  unfold checked
  cases hfirst : firstRun with
  | true => rfl
  | false => exact check_of_ne (h.check hreached hfirst p hp)

theorem Apart.backedUp_eq (h : u.Apart env firstRun fs) (hreached : u.Checks env firstRun fs)
    (hp : p ∈ [u.execPath, u.updateExeName]) : (u.backedUp env firstRun fs).1 p = u.unpacked env fs p := by
  obtain ⟨hconf, hsupporting⟩ := h.backup hreached p hp
  refine (backup_of_ne hconf fun f hf hskip => ?_).trans (h.checked_eq hreached.1 hp)
  obtain ⟨q, hq, rfl⟩ := listed_unpack _ f hf
  exact hsupporting q hq hskip

end Steps

/-- An update that fails before the move of the new executable leaves the current one alone.  One that gets there has
moved the current one away, and the new one is as it was unpacked. -/
theorem upToMove_spec (env : UpdateEnv) (fs : Files) {firstRun : Bool} (h : u.Apart env firstRun fs)
    (hprepare : u.prepare env fs = none) :
    ((u.upToMove env firstRun fs).2 ≠ none → (u.upToMove env firstRun fs).1 u.execPath = fs u.execPath) ∧
      ((u.upToMove env firstRun fs).2 = none →
        fs u.execPath ≠ none ∧ (u.upToMove env firstRun fs).1 u.execPath = none ∧
          (u.upToMove env firstRun fs).1 u.updateExeName = u.unpacked env fs u.updateExeName) := by
  have hexec : u.execPath ∈ [u.execPath, u.updateExeName] := List.mem_cons_self
  have hnew : u.updateExeName ∈ [u.execPath, u.updateExeName] := List.mem_cons_of_mem _ List.mem_cons_self
  rcases upToMove_cases firstRun hprepare with ⟨err, hres⟩ | ⟨hreached, err, hres⟩ | ⟨hreached, err, hres⟩ |
    ⟨hreached, err, hres⟩ | ⟨hreached, hres⟩
  · rw [hres]
    exact ⟨fun _ => h.downloaded_eq hprepare, nofun⟩
  · rw [hres]
    exact ⟨fun _ => h.unpacked_eq hreached, nofun⟩
  · rw [hres]
    exact ⟨fun _ => (h.checked_eq hreached hexec).trans (h.unpacked_eq hreached.1), nofun⟩
  · rw [hres]
    exact ⟨fun _ => (h.backedUp_eq hreached hexec).trans (h.unpacked_eq hreached.1.1), nofun⟩
  · have hold : (u.backedUp env firstRun fs).1 u.execPath = fs u.execPath :=
      (h.backedUp_eq hreached.1 hexec).trans (h.unpacked_eq hreached.1.1.1)
    have hsupporting : ∀ p ∈ [u.execPath, u.updateExeName], ∀ f ∈ u.unpackedFiles env fs,
        skipped (Filepath.splitFile f) = false → p ≠ Filepath.join [u.workDir, Filepath.splitFile f] := by
      intro p hp f hf hskip
      obtain ⟨q, hq, rfl⟩ := listed_unpack _ f hf
      exact (h.replace hreached p hp).2 q hq hskip
    have hmove := moveCurrent_spec env (u.backedUp env firstRun fs).1 (h.replace hreached _ hexec).1
      (hsupporting _ hexec)
    have hkeep := @moveCurrent_of_ne u env (u.backedUp env firstRun fs).1 _ _ (h.new hreached).symm
      (h.replace hreached _ hnew).1 (hsupporting _ hnew)
    rw [hres]
    refine ⟨fun herr => (hmove.1 herr).trans hold, fun herr => ?_⟩
    obtain ⟨hsome, hgone⟩ := hmove.2 herr
    exact ⟨hold ▸ hsome, hgone, hkeep.trans (h.backedUp_eq hreached.1 hnew)⟩

/-! ## Updating -/

/-- The update leaves the current executable alone if it fails, and replaces it by the unpacked one if it does not. -/
def Safe (fs unpackedFiles : Files) (r : Files × Option UpdateError) : Prop :=
  (r.2 ≠ none → r.1 u.execPath = fs u.execPath) ∧
    (r.2 = none → ∃ data, unpackedFiles u.updateExeName = some data ∧ r.1 u.execPath = some data)

/-- The new executable gets to its place.  On Windows a copy that fails may also have written, by chance, all that the
current one had. -/
def NewMoves (env : UpdateEnv) (fs unpackedFiles : Files) : Prop :=
  if u.goos = "windows" then
    ∃ data, unpackedFiles u.updateExeName = some data ∧ env.copyNew.read = none ∧
      (env.copyNew.write = none ∨ ∃ n, env.copyNew.write = some (.write n) ∧ some (data.take n) = fs u.execPath)
  else env.moveNew = none ∧ unpackedFiles u.updateExeName ≠ none

/-- After the current executable was moved, everything depends on the second move. -/
theorem moveNew_iff {s unpackedFiles : Files} (hold : fs u.execPath ≠ none) (hgone : s u.execPath = none)
    (hnew : s u.updateExeName = unpackedFiles u.updateExeName) :
    u.Safe fs unpackedFiles (u.moveNew env s) ↔ u.NewMoves env fs unpackedFiles := by
  have hlost : s u.execPath ≠ fs u.execPath := fun heq => hold (heq.symm.trans hgone)
  have hfailed : ∀ {err}, ¬ u.Safe fs unpackedFiles (s, some err) := fun h => hlost (h.1 (Option.some_ne_none _))
  have hmoved : ∀ {s' : Files} {data}, unpackedFiles u.updateExeName = some data → s' u.execPath = some data →
      u.Safe fs unpackedFiles (s', none) :=
    fun hdata hs' => ⟨fun h => absurd rfl h, fun _ => ⟨_, hdata, hs'⟩⟩
  by_cases hgoos : u.goos = "windows"
  · -- On Windows the new executable is copied.
    simp only [moveNew, NewMoves, if_pos hgoos, copyFile]
    cases hread : env.copyNew.read with
    | some err => exact iff_of_false hfailed fun ⟨_, _, hnone, _⟩ => nomatch hnone
    | none =>
      unfold readFile
      rw [hnew]
      cases hdata : unpackedFiles u.updateExeName with
      | none => exact iff_of_false hfailed fun ⟨_, hnone, _⟩ => nomatch hnone
      | some data =>
        cases hwrite : env.copyNew.write with
        | none => exact iff_of_true (hmoved hdata (Function.update_self _ _ _)) ⟨data, rfl, rfl, .inl rfl⟩
        | some fault =>
          cases fault with
          | openFile err =>
            refine iff_of_false hfailed ?_
            rintro ⟨_, _, _, hnone | ⟨n, hnone, _⟩⟩
            · cases hnone
            · cases hnone
          | write n =>
            have hpart : (Function.update s u.execPath (some (data.take n))) u.execPath = some (data.take n) :=
              Function.update_self _ _ _
            constructor
            · intro hsafe
              exact ⟨data, rfl, rfl, .inr ⟨n, rfl, hpart.symm.trans (hsafe.1 (Option.some_ne_none _))⟩⟩
            · rintro ⟨data', hdata', _, hnone | ⟨m, hm, hsame⟩⟩
              · cases hnone
              · cases hdata'
                cases hm
                exact ⟨fun _ => hpart.trans hsame, fun h => nomatch h⟩
  · simp only [moveNew, NewMoves, if_neg hgoos, rename]
    cases hmove : env.moveNew with
    | some err => exact iff_of_false hfailed fun ⟨hnone, _⟩ => nomatch hnone
    | none =>
      rw [hnew]
      cases hdata : unpackedFiles u.updateExeName with
      | none => exact iff_of_false hfailed fun ⟨_, hne⟩ => hne rfl
      | some data =>
        exact iff_of_true (hmoved hdata (Function.update_self _ _ _)) ⟨rfl, Option.some_ne_none _⟩

theorem safe_clean (h : within u.updateDir u.execPath = false) {unpackedFiles s : Files} {err : Option UpdateError} :
    u.Safe fs unpackedFiles (u.clean env s, err) ↔ u.Safe fs unpackedFiles (s, err) := by
  have hclean : u.clean env s u.execPath = s u.execPath := removeAll_of_not_within h _
  simp only [Safe, hclean]

/-- An update is safe exactly if the new executable gets to its place whenever the current one is moved away. -/
theorem update_safe_iff (u : Updater) (env : UpdateEnv) (firstRun : Bool) (fs : Files) (h : u.Apart env firstRun fs) :
    u.Safe fs (u.unpacked env fs) (u.update env firstRun fs) ↔
      (u.prepare env fs = none → (u.upToMove env firstRun fs).2 = none →
        u.NewMoves env fs (u.unpacked env fs)) := by
  rw [update_eq]
  cases hprepare : u.prepare env fs with
  | some err => exact iff_of_true ⟨fun _ => rfl, fun h => nomatch h⟩ fun h => nomatch h
  | none =>
    have houtside := h.outside hprepare
    have hspec := upToMove_spec env fs h hprepare
    simp only [forall_const]
    generalize u.upToMove env firstRun fs = r at hspec
    obtain ⟨s, err⟩ := r
    cases err with
    | some err =>
      refine iff_of_true ((safe_clean houtside).2 ?_) fun h => nomatch h
      exact ⟨fun _ => hspec.1 (Option.some_ne_none _), fun h => nomatch h⟩
    | none =>
      obtain ⟨hold, hgone, hnew⟩ := hspec.2 rfl
      calc u.Safe fs (u.unpacked env fs) (u.clean env (u.moveNew env s).1, (u.moveNew env s).2)
        _ ↔ u.Safe fs (u.unpacked env fs) (u.moveNew env s) := safe_clean houtside
        _ ↔ u.NewMoves env fs (u.unpacked env fs) := moveNew_iff hold hgone hnew
        _ ↔ ((s, (none : Option UpdateError)).2 = none → u.NewMoves env fs (u.unpacked env fs)) :=
          ⟨fun hmoves _ => hmoves, fun hmoves => hmoves rfl⟩

def sampleUpdater : Updater where
  goos := "linux"
  confName := "/opt/agh/AdGuardHome.yaml".toList
  workDir := "/opt/agh".toList
  execPath := "/opt/agh/AdGuardHome".toList
  newVersion := "v0.108.0".toList
  packageURL := "https://static.adguard.com/AdGuardHome_linux_amd64.tar.gz".toList

/-- The program and its configuration are there. -/
def sampleFiles : Files
  | path =>
    if path = "/opt/agh/AdGuardHome".toList then some [1]
    else if path = "/opt/agh/AdGuardHome.yaml".toList then some [2]
    else none

def noCopyFaults : CopyFaults := ⟨none, none⟩

def sampleEnv (moveNew : Option OpError) : UpdateEnv where
  stat := none
  request := false
  readBody := false
  body := [7]
  writePackage := none
  closeBody := false
  archive := noArchiveFaults
  entries :=
    [(⟨"AdGuardHome/AdGuardHome".toList, .regular, [3]⟩, noFaults),
      (⟨"AdGuardHome/README.md".toList, .regular, [4]⟩, noFaults)]
  checkConf := noCopyFaults
  checkRun := false
  backupConf := noCopyFaults
  backupFile := fun _ => noCopyFaults
  replaceFile := fun _ => noCopyFaults
  moveCurrent := none
  moveNew := moveNew
  copyNew := noCopyFaults
  left := fun _ => false

theorem update_safe_iff_sample :
    sampleUpdater.Safe sampleFiles (sampleUpdater.unpacked (sampleEnv none) sampleFiles)
      (sampleUpdater.update (sampleEnv none) false sampleFiles) :=
  (update_safe_iff sampleUpdater (sampleEnv none) false sampleFiles
    ⟨fun _ => by decide +kernel, fun _ _ => by decide +kernel, fun _ => by decide +kernel,
      fun _ _ => by decide +kernel, fun _ => by decide +kernel, fun _ => by decide +kernel,
      fun _ => by decide +kernel⟩).2
    fun _ _ => by
      unfold NewMoves
      rw [if_neg (by decide)]
      exact ⟨rfl, by decide +kernel⟩

/-- If the new executable cannot be moved, the update fails, and there is no executable. -/
theorem update_loses_executable :
    sampleFiles sampleUpdater.execPath = some [1] ∧
    (sampleUpdater.update (sampleEnv (some .other)) false sampleFiles).2 = some .replacing ∧
    (sampleUpdater.update (sampleEnv (some .other)) false sampleFiles).1 sampleUpdater.execPath = none := by
  decide +kernel

end AdGuardHome.Updater
