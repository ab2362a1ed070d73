import AdGuardHome.Updater.Unpack

/-!
# Updating the program (`internal/updater/updater.go`)

An update downloads a package, unpacks it, lets the new executable check the configuration, makes backups, and replaces
the executable: the current one is moved to the backups, and then the new one is moved, or copied on Windows, to its
place.  The update directory is removed in the end.  If the second of these moves fails, nothing moves the old
executable back, and there is none (`update_safe_iff`).
-/

namespace AdGuardHome

open AdGuardHome.Lib AdGuardHome.Lib.FileSys

/-- `Updater`, as far as an update uses it. -/
structure Updater where
  goos : String
  confName : Path
  workDir : Path
  execPath : Path
  newVersion : Path
  packageURL : Path

namespace Updater

/-- What goes wrong with a copy. -/
structure CopyFaults where
  read : Option OpError
  write : Option WriteFault

/-- What an update finds, and what goes wrong in it. -/
structure UpdateEnv where
  stat : Option OpError
  /-- The request cannot be made or has no response. -/
  request : Bool
  readBody : Bool
  body : Bytes
  writePackage : Option WriteFault
  closeBody : Bool
  archive : ArchiveFaults
  /-- The entries that are in the package. -/
  entries : List (Entry × EntryFaults)
  checkConf : CopyFaults
  /-- The new executable does not start or does not accept the configuration. -/
  checkRun : Bool
  backupConf : CopyFaults
  /-- The faults of the copies of supporting files, by their numbers. -/
  backupFile : ℕ → CopyFaults
  replaceFile : ℕ → CopyFaults
  moveCurrent : Option OpError
  moveNew : Option OpError
  copyNew : CopyFaults
  /-- The files that `RemoveAll` leaves. -/
  left : Path → Bool

inductive UpdateError
  | preparing
  | downloading
  | unpacking
  | checking
  | makingBackup
  | replacing
deriving DecidableEq

variable (u : Updater) (env : UpdateEnv)

/-! ## Paths -/

def updateDir : Path := Filepath.join [u.workDir, "agh-update-".toList ++ u.newVersion]

def pkgNameOnly : Path := Filepath.splitFile u.packageURL

def packageName : Path := Filepath.join [u.updateDir, u.pkgNameOnly]

def backupDir : Path := Filepath.join [u.workDir, "agh-backup".toList]

def backupExeName : Path := Filepath.join [u.backupDir, Filepath.base u.execPath]

def updateExeName : Path :=
  Filepath.join [u.updateDir, if u.goos = "windows" then "AdGuardHome.exe".toList else "AdGuardHome".toList]

/-- The copy of the configuration that the new executable checks. -/
def updateConf : Path := Filepath.join [u.updateDir, "AdGuardHome.yaml".toList]

def backupConf : Path := Filepath.join [u.backupDir, "AdGuardHome.yaml".toList]

/-! ## Steps -/

def prepare (fs : Files) : Option UpdateError :=
  if u.pkgNameOnly = [] then some .preparing
  else if env.stat ≠ none ∨ fs u.execPath = none then some .preparing
  else none

def downloadPackageFile (fs : Files) : Files × Option UpdateError :=
  if env.request ∨ env.readBody then (fs, some .downloading)
  else
    match writeFile fs u.packageName env.body env.writePackage with
    | (fs, some _) => (fs, some .downloading)
    | (fs, none) => (fs, if env.closeBody then some .downloading else none)

/-- The files, the names of those that were unpacked, and the error. -/
def unpack (fs : Files) : Files × List Path × Option UpdateError :=
  if ".zip".toList.isSuffixOf u.pkgNameOnly then
    match unpackZip u.updateDir fs env.archive env.entries with
    | (fs, files, err) => (fs, files, err.map fun _ => .unpacking)
  else if ".tar.gz".toList.isSuffixOf u.pkgNameOnly then
    match unpackTarGz u.updateDir fs env.archive env.entries with
    | (fs, files, err) => (fs, files, err.map fun _ => .unpacking)
  else (fs, [], some .unpacking)

def check (fs : Files) : Files × Option UpdateError :=
  match copyFile fs u.confName u.updateConf env.checkConf.read env.checkConf.write with
  | (fs, some _) => (fs, some .checking)
  | (fs, none) => (fs, if env.checkRun ∨ fs u.updateExeName = none then some .checking else none)

/-- The file is one of those that `copySupportingFiles` skips. -/
def skipped (name : Path) : Bool :=
  name = "AdGuardHome".toList || name = "AdGuardHome.exe".toList || name = "AdGuardHome.yaml".toList

/-- `copySupportingFiles`, from the file with a number on. -/
def copySupportingFiles (faults : ℕ → CopyFaults) (srcdir dstdir : Path) :
    ℕ → Files → List Path → Files × Option OpError
  | _, fs, [] => (fs, none)
  | k, fs, f :: files =>
    let name := Filepath.splitFile f
    if skipped name then copySupportingFiles faults srcdir dstdir (k + 1) fs files
    else
      match copyFile fs (Filepath.join [srcdir, name]) (Filepath.join [dstdir, name]) (faults k).read
        (faults k).write with
      | (fs, none) | (fs, some .notExist) => copySupportingFiles faults srcdir dstdir (k + 1) fs files
      | (fs, some err) => (fs, some err)

def backup (firstRun : Bool) (unpackedFiles : List Path) (fs : Files) : Files × Option UpdateError :=
  match if firstRun then (fs, none)
    else copyFile fs u.confName u.backupConf env.backupConf.read env.backupConf.write with
  | (fs, some _) => (fs, some .makingBackup)
  | (fs, none) =>
    match copySupportingFiles env.backupFile u.workDir u.backupDir 0 fs unpackedFiles with
    | (fs, some _) => (fs, some .makingBackup)
    | (fs, none) => (fs, none)

/-- The first part of `replace`, up to the move of the current executable. -/
def moveCurrent (unpackedFiles : List Path) (fs : Files) : Files × Option UpdateError :=
  match copySupportingFiles env.replaceFile u.updateDir u.workDir 0 fs unpackedFiles with
  | (fs, some _) => (fs, some .replacing)
  | (fs, none) =>
    match rename fs u.execPath u.backupExeName env.moveCurrent with
    | (fs, some _) => (fs, some .replacing)
    | (fs, none) => (fs, none)

/-- The second part of `replace`. -/
def moveNew (fs : Files) : Files × Option UpdateError :=
  match if u.goos = "windows" then copyFile fs u.updateExeName u.execPath env.copyNew.read env.copyNew.write
    else rename fs u.updateExeName u.execPath env.moveNew with
  | (fs, some _) => (fs, some .replacing)
  | (fs, none) => (fs, none)

def replace (unpackedFiles : List Path) (fs : Files) : Files × Option UpdateError :=
  match u.moveCurrent env unpackedFiles fs with
  | (fs, some err) => (fs, some err)
  | (fs, none) => u.moveNew env fs

def clean (fs : Files) : Files := removeAll fs u.updateDir env.left

/-- `Update` -/
def update (firstRun : Bool) (fs : Files) : Files × Option UpdateError :=
  match u.prepare env fs with
  | some err => (fs, some err)
  | none =>
    match u.downloadPackageFile env fs with
    | (fs, some err) => (u.clean env fs, some err)
    | (fs, none) =>
      match u.unpack env fs with
      | (fs, _, some err) => (u.clean env fs, some err)
      | (fs, unpackedFiles, none) =>
        match if firstRun then (fs, none) else u.check env fs with
        | (fs, some err) => (u.clean env fs, some err)
        | (fs, none) =>
          match u.backup env firstRun unpackedFiles fs with
          | (fs, some err) => (u.clean env fs, some err)
          | (fs, none) =>
            match u.replace env unpackedFiles fs with
            | (fs, err) => (u.clean env fs, err)

end Updater

end AdGuardHome
