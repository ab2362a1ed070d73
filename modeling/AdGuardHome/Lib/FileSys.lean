import Mathlib.Logic.Function.Basic
import AdGuardHome.Lib.Filepath

/-!
# Files by their paths

The contents of files by the paths of the files, and the operations on them, each with what goes wrong in it.  An
operation that fails leaves the files as they are, but a write may leave the beginning of the data, and what is removed
may be removed in part.  Every operation only changes what is at its own paths.
-/

namespace AdGuardHome.Lib.FileSys

abbrev Path := List Char

abbrev Bytes := List UInt8

/-- The contents of the files, `none` where there is no file. -/
abbrev Files := Path → Option Bytes

/-- An error of an operation, as far as it is told apart. -/
inductive OpError
  | notExist
  | exist
  | other
deriving DecidableEq, Repr

/-- What goes wrong in a write: the file cannot be opened, or only so many bytes are written. -/
inductive WriteFault
  | openFile (err : OpError)
  | write (n : ℕ)
deriving DecidableEq, Repr

variable (fs : Files)

/-- `os.ReadFile` -/
def readFile (path : Path) : Option OpError → Except OpError Bytes
  | some err => .error err
  | none =>
    match fs path with
    | none => .error .notExist
    | some data => .ok data

/-- `os.WriteFile` -/
def writeFile (path : Path) (data : Bytes) : Option WriteFault → Files × Option OpError
  | none => (Function.update fs path (some data), none)
  | some (.openFile err) => (fs, some err)
  | some (.write n) => (Function.update fs path (some (data.take n)), some .other)

/-- A file is read and its contents are written to another path. -/
def copyFile (src dst : Path) (read : Option OpError) (write : Option WriteFault) : Files × Option OpError :=
  match readFile fs src read with
  | .error err => (fs, some err)
  | .ok data => writeFile fs dst data write

/-- `os.Rename` -/
def rename (src dst : Path) : Option OpError → Files × Option OpError
  | some err => (fs, some err)
  | none =>
    match fs src with
    | none => (fs, some .notExist)
    | some data => (Function.update (Function.update fs src none) dst (some data), none)

/-- The path is the directory or in it. -/
def within (dir path : Path) : Bool := path == dir || (dir ++ ['/']).isPrefixOf path

/-- `os.RemoveAll`, which may leave some of the files. -/
def removeAll (dir : Path) (left : Path → Bool) : Files :=
  fun path => if within dir path && !left path then none else fs path

variable {fs} {path src dst : Path}

/-! ## What is unchanged -/

theorem writeFile_of_ne {p : Path} (h : p ≠ path) (data : Bytes) (write : Option WriteFault) :
    (writeFile fs path data write).1 p = fs p := by
  cases write with
  | none => exact Function.update_of_ne h _ _
  | some fault =>
    cases fault with
    | openFile err => rfl
    | write n => exact Function.update_of_ne h _ _

theorem copyFile_of_ne {p : Path} (h : p ≠ dst) (read : Option OpError) (write : Option WriteFault) :
    (copyFile fs src dst read write).1 p = fs p := by
  unfold copyFile
  cases readFile fs src read with
  | error err => rfl
  | ok data => exact writeFile_of_ne h data write

theorem removeAll_of_not_within {dir p : Path} (h : within dir p = false) (left : Path → Bool) :
    removeAll fs dir left p = fs p := by
  simp [removeAll, h]

theorem rename_of_error {err : OpError} {fault : Option OpError} (h : (rename fs src dst fault).2 = some err) :
    (rename fs src dst fault).1 = fs := by
  cases fault with
  | some e => rfl
  | none =>
    unfold rename at h ⊢
    cases hsrc : fs src with
    | none => rfl
    | some data =>
      simp only [hsrc] at h
      cases h

theorem rename_of_ne {p : Path} (hsrc : p ≠ src) (hdst : p ≠ dst) (fault : Option OpError) :
    (rename fs src dst fault).1 p = fs p := by
  cases fault with
  | some err => rfl
  | none =>
    unfold rename
    cases fs src with
    | none => rfl
    | some data => exact (Function.update_of_ne hdst _ _).trans (Function.update_of_ne hsrc _ _)

/-- A file that is moved is at its new path and no longer at the old one. -/
theorem rename_of_ok {fault : Option OpError} (h : (rename fs src dst fault).2 = none) :
    ∃ data, fs src = some data ∧
      (rename fs src dst fault).1 = Function.update (Function.update fs src none) dst (some data) := by
  cases fault with
  | some e => cases h
  | none =>
    unfold rename at h ⊢
    cases hsrc : fs src with
    | none =>
      simp only [hsrc] at h
      cases h
    | some data => exact ⟨data, rfl, rfl⟩

end AdGuardHome.Lib.FileSys
