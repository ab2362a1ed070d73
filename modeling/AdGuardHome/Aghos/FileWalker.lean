import AdGuardHome.Lib.Worklist

/-!
# Walking configuration files

A walk passes the regular files that match some patterns to a function, which gives more patterns.  The paths are
handled in the order in which they were found, by a loop over a list that grows while it is gone through.
-/

namespace AdGuardHome.Aghos

open AdGuardHome.Lib AdGuardHome.Lib.Worklist

/-! ## Files and errors -/

/-- The errors of a walk, as they are wrapped. -/
inductive WalkErr
  /-- An error of the file system or of the function. -/
  | base (msg : String)
  /-- `errors.WithDeferred`: the error of the deferred call, with the one that was returned. -/
  | deferred (returned : Option WalkErr) (msg : String)
  /-- `invalid pattern %q: %w` -/
  | invalidPattern (p : String) (msg : String)
  /-- `checking %q: %w` -/
  | checking (filename : String) (err : WalkErr)

/-- The results of `Open`. -/
inductive Opened (File : Type)
  | file (f : File)
  | notExist
  | error (msg : String)

/-- A file system that does not change; its opened files are of any type.  Patterns match paths among finitely many. -/
structure FS (File : Type) where
  paths : List String
  /-- `fs.Glob`, with the message of its error. -/
  glob : String → Except String (List String)
  glob_mem : ∀ p ms, glob p = .ok ms → ∀ m ∈ ms, m ∈ paths
  openFile : String → Opened File
  /-- Whether the file is a directory, by `Stat`. -/
  isDir : File → Except String Bool
  close : File → Option String

/-- The results of the function that a walk calls: the patterns, whether to go on, and the error. -/
structure Checked where
  patterns : List String
  cont : Bool
  err : Option WalkErr

/-- The function that a walk calls for the files. -/
abbrev FileWalker (File : Type) := File → Checked

/-- `errors.WithDeferred` -/
def withDeferred (returned : Option WalkErr) : Option String → Option WalkErr
  | none => returned
  | some msg => some (.deferred returned msg)

variable {File : Type} (fsys : FS File) (fw : FileWalker File)

/-- The file at a path, if it is a regular one. -/
def FS.regular (sourcePath : String) : Option File :=
  match fsys.openFile sourcePath with
  | .file f =>
    match fsys.isDir f with
    | .ok false => some f
    | _ => none
  | _ => none

def checkFile (sourcePath : String) : Checked :=
  match fsys.openFile sourcePath with
  -- The file was removed after it had been matched.
  | .notExist => ⟨[], true, none⟩
  | .error msg => ⟨[], false, some (.base msg)⟩
  | .file f =>
    match fsys.isDir f with
    | .error msg => ⟨[], true, withDeferred (some (.base msg)) (fsys.close f)⟩
    | .ok true => ⟨[], true, withDeferred none (fsys.close f)⟩
    | .ok false => { fw f with err := withDeferred (fw f).err (fsys.close f) }

/-! ## The walk -/

/-- The set of the sources and the sources that were not in it, in the order of the patterns. -/
def handlePatterns (srcSet sub : List String) : List String → Except WalkErr (List String × List String)
  | [] => .ok (srcSet, sub)
  | p :: ps =>
    match fsys.glob p with
    | .error msg => .error (.invalidPattern p msg)
    | .ok ms => handlePatterns (extend srcSet sub ms).1 (extend srcSet sub ms).2 ps

/-- How a walk ends: the paths of the files that were passed to the function, in their order, and the results of
`Walk`. -/
structure Walked where
  passed : List String
  ok : Bool
  err : Option WalkErr

/-- The paths after another file, which is passed if it is a regular one. -/
def pass (passed : List String) (filename : String) : List String :=
  if (fsys.regular filename).isSome then passed ++ [filename] else passed

/-- The loop of `Walk`, with a bound on its turns, and `none` when they do not suffice; `src` is the part of the
sources from the index on. -/
def walkLoop : ℕ → List String → List String → List String → Option Walked
  | 0, _, _, _ => none
  | _ + 1, _, passed, [] => some ⟨passed, false, none⟩
  | turns + 1, srcSet, passed, filename :: src =>
    match checkFile fsys fw filename with
    | ⟨_, _, some err⟩ => some ⟨pass fsys passed filename, false, some (.checking filename err)⟩
    | ⟨_, false, none⟩ => some ⟨pass fsys passed filename, true, none⟩
    | ⟨patterns, true, none⟩ =>
      match handlePatterns fsys srcSet [] patterns with
      | .error err => some ⟨pass fsys passed filename, false, some (.checking filename err)⟩
      | .ok (srcSet, subsrc) => walkLoop turns srcSet (pass fsys passed filename) (src ++ subsrc)

/-- `FileWalker.Walk`, with a bound on the turns of its loop. -/
def walk (turns : ℕ) (initial : List String) : Option Walked :=
  match handlePatterns fsys [] [] initial with
  | .error err => some ⟨[], false, some err⟩
  | .ok (srcSet, src) => walkLoop fsys fw turns srcSet [] src

/-- The walk ends so, for every bound on the turns that is large enough. -/
def Walks (initial : List String) (out : Walked) : Prop :=
  ∃ n, ∀ turns, n ≤ turns → walk fsys fw turns initial = some out

/-! ## What can be reached -/

/-- The paths that match a pattern. -/
def FS.matching (p : String) : List String :=
  match fsys.glob p with
  | .ok ms => ms
  | .error _ => []

/-- The paths that match the patterns which the function gives for the file at a path. -/
def included (path : String) : List String :=
  match fsys.regular path with
  | some f => (fw f).patterns.flatMap fsys.matching
  | none => []

/-- The paths that can be reached from the initial patterns. -/
def Reachable (initial : List String) (path : String) : Prop :=
  Reach (initial.flatMap fsys.matching) (included fsys fw) path

/-- The function never asks to stop, and nothing fails, for the initial patterns and the paths that can be reached. -/
structure Undisturbed (initial : List String) : Prop where
  globs : ∀ p ∈ initial, ∃ ms, fsys.glob p = .ok ms
  file : ∀ path, Reachable fsys fw initial path →
    (checkFile fsys fw path).cont = true ∧ (checkFile fsys fw path).err = none ∧
      ∀ p ∈ (checkFile fsys fw path).patterns, ∃ ms, fsys.glob p = .ok ms

variable {fsys fw} {srcSet sub src passed done patterns initial : List String} {path : String} {turns : ℕ}

/-! ## The parts of a turn -/

theorem handlePatterns_extended {out : List String × List String}
    (h : handlePatterns fsys srcSet sub patterns = .ok out) :
    ∃ new, out.2 = sub ++ new ∧ Extended srcSet (patterns.flatMap fsys.matching) out.1 new := by
  induction patterns generalizing srcSet sub with
  | nil =>
    cases h
    exact ⟨[], by simp, .nil⟩
  | cons p ps ih =>
    unfold handlePatterns at h
    cases hglob : fsys.glob p with
    | error msg =>
      rw [hglob] at h
      cases h
    | ok ms =>
      rw [hglob] at h
      obtain ⟨new, hsub, hext⟩ := extend_extended srcSet sub ms
      obtain ⟨new', hsub', hext'⟩ := ih h
      have hmatching : fsys.matching p = ms := by simp [FS.matching, hglob]
      rw [List.flatMap_cons, hmatching]
      exact ⟨new ++ new', by rw [hsub', hsub, List.append_assoc], hext.append hext'⟩

theorem handlePatterns_ok (srcSet sub : List String) (h : ∀ p ∈ patterns, ∃ ms, fsys.glob p = .ok ms) :
    ∃ out, handlePatterns fsys srcSet sub patterns = .ok out := by
  induction patterns generalizing srcSet sub with
  | nil => exact ⟨_, rfl⟩
  | cons p ps ih =>
    obtain ⟨⟨ms, hms⟩, hps⟩ := List.forall_mem_cons.1 h
    unfold handlePatterns
    rw [hms]
    exact ih _ _ hps

theorem matching_mem (p : String) : ∀ m ∈ fsys.matching p, m ∈ fsys.paths := by
  intro m hm
  unfold FS.matching at hm
  split at hm
  · rename_i ms hglob
    exact fsys.glob_mem p ms hglob m hm
  · cases hm

theorem included_mem : ∀ m ∈ included fsys fw path, m ∈ fsys.paths := by
  intro m hm
  unfold included at hm
  split at hm
  · obtain ⟨p, -, hp⟩ := List.mem_flatMap.1 hm
    exact matching_mem p m hp
  · cases hm

/-- The patterns of a path are those that the function gives for it. -/
theorem checkFile_patterns (path : String) :
    (checkFile fsys fw path).patterns.flatMap fsys.matching = included fsys fw path := by
  unfold checkFile included FS.regular
  cases hopen : fsys.openFile path with
  | notExist => rfl
  | error msg => rfl
  | file f =>
    cases hdir : fsys.isDir f with
    | error msg => simp [hdir]
    | ok dir => cases dir <;> simp [hdir]

/-- The paths among the given ones that are passed to the function. -/
def passedOf (fsys : FS File) (paths : List String) : List String := paths.filter fun path => (fsys.regular path).isSome

theorem passedOf_append_singleton (done : List String) (filename : String) :
    passedOf fsys (done ++ [filename]) = pass fsys (passedOf fsys done) filename := by
  unfold passedOf pass
  rw [List.filter_append]
  by_cases h : (fsys.regular filename).isSome = true <;> simp [h]

/-! ## The loop -/

section Turn

variable {filename : String}

theorem walkLoop_error {err : WalkErr} (h : (checkFile fsys fw filename).err = some err) :
    walkLoop fsys fw (turns + 1) srcSet passed (filename :: src) =
      some ⟨pass fsys passed filename, false, some (.checking filename err)⟩ := by
  rcases hcheck : checkFile fsys fw filename with ⟨patterns, cont, err'⟩
  rw [hcheck] at h
  cases h
  simp [walkLoop, hcheck]

theorem walkLoop_stop (herr : (checkFile fsys fw filename).err = none)
    (hcont : (checkFile fsys fw filename).cont = false) :
    walkLoop fsys fw (turns + 1) srcSet passed (filename :: src) =
      some ⟨pass fsys passed filename, true, none⟩ := by
  rcases hcheck : checkFile fsys fw filename with ⟨patterns, cont, err⟩
  rw [hcheck] at herr hcont
  cases herr
  cases hcont
  simp [walkLoop, hcheck]

theorem walkLoop_next (herr : (checkFile fsys fw filename).err = none)
    (hcont : (checkFile fsys fw filename).cont = true) :
    walkLoop fsys fw (turns + 1) srcSet passed (filename :: src) =
      match handlePatterns fsys srcSet [] (checkFile fsys fw filename).patterns with
      | .error err => some ⟨pass fsys passed filename, false, some (.checking filename err)⟩
      | .ok out => walkLoop fsys fw turns out.1 (pass fsys passed filename) (src ++ out.2) := by
  rcases hcheck : checkFile fsys fw filename with ⟨patterns, cont, err⟩
  rw [hcheck] at herr hcont
  cases herr
  cases hcont
  simp only [walkLoop, hcheck]
  cases handlePatterns fsys srcSet [] patterns <;> rfl

/-- The sources after the patterns of a file. -/
theorem handled {out : List String × List String}
    (h : handlePatterns fsys srcSet [] (checkFile fsys fw filename).patterns = .ok out) :
    Extended srcSet (included fsys fw filename) out.1 out.2 := by
  obtain ⟨new, hsub, hext⟩ := handlePatterns_extended h
  rw [checkFile_patterns] at hext
  rwa [hsub, List.nil_append]

end Turn

/-- The loop ends in as many turns as there are paths on its list or not seen yet, and one more. -/
theorem walkLoop_terminates (hturns : src.length + unseenCount fsys.paths srcSet < turns) :
    ∃ out, ∀ more, walkLoop fsys fw (turns + more) srcSet passed src = some out := by
  induction turns generalizing srcSet passed src with
  | zero => omega
  | succ turns ih =>
    simp only [Nat.succ_add]
    cases src with
    | nil => exact ⟨_, fun _ => rfl⟩
    | cons filename src =>
      cases herr : (checkFile fsys fw filename).err with
      | some err => exact ⟨_, fun _ => walkLoop_error herr⟩
      | none =>
        cases hcont : (checkFile fsys fw filename).cont with
        | false => exact ⟨_, fun _ => walkLoop_stop herr hcont⟩
        | true =>
          simp only [walkLoop_next herr hcont]
          cases hhandle : handlePatterns fsys srcSet [] (checkFile fsys fw filename).patterns with
          | error err => exact ⟨_, fun _ => rfl⟩
          | ok out =>
            have hext := handled hhandle
            have hle := hext.length_add_unseenCount fun a ha => included_mem a (hext.subset a ha)
            refine ih ?_
            rw [List.length_append]
            rw [List.length_cons] at hturns
            omega

/-- What is passed by the loop. -/
theorem walkLoop_passed {out : Walked}
    (hwalk : Walking (initial.flatMap fsys.matching) (included fsys fw) srcSet done src)
    (h : walkLoop fsys fw turns srcSet (passedOf fsys done) src = some out) :
    ∃ paths, out.passed = passedOf fsys paths ∧ paths.Nodup ∧ (∀ path ∈ paths, Reachable fsys fw initial path) ∧
      (out.ok = false → out.err = none → ∀ path, Reachable fsys fw initial path → path ∈ paths) := by
  induction turns generalizing srcSet done src with
  | zero => cases h
  | succ turns ih =>
    cases src with
    | nil =>
      cases h
      have hnodup := hwalk.nodup
      rw [List.append_nil] at hnodup
      exact ⟨done, rfl, hnodup, fun path hpath => hwalk.reach path ((hwalk.mem path).2 (by simpa using hpath)),
        fun _ _ path hpath => hwalk.finish hpath⟩
    | cons filename src =>
      obtain ⟨hnodup, hreach⟩ := hwalk.first
      cases herr : (checkFile fsys fw filename).err with
      | some err =>
        rw [walkLoop_error herr, ← passedOf_append_singleton] at h
        cases h
        exact ⟨_, rfl, hnodup, hreach, fun _ hnone => by cases hnone⟩
      | none =>
        cases hcont : (checkFile fsys fw filename).cont with
        | false =>
          rw [walkLoop_stop herr hcont, ← passedOf_append_singleton] at h
          cases h
          exact ⟨_, rfl, hnodup, hreach, fun hok => by cases hok⟩
        | true =>
          rw [walkLoop_next herr hcont, ← passedOf_append_singleton] at h
          cases hhandle : handlePatterns fsys srcSet [] (checkFile fsys fw filename).patterns with
          | error err =>
            rw [hhandle] at h
            cases h
            exact ⟨_, rfl, hnodup, hreach, fun _ hnone => by cases hnone⟩
          | ok out' =>
            rw [hhandle] at h
            exact ih (hwalk.step (handled hhandle)) h

/-- A loop that is not disturbed ends at the end of its list. -/
theorem walkLoop_undisturbed {out : Walked} (hund : Undisturbed fsys fw initial)
    (hwalk : Walking (initial.flatMap fsys.matching) (included fsys fw) srcSet done src)
    (h : walkLoop fsys fw turns srcSet passed src = some out) : out.ok = false ∧ out.err = none := by
  induction turns generalizing srcSet passed done src with
  | zero => cases h
  | succ turns ih =>
    cases src with
    | nil =>
      cases h
      exact ⟨rfl, rfl⟩
    | cons filename src =>
      obtain ⟨hcont, herr, hglobs⟩ := hund.file filename (hwalk.first.2 filename (by simp))
      obtain ⟨out', hhandle⟩ := handlePatterns_ok srcSet [] hglobs
      rw [walkLoop_next herr hcont, hhandle] at h
      exact ih (hwalk.step (handled hhandle)) h

/-! ## The walk -/

/-- A walk ends.  It passes regular files that can be reached from the initial patterns, each of them once, and all of
them unless it was told to stop or something failed. -/
theorem walk_reaches (fsys : FS File) (fw : FileWalker File) (initial : List String) :
    ∃ out, Walks fsys fw initial out ∧ out.passed.Nodup ∧
      (∀ path ∈ out.passed, (fsys.regular path).isSome = true ∧ Reachable fsys fw initial path) ∧
      (out.ok = false → out.err = none → ∀ path, (fsys.regular path).isSome = true → Reachable fsys fw initial path →
        out.passed.count path = 1) ∧
      (Undisturbed fsys fw initial → out.ok = false ∧ out.err = none) := by
  cases hhandle : handlePatterns fsys [] [] initial with
  | error err =>
    refine ⟨⟨[], false, some err⟩, ⟨0, fun turns _ => by simp [walk, hhandle]⟩, List.nodup_nil, by simp, by simp, ?_⟩
    intro hund
    obtain ⟨out, hout⟩ := handlePatterns_ok [] [] hund.globs
    cases hhandle.symm.trans hout
  | ok start =>
    obtain ⟨new, hsub, hext⟩ := handlePatterns_extended hhandle
    have hwalk : Walking (initial.flatMap fsys.matching) (included fsys fw) start.1 [] new := .init hext
    rw [List.nil_append] at hsub
    have hends : ∃ out, ∀ more, walkLoop fsys fw (new.length + unseenCount fsys.paths start.1 + 1 + more) start.1
        (passedOf fsys []) new = some out := walkLoop_terminates (Nat.lt_succ_self _)
    obtain ⟨out, hout⟩ := hends
    obtain ⟨paths, hpassed, hnodup, hreach, hall⟩ := walkLoop_passed hwalk (hout 0)
    refine ⟨out, ⟨new.length + unseenCount fsys.paths start.1 + 1, fun turns hle => ?_⟩, ?_, fun path hpath => ?_,
      fun hok herr path hregular hpath => ?_, fun hund => ?_⟩
    · obtain ⟨more, rfl⟩ := Nat.exists_eq_add_of_le hle
      simp only [walk, hhandle, hsub]
      exact hout more
    · rw [hpassed]
      exact hnodup.filter _
    · rw [hpassed] at hpath
      obtain ⟨hpath, hregular⟩ := List.mem_filter.1 hpath
      exact ⟨hregular, hreach path hpath⟩
    · rw [hpassed]
      exact List.count_eq_one_of_mem (hnodup.filter _) (List.mem_filter.2 ⟨hall hok herr path hpath, hregular⟩)
    · exact walkLoop_undisturbed hund hwalk (hout 0)

/-- Two files that include each other and themselves. -/
def cyclicFS : FS String where
  paths := ["a", "b"]
  glob p := .ok (["a", "b"].filter fun path => path = p)
  glob_mem p ms h m hm := by
    cases h
    exact (List.mem_filter.1 hm).1
  openFile path := if path ∈ ["a", "b"] then .file path else .notExist
  isDir _ := .ok false
  close _ := none

def cyclicWalker : FileWalker String := fun _ => ⟨["a", "b"], true, none⟩

theorem walk_reaches_cyclic : ∃ out, Walks cyclicFS cyclicWalker ["a"] out ∧ out.ok = false ∧ out.err = none ∧
    out.passed.count "a" = 1 ∧ out.passed.count "b" = 1 := by
  obtain ⟨out, hwalks, -, -, honce, hund⟩ := walk_reaches cyclicFS cyclicWalker ["a"]
  have ha : Reachable cyclicFS cyclicWalker ["a"] "a" := .start (by decide)
  have hb : Reachable cyclicFS cyclicWalker ["a"] "b" := .next ha (by decide)
  obtain ⟨hok, herr⟩ := hund ⟨fun _ _ => ⟨_, rfl⟩, fun path _ => by
    by_cases h : path ∈ ["a", "b"] <;>
      simp only [checkFile, cyclicFS, h, if_true, if_false, cyclicWalker, withDeferred] <;>
      exact ⟨trivial, trivial, fun _ _ => ⟨_, rfl⟩⟩⟩
  exact ⟨out, hwalks, hok, herr, honce hok herr _ (by decide) ha, honce hok herr _ (by decide) hb⟩

end AdGuardHome.Aghos
