import AdGuardHome.Filtering.RefreshAll
import AdGuardHome.Lib.Filepath
import AdGuardHome.Lib.Run
import Mathlib.Data.List.InsertIdx
import Mathlib.Data.List.Perm.Basic

/-!
# Requests and refreshes in steps (`internal/filtering/filter.go`, `http.go`, `path.go`)

A refresh copies the lists that are due under the lock, updates the copies without it, and then writes what has changed
into the lists that have the same identifier and the same URL still.  Requests that add, remove and edit lists come
between these steps.  What is configured is what the requests have set, whatever refreshes go on (`entries_run`), and
with the pattern for one directory no other local file has an effect on the lists or their files (`run_same`).
-/

namespace AdGuardHome.Filtering

open AdGuardHome.Lib AdGuardHome.Rulelist

namespace DNSFilter

/-! ## Local files -/

/-- The loop of `pathMatchesAny`; `none` when it panics. -/
def globsMatch (filePath : String) : List String → Option Bool
  | [] => some false
  | g :: globs =>
    match Filepath.glob g.toList filePath.toList with
    | none => none
    | some true => some true
    | some false => globsMatch filePath globs

/-- `pathMatchesAny`; `none` when it panics. -/
def pathMatchesAny (globs : List String) (filePath : String) : Option Bool :=
  if globs = [] then some false
  else if Filepath.isAbs filePath.toList = false ∨ Filepath.clean filePath.toList ≠ filePath.toList then none
  else globsMatch filePath globs

/-- `validateSafeFSPatterns` takes the patterns. -/
def ValidPatterns (patterns : List String) : Prop :=
  ∀ p ∈ patterns, (Filepath.glob p.toList "test".toList).isSome = true

instance (patterns : List String) : Decidable (ValidPatterns patterns) := inferInstanceAs (Decidable (∀ p ∈ _, _))

/-- `filepath.Clean` -/
def cleanPath (path : String) : String := String.ofList (Filepath.clean path.toList)

/-- The patterns that have been validated never make `pathMatchesAny` panic on a cleaned path. -/
theorem isSome_pathMatchesAny {patterns : List String} (h : ValidPatterns patterns) {path : String}
    (habs : Filepath.isAbs path.toList = true) : (pathMatchesAny patterns (cleanPath path)).isSome = true := by
  unfold pathMatchesAny
  split
  · rfl
  · have hclean : (cleanPath path).toList = Filepath.clean path.toList := String.toList_ofList
    rw [if_neg]
    · clear * - h
      induction patterns with
      | nil => rfl
      | cons p patterns ih =>
        have hp := h p (by simp)
        rw [Filepath.isSome_glob _ _ (cleanPath path).toList] at hp
        unfold globsMatch
        cases hglob : Filepath.glob p.toList (cleanPath path).toList with
        | none =>
          rw [hglob] at hp
          cases hp
        | some b =>
          cases b with
          | true => rfl
          | false => exact ih fun p' hp' => h p' (List.mem_cons_of_mem _ hp')
    · rw [hclean, Filepath.clean_clean habs]
      rintro (hrel | hne)
      · rw [Filepath.clean_of_isAbs habs] at hrel
        cases hrel
      · exact hne rfl

/-- A path that leaves the directory. -/
theorem isSome_pathMatchesAny_passwd :
    (pathMatchesAny ["/opt/userfilters/*"] (cleanPath "/opt/userfilters/../../etc/passwd")).isSome = true :=
  isSome_pathMatchesAny (by decide +kernel) rfl

/-- `safeFSPatterns`, which have been validated. -/
structure SafeFSPatterns where
  patterns : List String
  valid : ValidPatterns patterns

/-- The cleaned path matches one of the patterns. -/
def SafeFSPatterns.matchesAny (safe : SafeFSPatterns) (path : String) : Bool :=
  (pathMatchesAny safe.patterns (cleanPath path)).getD false

/-- What an update finds: the answers of the servers, the files, and what `Fetch` has besides. -/
structure Outside where
  get : String → Except String Reader
  openFile : String → Except String Reader
  newPendingFile : Option String := none
  dst : Writer := fun _ => none
  close : Option String := none
  cleanup : Option String := none
  closeReplace : Option String := none
  now : ℕ

/-- `DNSFilter.readFromFile` up to the parser. -/
def readFromFile (safe : SafeFSPatterns) (openFile : String → Except String Reader) (path : String) :
    Except String Reader :=
  if safe.matchesAny path then
    match openFile (cleanPath path) with
    | .error err => .error ("opening file: " ++ err)
    | .ok file => .ok file
  else .error ("path " ++ cleanPath path ++ " does not match safe patterns")

/-- What `updateIntl` reads for the URL. -/
def Outside.fetch (o : Outside) (safe : SafeFSPatterns) (url : String) : Fetch where
  newPendingFile := o.newPendingFile
  source := if Filepath.isAbs url.toList then readFromFile safe o.openFile url else o.get url
  dst := o.dst
  close := o.close
  cleanup := o.cleanup
  closeReplace := o.closeReplace
  now := o.now

/-- What `validateFilterURL` asks the system and the parser of URLs. -/
structure Checks where
  /-- The error of `os.Stat`. -/
  stat : String → Option String
  /-- The error of `url.ParseRequestURI` or `urlutil.ValidateHTTPURL`. -/
  parseURL : String → Option String

/-- `DNSFilter.validateFilterURL` -/
def validateFilterURL (safe : SafeFSPatterns) (c : Checks) (urlStr : String) : Option String :=
  if Filepath.isAbs urlStr.toList then
    match c.stat (cleanPath urlStr) with
    | some err => some ("checking filter: " ++ err)
    | none =>
      if safe.matchesAny urlStr then none
      else some ("checking filter: path " ++ cleanPath urlStr ++ " does not match safe patterns")
  else (c.parseURL urlStr).map ("checking filter: " ++ ·)

/-! ## The steps -/

/-- A refresh of a slice between `listsToUpdate` and `syncUpdatedFilters`. -/
structure Refreshing where
  isAllowlist : Bool
  /-- The copies that are not updated yet. -/
  todo : List FilterYAML
  /-- The others, with their flags. -/
  done : List (FilterYAML × Bool) := []
  failNum : ℕ := 0
deriving DecidableEq

/-- A request to add a list, after its identifier was chosen and before `filterAdd`. -/
structure Adding where
  filt : FilterYAML
  downloaded : Bool

structure System where
  d : DNSFilter
  safe : SafeFSPatterns
  files : Files
  /-- The refresh that holds `refreshLock`. -/
  refreshing : Option Refreshing := none
  /-- The requests that add lists, by number. -/
  adding : ℕ → Option Adding := fun _ => none

/-- `DNSFilter.handleFilteringRemoveURL`; `rename` is the error of `os.Rename` if the file exists. -/
def handleFilteringRemoveURL (d : DNSFilter) (files : Files) (rename : Option String) (url : String)
    (isAllowlist : Bool) : DNSFilter × Files :=
  match (d.listsOf isAllowlist).findIdx? (·.url == url) with
  | none => (d, files)
  | some delIdx =>
    match (d.listsOf isAllowlist)[delIdx]? with
    | none => (d, files)
    | some deleted =>
      let p := deleted.path d.dataDir
      let removed := d.setListsOf isAllowlist ((d.listsOf isAllowlist).eraseIdx delIdx)
      match files p, rename with
      | none, _ => (removed, files)
      | some _, some _ => (d, files)
      | some text, none => (removed, Function.update (Function.update files p none) (p ++ ".old") (some text))

/-- What happens next.  The requests to remove and to edit a list hold `filtersMu` to their end. -/
inductive Step
  /-- A refresh gets `refreshLock`, or goes on to the other slice, and copies the lists that are due. -/
  | listsToUpdate (isAllowlist force : Bool) (ivl now : ℕ)
  /-- The next copy is updated. -/
  | update (o : Outside)
  /-- The refresh of the slice ends, after all copies. -/
  | sync
  | removeOldFilterFile (flt : FilterYAML)
  /-- `handleFilteringAddURL` up to the choice of the identifier, as request `k`. -/
  | add (k : ℕ) (c : Checks) (fj : FilterAddJSON)
  /-- Request `k` downloads its list, and ends if it cannot. -/
  | download (k : ℕ) (o : Outside)
  /-- The end of request `k`. -/
  | filterAdd (k : ℕ)
  | removeURL (rename : Option String) (url : String) (isAllowlist : Bool)
  | setURL (c : Checks) (o : Outside) (listURL : String) (newList : FilterYAML) (isAllowlist : Bool)

namespace System

/-- The copies of the refresh. -/
def inFlight (s : System) : List FilterYAML :=
  match s.refreshing with
  | none => []
  | some r => r.done.map Prod.fst ++ r.todo

/-- The list that a request adds. -/
def newFilter (fj : FilterAddJSON) (id : ListID) : FilterYAML where
  enabled := true
  url := fj.url
  name := fj.name
  rulesCount := 0
  lastUpdated := 0
  checksum := 0
  white := fj.whitelist
  id := id

def step (s : System) : Step → System
  | .listsToUpdate isAllowlist force ivl now =>
    match s.refreshing, DNSFilter.listsToUpdate ivl now force (s.d.listsOf isAllowlist) with
    | none, uf :: todo => { s with refreshing := some { isAllowlist, todo := uf :: todo } }
    | _, _ => s
  | .update o =>
    match s.refreshing with
    | some ⟨isAllowlist, uf :: todo, done, failNum⟩ =>
      match updateFile (o.fetch s.safe uf.url) uf (s.files (uf.path s.d.dataDir)) with
      | (uf', file, updated, err) =>
        { s with
          files := Function.update s.files (uf.path s.d.dataDir) file
          refreshing := some ⟨isAllowlist, todo, done ++ [(uf', updated)], failNum + (if err.isSome then 1 else 0)⟩ }
    | _ => s
  | .sync =>
    match s.refreshing with
    | some ⟨isAllowlist, [], done, failNum⟩ =>
      if failNum = done.length then { s with refreshing := none }
      else
        { s with
          d := s.d.setListsOf isAllowlist (syncUpdatedFilters (s.d.listsOf isAllowlist) done).1
          refreshing := none }
    | _ => s
  | .removeOldFilterFile flt => { s with files := DNSFilter.removeOldFilterFile s.files (flt.path s.d.dataDir) }
  | .add k c fj =>
    if (s.adding k).isSome ∨ validateFilterURL s.safe c fj.url ≠ none ∨ s.d.filterExists fj.url then s
    else
      match s.d.idGen.next with
      | none => { s with d := { s.d with idGen := ⟨0⟩ } }
      | some (id, g) =>
        { s with
          d := { s.d with idGen := g }
          adding := Function.update s.adding k (some ⟨newFilter fj id, false⟩) }
  | .download k o =>
    match s.adding k with
    | some ⟨filt, false⟩ =>
      match updateFile (o.fetch s.safe filt.url) filt (s.files (filt.path s.d.dataDir)) with
      | (filt', file, true, none) =>
        { s with
          files := Function.update s.files (filt.path s.d.dataDir) file
          adding := Function.update s.adding k (some ⟨filt', true⟩) }
      | _ => { s with adding := Function.update s.adding k none }
    | _ => s
  | .filterAdd k =>
    match s.adding k with
    | some ⟨filt, true⟩ =>
      match s.d.filterAdd filt with
      | .error _ => { s with adding := Function.update s.adding k none }
      | .ok d => { s with d, adding := Function.update s.adding k none }
    | _ => s
  | .removeURL rename url isAllowlist =>
    match handleFilteringRemoveURL s.d s.files rename url isAllowlist with
    | (d, files) => { s with d, files }
  | .setURL c o listURL newList isAllowlist =>
    if validateFilterURL s.safe c newList.url ≠ none then s
    else
      match s.d.filterSetProperties s.files (o.fetch s.safe newList.url) listURL newList isAllowlist with
      | (d, files, _, _) => { s with d, files }

end System

/-! ## Files that are not safe -/

/-- What is read is the same for both, but for files other than `dir/name`. -/
structure Outside.Agree (dir : String) (o o' : Outside) : Prop where
  openFile : ∀ name : List Char, Filepath.Ordinary name →
    o'.openFile (dir ++ "/" ++ String.ofList name) = o.openFile (dir ++ "/" ++ String.ofList name)
  others : ∃ openFile, o' = { o with openFile := openFile }

/-- The files `dir/name` exist for both or for none, and other files need not. -/
structure Checks.Agree (dir : String) (c c' : Checks) : Prop where
  stat : ∀ name : List Char, Filepath.Ordinary name →
    (c'.stat (dir ++ "/" ++ String.ofList name)).isSome = (c.stat (dir ++ "/" ++ String.ofList name)).isSome
  parseURL : c'.parseURL = c.parseURL

/-- The same step, with other files outside of `dir`. -/
inductive Step.Agree (dir : String) : Step → Step → Prop
  | listsToUpdate (isAllowlist force : Bool) (ivl now : ℕ) :
    Agree dir (.listsToUpdate isAllowlist force ivl now) (.listsToUpdate isAllowlist force ivl now)
  | update {o o' : Outside} (h : o.Agree dir o') : Agree dir (.update o) (.update o')
  | sync : Agree dir .sync .sync
  | removeOldFilterFile (flt : FilterYAML) : Agree dir (.removeOldFilterFile flt) (.removeOldFilterFile flt)
  | add (k : ℕ) {c c' : Checks} (fj : FilterAddJSON) (h : c.Agree dir c') : Agree dir (.add k c fj) (.add k c' fj)
  | download (k : ℕ) {o o' : Outside} (h : o.Agree dir o') : Agree dir (.download k o) (.download k o')
  | filterAdd (k : ℕ) : Agree dir (.filterAdd k) (.filterAdd k)
  | removeURL (rename : Option String) (url : String) (isAllowlist : Bool) :
    Agree dir (.removeURL rename url isAllowlist) (.removeURL rename url isAllowlist)
  | setURL {c c' : Checks} {o o' : Outside} (listURL : String) (newList : FilterYAML) (isAllowlist : Bool)
    (hc : c.Agree dir c') (ho : o.Agree dir o') :
    Agree dir (.setURL c o listURL newList isAllowlist) (.setURL c' o' listURL newList isAllowlist)

section Safe

variable {dir : String} {safe : SafeFSPatterns} {o o' : Outside} {c c' : Checks} {s : System}

/-- The pattern `dir/*` lets through only what is in the directory. -/
theorem cleanPath_of_matchesAny (hdir : ∀ c ∈ dir.toList, Filepath.Plain c) (hne : dir ≠ "")
    (hsafe : safe.patterns = [dir ++ "/*"]) {path : String} (habs : Filepath.isAbs path.toList = true)
    (h : safe.matchesAny path = true) :
    ∃ name, Filepath.Ordinary name ∧ cleanPath path = dir ++ "/" ++ String.ofList name := by
  have hclean : (cleanPath path).toList = Filepath.clean path.toList := String.toList_ofList
  have hglob : Filepath.glob (dir.toList ++ ['/', '*']) (cleanPath path).toList = some true := by
    unfold SafeFSPatterns.matchesAny pathMatchesAny at h
    rw [hsafe, if_neg (List.cons_ne_nil _ _)] at h
    split at h
    · cases h
    · unfold globsMatch at h
      rw [String.toList_append] at h
      change (Option.getD (match Filepath.glob (dir.toList ++ ['/', '*']) (cleanPath path).toList with
        | none => none
        | some true => some true
        | some false => some false) false) = true at h
      cases hg : Filepath.glob (dir.toList ++ ['/', '*']) (cleanPath path).toList with
      | none =>
        rw [hg] at h
        cases h
      | some b =>
        cases b with
        | true => rfl
        | false =>
          rw [hg] at h
          cases h
  obtain ⟨name, hname, hslash⟩ := (Filepath.glob_star_iff hdir _).1 hglob
  have hne' : dir.toList ≠ [] := fun h => hne (String.toList_injective h)
  refine ⟨name, Filepath.ordinary_suffix habs hslash hne' (hclean ▸ hname), String.toList_injective ?_⟩
  rw [hname]
  simp

theorem fetch_same (hdir : ∀ c ∈ dir.toList, Filepath.Plain c) (hne : dir ≠ "") (hsafe : safe.patterns = [dir ++ "/*"])
    (h : o.Agree dir o') : o'.fetch safe = o.fetch safe := by
  funext url
  have hread : Filepath.isAbs url.toList = true →
      readFromFile safe o'.openFile url = readFromFile safe o.openFile url := by
    intro habs
    unfold readFromFile
    split
    · rename_i hmatch
      obtain ⟨name, hname, hpath⟩ := cleanPath_of_matchesAny hdir hne hsafe habs hmatch
      rw [hpath, h.openFile name hname]
    · rfl
  obtain ⟨openFile, rfl⟩ := h.others
  unfold Outside.fetch
  by_cases habs : Filepath.isAbs url.toList = true
  · rw [if_pos habs, if_pos habs, hread habs]
  · rw [if_neg habs, if_neg habs]

/-- A URL passes the checks of both or of none. -/
theorem validateFilterURL_same (hdir : ∀ c ∈ dir.toList, Filepath.Plain c) (hne : dir ≠ "")
    (hsafe : safe.patterns = [dir ++ "/*"]) (h : c.Agree dir c') (url : String) :
    validateFilterURL safe c' url = none ↔ validateFilterURL safe c url = none := by
  unfold validateFilterURL
  split
  · rename_i habs
    by_cases hmatch : safe.matchesAny url = true
    · obtain ⟨name, hname, hpath⟩ := cleanPath_of_matchesAny hdir hne hsafe habs hmatch
      have hstat := h.stat name hname
      rw [hpath]
      cases hc : c.stat (dir ++ "/" ++ String.ofList name) with
      | none =>
        rw [hc] at hstat
        rw [Option.isSome_eq_false_iff.1 hstat |> Option.isNone_iff_eq_none.1]
      | some err =>
        rw [hc] at hstat
        obtain ⟨err', herr'⟩ := Option.isSome_iff_exists.1 hstat
        rw [herr']
        simp
    · rw [if_neg hmatch]
      refine iff_of_false ?_ ?_
      · split <;> simp
      · split <;> simp
  · rw [h.parseURL]

theorem step_same (hdir : ∀ c ∈ dir.toList, Filepath.Plain c) (hne : dir ≠ "") (hsafe : s.safe.patterns = [dir ++ "/*"])
    {op op' : Step} (h : op.Agree dir op') : s.step op' = s.step op := by
  cases h with
  | listsToUpdate => rfl
  | update h =>
    dsimp only [System.step]
    rw [fetch_same hdir hne hsafe h]
  | sync => rfl
  | removeOldFilterFile => rfl
  | add k fj h =>
    have hvalid := not_congr (validateFilterURL_same hdir hne hsafe h fj.url)
    dsimp only [System.step]
    rw [if_congr (or_congr_right (or_congr_left hvalid)) rfl rfl]
  | download k h =>
    dsimp only [System.step]
    rw [fetch_same hdir hne hsafe h]
  | filterAdd => rfl
  | removeURL => rfl
  | setURL listURL newList isAllowlist hc ho =>
    have hvalid := not_congr (validateFilterURL_same hdir hne hsafe hc newList.url)
    dsimp only [System.step]
    rw [if_congr hvalid rfl rfl, fetch_same hdir hne hsafe ho]

theorem safe_step (s : System) (op : Step) : (s.step op).safe = s.safe := by
  unfold System.step
  cases op <;> dsimp only <;> repeat' split
  all_goals rfl

/-- With the pattern `dir/*`, nothing of the lists and their files tells what is in local files that are not directly in
the directory, nor which of them exist. -/
theorem run_same (hdir : ∀ c ∈ dir.toList, Filepath.Plain c) (hne : dir ≠ "") (hsafe : s.safe.patterns = [dir ++ "/*"])
    {ops ops' : List Step} (h : List.Forall₂ (Step.Agree dir) ops ops') :
    run System.step s ops' = run System.step s ops := by
  induction h generalizing s with
  | nil => rfl
  | @cons op op' ops ops' hop hops ih =>
    change run System.step (s.step op') ops' = run System.step (s.step op) ops
    rw [step_same hdir hne hsafe hop]
    refine ih ?_
    rw [safe_step]
    exact hsafe

/-- The directory of the filters of users. -/
def userFilters : SafeFSPatterns := ⟨["/opt/userfilters/*"], by decide +kernel⟩

def noChecks : Checks := ⟨fun _ => none, fun _ => none⟩

/-- A machine with this file of passwords. -/
def machine (passwd : String) : Outside where
  get _ := .error "no such host"
  openFile path := if path = "/etc/passwd" then .ok ⟨utf8 passwd.toList, none⟩ else .error "no such file"
  now := 1

/-- The file of passwords is configured as a list. -/
def passwdLists : System where
  d := ⟨"/data", [{ blocklist with url := "/etc/passwd" }], [], ⟨2⟩⟩
  safe := userFilters
  files := fun _ => none

/-- The list is refreshed, and a request adds the file by a path through the directory of the filters. -/
def readPasswd (passwd : String) : List Step :=
  [.listsToUpdate false true 24 24, .update (machine passwd), .sync,
    .add 0 noChecks ⟨"", "/opt/userfilters/../../etc/passwd", false⟩, .download 0 (machine passwd), .filterAdd 0]

/-- Two machines with different passwords end up with the same lists and files. -/
theorem run_same_passwd :
    run System.step passwdLists (readPasswd "root:x:1") = run System.step passwdLists (readPasswd "root:x:0") := by
  have hplain : ∀ c ∈ "/opt/userfilters".toList, Filepath.Plain c := by
    simp [Filepath.Plain]
  have hagree : (machine "root:x:0").Agree "/opt/userfilters" (machine "root:x:1") := by
    refine ⟨fun name _ => ?_, _, rfl⟩
    have hne : ("/opt/userfilters" ++ "/" ++ String.ofList name) ≠ "/etc/passwd" := by
      intro h
      have hlist := congrArg String.toList h
      simp at hlist
    unfold machine
    dsimp only
    rw [if_neg hne, if_neg hne]
  exact run_same hplain (by decide) rfl (.cons (.listsToUpdate false true 24 24) (.cons (.update hagree) (.cons .sync
    (.cons (.add 0 _ ⟨fun _ _ => rfl, rfl⟩) (.cons (.download 0 hagree) (.cons (.filterAdd 0) .nil))))))

end Safe

/-! ## What requests set -/

/-- What is configured of a list, but for its name. -/
structure Entry where
  id : ListID
  url : String
  enabled : Bool
deriving DecidableEq

def entry (flt : FilterYAML) : Entry := ⟨flt.id, flt.url, flt.enabled⟩

/-- The allowlists and the blocklists as they are configured. -/
def System.entries (s : System) (isAllowlist : Bool) : List Entry := (s.d.listsOf isAllowlist).map entry

/-- A change of the first element that meets `p`. -/
def modifyFirst {α : Type} (p : α → Bool) (f : α → α) (xs : List α) : List α :=
  match xs.findIdx? p with
  | none => xs
  | some i => xs.modify i f

/-- What a request changes of a slice. -/
inductive Edit
  | add (isAllowlist : Bool) (e : Entry)
  | remove (isAllowlist : Bool) (url : String)
  | set (isAllowlist : Bool) (listURL url : String) (enabled : Bool)

def Edit.apply (entries : Bool → List Entry) : Edit → Bool → List Entry
  | .add isAllowlist e => Function.update entries isAllowlist (entries isAllowlist ++ [e])
  | .remove isAllowlist url => Function.update entries isAllowlist ((entries isAllowlist).eraseP (·.url == url))
  | .set isAllowlist listURL url enabled => Function.update entries isAllowlist
      (modifyFirst (·.url == listURL) (fun e => { e with url := url, enabled := enabled }) (entries isAllowlist))

/-- The edit that a step makes: requests that are refused make none, and no step of a refresh makes one. -/
def System.edit (s : System) : Step → Option Edit
  | .filterAdd k =>
    match s.adding k with
    | some ⟨filt, true⟩ => if s.d.filterExists filt.url then none else some (.add filt.white (entry filt))
    | _ => none
  | .removeURL rename url isAllowlist =>
    match (s.d.listsOf isAllowlist).find? (·.url == url) with
    | none => none
    | some deleted =>
      if (s.files (deleted.path s.d.dataDir)).isSome ∧ rename.isSome then none else some (.remove isAllowlist url)
  | .setURL c o listURL newList isAllowlist =>
    if validateFilterURL s.safe c newList.url ≠ none then none
    else if (s.d.filterSetProperties s.files (o.fetch s.safe newList.url) listURL newList isAllowlist).2.2.2 ≠ none then
      none
    else some (.set isAllowlist listURL newList.url newList.enabled)
  | _ => none

/-- The edits of a run. -/
def edits (s : System) : List Step → List Edit
  | [] => []
  | op :: ops => (s.edit op).toList ++ edits (s.step op) ops

section Entries

variable {d : DNSFilter} {s : System} {isAllowlist : Bool}

theorem updateFile_enabled (f : Fetch) (flt : FilterYAML) (file : Option (List UInt8)) :
    (updateFile f flt file).1.enabled = flt.enabled := by
  have hname : ∀ title, (flt.ensureName title).enabled = flt.enabled := by
    intro title
    unfold FilterYAML.ensureName
    split
    · rfl
    · split <;> rfl
  rcases updateFile_cases f flt file with ⟨b, err, h⟩ | ⟨res, out, -, ⟨-, h⟩ | ⟨-, h⟩⟩
  · rw [h]
  · rw [h]
  · rw [h]
    exact hname _

theorem entry_updateFile (f : Fetch) (flt : FilterYAML) (file : Option (List UInt8)) :
    entry (updateFile f flt file).1 = entry flt := by
  obtain ⟨hid, hurl⟩ := updateFile_id_url f flt file
  unfold entry
  rw [hid, hurl, updateFile_enabled]

theorem entry_edit (newList flt : FilterYAML) : entry (edit newList flt) = ⟨flt.id, newList.url, newList.enabled⟩ := by
  unfold edit
  dsimp only
  by_cases hmoved : flt.url ≠ newList.url
  · rw [if_pos hmoved]
    rfl
  · rw [if_neg hmoved, ← not_ne_iff.1 hmoved]
    rfl

/-- An edit sets what it is told to, or nothing. -/
theorem entry_setProperties (d : DNSFilter) (f : Fetch) (newList flt : FilterYAML) (file : Option (List UInt8)) :
    entry (d.setProperties f newList flt file).1 =
      if (d.setProperties f newList flt file).2.2.2 = none then ⟨flt.id, newList.url, newList.enabled⟩
      else entry flt := by
  have hfields : (d.setFields f newList flt file).1.id = flt.id ∧ ((d.setFields f newList flt file).2.2.2 = none →
      entry (d.setFields f newList flt file).1 = ⟨flt.id, newList.url, newList.enabled⟩) := by
    have hid : (edit newList flt).id = flt.id := congrArg Entry.id (entry_edit newList flt)
    unfold setFields
    split
    · exact ⟨rfl, fun h => by cases h⟩
    · split
      · exact ⟨hid, fun _ => entry_edit newList flt⟩
      · split
        · exact ⟨hid, fun _ => entry_edit newList flt⟩
        · exact ⟨(updateFile_id_url _ _ _).1.trans hid, fun _ => (entry_updateFile _ _ _).trans (entry_edit newList flt)⟩
  obtain ⟨⟨flt', file', b, err⟩, hres⟩ : ∃ r, d.setFields f newList flt file = r := ⟨_, rfl⟩
  rw [hres] at hfields
  unfold setProperties
  rw [hres]
  cases err with
  | none => exact hfields.2 rfl
  | some err => exact congrArg (Entry.mk · flt.url flt.enabled) hfields.1

theorem listsOf_setListsOf_eq_update (d : DNSFilter) (isAllowlist : Bool) (filters : List FilterYAML) :
    (d.setListsOf isAllowlist filters).listsOf = Function.update d.listsOf isAllowlist filters := by
  funext w
  cases isAllowlist <;> cases w <;> rfl

/-- The configured lists, if those of one slice change. -/
theorem entries_setListsOf (d : DNSFilter) (isAllowlist : Bool) (filters : List FilterYAML) :
    (fun w => ((d.setListsOf isAllowlist filters).listsOf w).map entry) =
      Function.update (fun w => (d.listsOf w).map entry) isAllowlist (filters.map entry) := by
  funext w
  rw [listsOf_setListsOf_eq_update]
  by_cases hw : w = isAllowlist
  · subst hw
    simp
  · simp [Function.update_of_ne hw]

theorem entries_of_listsOf {s' : System} (h : ∀ w, s'.d.listsOf w = s.d.listsOf w) : s'.entries = s.entries := by
  funext w
  unfold System.entries
  rw [h]

/-- Either nothing is removed, or the first list with the URL is. -/
theorem removeURL_cases (d : DNSFilter) (files : Files) (rename : Option String) (url : String) (isAllowlist : Bool) :
    (handleFilteringRemoveURL d files rename url isAllowlist = (d, files) ∧
      ((d.listsOf isAllowlist).find? (·.url == url) = none ∨ ∃ deleted,
        (d.listsOf isAllowlist).find? (·.url == url) = some deleted ∧
          (files (deleted.path d.dataDir)).isSome = true ∧ rename.isSome = true)) ∨
      ∃ i deleted files', (d.listsOf isAllowlist).findIdx? (·.url == url) = some i ∧
        (d.listsOf isAllowlist)[i]? = some deleted ∧ (d.listsOf isAllowlist).find? (·.url == url) = some deleted ∧
        ¬ ((files (deleted.path d.dataDir)).isSome = true ∧ rename.isSome = true) ∧
        handleFilteringRemoveURL d files rename url isAllowlist =
          (d.setListsOf isAllowlist ((d.listsOf isAllowlist).eraseIdx i), files') ∧
        ∀ p, p ≠ deleted.path d.dataDir → p ≠ deleted.path d.dataDir ++ ".old" → files' p = files p := by
  unfold handleFilteringRemoveURL
  have hfind : (d.listsOf isAllowlist).find? (·.url == url) =
      ((d.listsOf isAllowlist).findIdx? (·.url == url)).bind fun i => (d.listsOf isAllowlist)[i]? :=
    List.find?_eq_bind_findIdx?_getElem?
  cases hidx : (d.listsOf isAllowlist).findIdx? (·.url == url) with
  | none =>
    rw [hidx] at hfind
    exact .inl ⟨rfl, .inl hfind⟩
  | some i =>
    rw [hidx] at hfind
    dsimp only
    cases hdel : (d.listsOf isAllowlist)[i]? with
    | none => exact .inl ⟨rfl, .inl (hfind.trans hdel)⟩
    | some deleted =>
      dsimp only
      cases hfile : files (deleted.path d.dataDir) with
      | none => exact .inr ⟨i, deleted, files, rfl, hdel, hfind.trans hdel, by simp [hfile], rfl, fun _ _ _ => rfl⟩
      | some text =>
        cases rename with
        | some err => exact .inl ⟨rfl, .inr ⟨deleted, hfind.trans hdel, by simp [hfile], rfl⟩⟩
        | none =>
          refine .inr ⟨i, deleted, _, rfl, hdel, hfind.trans hdel, by simp, rfl, fun p hp hold => ?_⟩
          rw [Function.update_of_ne hold, Function.update_of_ne hp]

/-- Either nothing is edited, or the first list with the URL is. -/
theorem filterSetProperties_cases (d : DNSFilter) (files : Files) (f : Fetch) (listURL : String) (newList : FilterYAML)
    (isAllowlist : Bool) :
    (∃ err, d.filterSetProperties files f listURL newList isAllowlist = (d, files, false, some err)) ∨
      ∃ i flt, (d.listsOf isAllowlist).findIdx? (·.url == listURL) = some i ∧
        (d.listsOf isAllowlist)[i]? = some flt ∧
        d.filterSetProperties files f listURL newList isAllowlist =
          (d.setListsOf isAllowlist ((d.listsOf isAllowlist).set i
              (d.setProperties f newList flt (files (flt.path d.dataDir))).1),
            Function.update files (flt.path d.dataDir) (d.setProperties f newList flt (files (flt.path d.dataDir))).2.1,
            (d.setProperties f newList flt (files (flt.path d.dataDir))).2.2) := by
  unfold filterSetProperties
  cases hidx : (d.listsOf isAllowlist).findIdx? (·.url == listURL) with
  | none => exact .inl ⟨_, rfl⟩
  | some i =>
    dsimp only
    cases hflt : (d.listsOf isAllowlist)[i]? with
    | none => exact .inl ⟨_, rfl⟩
    | some flt => exact .inr ⟨i, flt, rfl, hflt, rfl⟩

theorem entries_removeURL (s : System) (rename : Option String) (url : String) (isAllowlist : Bool) :
    (s.step (.removeURL rename url isAllowlist)).entries =
      (s.edit (.removeURL rename url isAllowlist)).elim s.entries (Edit.apply s.entries) := by
  dsimp only [System.step, System.edit]
  rcases removeURL_cases s.d s.files rename url isAllowlist with ⟨hsame, hnone | ⟨deleted, hdel, hfail⟩⟩ |
    ⟨i, deleted, files', hidx, -, hfind, hok, hres, -⟩
  · rw [hsame, hnone]
    rfl
  · rw [hsame, hdel]
    dsimp only
    rw [if_pos hfail]
    rfl
  · rw [hres, hfind]
    dsimp only
    rw [if_neg hok]
    refine (entries_setListsOf s.d isAllowlist _).trans ?_
    have herase : (s.entries isAllowlist).eraseP (·.url == url) = (s.entries isAllowlist).eraseIdx i := by
      have hidx' : (s.entries isAllowlist).findIdx? (·.url == url) = some i := by
        unfold System.entries
        rw [List.findIdx?_map]
        exact hidx
      rw [List.eraseP_eq_eraseIdx, hidx']
    rw [Option.elim_some, Edit.apply, herase]
    exact congrArg (Function.update s.entries isAllowlist) (List.eraseIdx_map entry _ _).symm

theorem entries_setURL (s : System) (c : Checks) (o : Outside) (listURL : String) (newList : FilterYAML)
    (isAllowlist : Bool) : (s.step (.setURL c o listURL newList isAllowlist)).entries =
      (s.edit (.setURL c o listURL newList isAllowlist)).elim s.entries (Edit.apply s.entries) := by
  dsimp only [System.step, System.edit]
  by_cases hvalid : validateFilterURL s.safe c newList.url ≠ none
  · rw [if_pos hvalid, if_pos hvalid]
    rfl
  · rw [if_neg hvalid, if_neg hvalid]
    rcases filterSetProperties_cases s.d s.files (o.fetch s.safe newList.url) listURL newList isAllowlist with
      ⟨err, hres⟩ | ⟨i, flt, hidx, hflt, hres⟩
    · rw [hres]
      rfl
    · rw [hres]
      dsimp only
      refine (entries_setListsOf s.d isAllowlist _).trans ?_
      have hentry := entry_setProperties s.d (o.fetch s.safe newList.url) newList flt (s.files (flt.path s.d.dataDir))
      generalize s.d.setProperties (o.fetch s.safe newList.url) newList flt (s.files (flt.path s.d.dataDir)) = r at hentry
      obtain ⟨hi, hget⟩ := List.getElem?_eq_some_iff.1 hflt
      rw [List.map_set, hentry]
      by_cases herr : r.2.2.2 = none
      · rw [if_pos herr, if_neg (not_not_intro herr), Option.elim_some, Edit.apply]
        have hidx' : (s.entries isAllowlist).findIdx? (·.url == listURL) = some i := by
          unfold System.entries
          rw [List.findIdx?_map]
          exact hidx
        have hmodify : modifyFirst (·.url == listURL) (fun e => { e with url := newList.url, enabled := newList.enabled })
            (s.entries isAllowlist) = (s.entries isAllowlist).set i ⟨flt.id, newList.url, newList.enabled⟩ := by
          unfold modifyFirst
          rw [hidx']
          refine List.ext_getElem? fun j => ?_
          rw [List.getElem?_modify, List.getElem?_set]
          by_cases hj : i = j
          · subst hj
            rw [if_pos rfl, if_pos (by simpa [System.entries] using hi)]
            simp [System.entries, hflt, entry]
          · rw [if_neg hj]
            simp [hj]
        rw [hmodify]
        rfl
      · rw [if_neg herr, if_pos herr]
        have hset : ((s.d.listsOf isAllowlist).map entry).set i (entry flt) = (s.d.listsOf isAllowlist).map entry := by
          rw [← List.map_set, ← hget, List.set_getElem_self]
        rw [hset]
        exact Function.update_eq_self ..

/-- A step changes what is configured as its edit says. -/
theorem entries_step (s : System) (op : Step) :
    (s.step op).entries = (s.edit op).elim s.entries (Edit.apply s.entries) := by
  cases op with
  | listsToUpdate isAllowlist force ivl now =>
    dsimp only [System.step, System.edit]
    split <;> rfl
  | update o =>
    dsimp only [System.step, System.edit]
    split <;> rfl
  | sync =>
    dsimp only [System.step, System.edit]
    split
    · split
      · rfl
      · refine (entries_setListsOf s.d _ _).trans ?_
        rw [map_syncUpdatedFilters fun uf b f => by
          obtain ⟨hid, hurl, hen⟩ := syncOne_key uf b f
          unfold entry
          rw [hid, hurl, hen]]
        exact Function.update_eq_self ..
    · rfl
  | removeOldFilterFile flt => rfl
  | add k c fj =>
    dsimp only [System.step, System.edit]
    split
    · rfl
    · split
      · exact entries_of_listsOf fun w => rfl
      · exact entries_of_listsOf fun w => rfl
  | download k o =>
    dsimp only [System.step, System.edit]
    split
    · split <;> rfl
    · rfl
  | filterAdd k =>
    dsimp only [System.step, System.edit]
    split
    · rename_i filt hadding
      unfold filterAdd
      by_cases hexists : s.d.filterExists filt.url = true
      · rw [if_pos hexists, if_pos hexists]
        rfl
      · rw [if_neg hexists, if_neg hexists]
        have hsplit : (if filt.white = true then
            (Except.ok { s.d with whitelistFilters := s.d.whitelistFilters ++ [filt] } : Except String DNSFilter)
            else .ok { s.d with filters := s.d.filters ++ [filt] }) =
              .ok (s.d.setListsOf filt.white (s.d.listsOf filt.white ++ [filt])) := by
          cases filt.white <;> rfl
        rw [hsplit]
        refine (entries_setListsOf s.d filt.white _).trans ?_
        rw [List.map_append]
        rfl
    · rfl
  | removeURL rename url isAllowlist => exact entries_removeURL s rename url isAllowlist
  | setURL c o listURL newList isAllowlist => exact entries_setURL s c o listURL newList isAllowlist

/-- What is configured after a run is what the edits make of what was configured before, one after another, whatever
refreshes come between and into them. -/
theorem entries_run (s : System) (ops : List Step) :
    (run System.step s ops).entries = (edits s ops).foldl Edit.apply s.entries := by
  induction ops generalizing s with
  | nil => rfl
  | cons op ops ih =>
    refine (ih (s.step op)).trans ?_
    rw [entries_step, edits, List.foldl_append]
    cases s.edit op <;> rfl

/-! ## URLs -/

theorem mem_lists {d : DNSFilter} {flt : FilterYAML} : flt ∈ d.lists ↔ ∃ isAllowlist, flt ∈ d.listsOf isAllowlist := by
  unfold lists
  rw [List.mem_append, Bool.exists_bool]
  rfl

theorem mem_ids {d : DNSFilter} {id : ListID} : id ∈ d.ids ↔ ∃ flt ∈ d.lists, flt.id = id := List.mem_map

theorem listsOf_setListsOf_ne {isAllowlist w : Bool} (hw : w ≠ isAllowlist) (d : DNSFilter)
    (filters : List FilterYAML) : (d.setListsOf isAllowlist filters).listsOf w = d.listsOf w := by
  rw [listsOf_setListsOf_eq_update, Function.update_of_ne hw]

/-- The lists with one of them taken out. -/
theorem perm_lists_setListsOf {d : DNSFilter} {isAllowlist : Bool} {flt : FilterYAML} {fs filters : List FilterYAML}
    (h : fs.Perm (flt :: filters)) :
    (d.setListsOf isAllowlist fs).lists.Perm (flt :: (d.setListsOf isAllowlist filters).lists) := by
  cases isAllowlist with
  | false => exact h.append_right _
  | true => exact (h.append_left _).trans List.perm_middle

theorem setListsOf_self (d : DNSFilter) (isAllowlist : Bool) : d.setListsOf isAllowlist (d.listsOf isAllowlist) = d := by
  cases isAllowlist <;> rfl

/-- The lists before and after one of them is replaced. -/
theorem perm_lists_set {d : DNSFilter} {isAllowlist : Bool} {i : ℕ} {flt : FilterYAML}
    (hflt : (d.listsOf isAllowlist)[i]? = some flt) (flt' : FilterYAML) :
    d.lists.Perm (flt :: (d.setListsOf isAllowlist ((d.listsOf isAllowlist).eraseIdx i)).lists) ∧
      (d.setListsOf isAllowlist ((d.listsOf isAllowlist).set i flt')).lists.Perm
        (flt' :: (d.setListsOf isAllowlist ((d.listsOf isAllowlist).eraseIdx i)).lists) := by
  obtain ⟨hi, hget⟩ := List.getElem?_eq_some_iff.1 hflt
  constructor
  · have herase := (List.getElem_cons_eraseIdx_perm hi).symm
    rw [hget] at herase
    have hlists : (d.setListsOf isAllowlist (d.listsOf isAllowlist)).lists.Perm _ := perm_lists_setListsOf herase
    rwa [setListsOf_self] at hlists
  · have hi' : i < ((d.listsOf isAllowlist).set i flt').length := by simpa using hi
    have herase := (List.getElem_cons_eraseIdx_perm hi').symm
    rw [List.getElem_set_self, List.eraseIdx_set_eq] at herase
    exact perm_lists_setListsOf herase

theorem filterExists_eq_false {d : DNSFilter} {url : String} (h : d.filterExists url = false) :
    url ∉ d.lists.map (·.url) := by
  unfold filterExists at h
  rw [← List.any_append, List.any_eq_false] at h
  intro hmem
  obtain ⟨flt, hflt, rfl⟩ := List.mem_map.1 hmem
  exact h flt hflt (beq_self_eq_true _)

/-- An edit moves a list only to a URL that no list has. -/
theorem url_setProperties (d : DNSFilter) (f : Fetch) (newList flt : FilterYAML) (file : Option (List UInt8)) :
    (d.setProperties f newList flt file).1.url = flt.url ∨
      ((d.setProperties f newList flt file).1.url = newList.url ∧ d.filterExists newList.url = false) := by
  have hurl := congrArg Entry.url (entry_setProperties d f newList flt file)
  by_cases herr : (d.setProperties f newList flt file).2.2.2 = none
  · rw [if_pos herr] at hurl
    by_cases hsame : flt.url = newList.url
    · exact .inl (hurl.trans hsame.symm)
    · refine .inr ⟨hurl, ?_⟩
      by_contra hexists
      have hfields : d.setFields f newList flt file =
          ({ flt with name := newList.name }, file, false, some errFilterExists) := by
        unfold setFields
        rw [if_pos ⟨hsame, Bool.not_eq_false _ ▸ hexists⟩]
      unfold setProperties at herr
      rw [hfields] at herr
      cases herr
  · rw [if_neg herr] at hurl
    exact .inl hurl

/-- A step that makes no edit leaves the URLs. -/
theorem urls_of_no_edit {op : Step} (h : s.edit op = none) :
    (s.step op).d.lists.map (·.url) = s.d.lists.map (·.url) := by
  have hentries : (s.step op).entries = s.entries := by
    rw [entries_step, h]
    rfl
  have hslice : ∀ w, ((s.step op).d.listsOf w).map (·.url) = (s.d.listsOf w).map (·.url) := by
    intro w
    have hmap := congrArg (List.map Entry.url) (congrFun hentries w)
    unfold System.entries at hmap
    rw [List.map_map, List.map_map] at hmap
    exact hmap
  unfold lists
  rw [List.map_append, List.map_append]
  exact congrArg₂ (· ++ ·) (hslice false) (hslice true)

theorem urls_filterAdd (h : (s.d.lists.map (·.url)).Nodup) (k : ℕ) :
    ((s.step (.filterAdd k)).d.lists.map (·.url)).Nodup := by
  dsimp only [System.step]
  split
  · rename_i filt hadding
    cases hexists : s.d.filterExists filt.url with
    | true =>
      unfold filterAdd
      rw [if_pos hexists]
      exact h
    | false =>
      obtain ⟨d', hadd, hperm⟩ := filterAdd_of_not_exists hexists
      rw [hadd]
      exact (hperm.map FilterYAML.url).nodup_iff.2 (List.nodup_cons.2 ⟨filterExists_eq_false hexists, h⟩)
  · exact h

theorem urls_removeURL (h : (s.d.lists.map (·.url)).Nodup) (rename : Option String) (url : String) (isAllowlist : Bool) :
    ((s.step (.removeURL rename url isAllowlist)).d.lists.map (·.url)).Nodup := by
  dsimp only [System.step]
  rcases removeURL_cases s.d s.files rename url isAllowlist with ⟨hsame, -⟩ | ⟨i, deleted, files', -, -, -, -, hres, -⟩
  · rw [hsame]
    exact h
  · rw [hres]
    refine h.sublist (List.Sublist.map _ ?_)
    have herase := List.eraseIdx_sublist (s.d.listsOf isAllowlist) i
    cases isAllowlist with
    | false => exact herase.append_right _
    | true => exact herase.append_left _

theorem urls_setURL (h : (s.d.lists.map (·.url)).Nodup) (c : Checks) (o : Outside) (listURL : String)
    (newList : FilterYAML) (isAllowlist : Bool) :
    ((s.step (.setURL c o listURL newList isAllowlist)).d.lists.map (·.url)).Nodup := by
  dsimp only [System.step]
  split
  · exact h
  rcases filterSetProperties_cases s.d s.files (o.fetch s.safe newList.url) listURL newList isAllowlist with
    ⟨err, hres⟩ | ⟨i, flt, -, hflt, hres⟩
  · rw [hres]
    exact h
  rw [hres]
  dsimp only
  have hurl := url_setProperties s.d (o.fetch s.safe newList.url) newList flt (s.files (flt.path s.d.dataDir))
  generalize s.d.setProperties (o.fetch s.safe newList.url) newList flt (s.files (flt.path s.d.dataDir)) = r at hurl
  obtain ⟨hold, hnew⟩ := perm_lists_set hflt r.1
  have hrest := List.nodup_cons.1 ((hold.map FilterYAML.url).nodup_iff.1 h)
  refine (hnew.map FilterYAML.url).nodup_iff.2 (List.nodup_cons.2 ⟨?_, hrest.2⟩)
  rcases hurl with hsame | ⟨hmoved, hfree⟩
  · rw [hsame]
    exact hrest.1
  · rw [hmoved]
    refine fun hmem => filterExists_eq_false hfree ((hold.map FilterYAML.url).mem_iff.2 ?_)
    exact List.mem_cons_of_mem _ hmem

/-- No order of requests and refreshes leads to two lists with one URL. -/
theorem urls_nodup_run (h : (s.d.lists.map (·.url)).Nodup) (ops : List Step) :
    ((run System.step s ops).d.lists.map (·.url)).Nodup := by
  refine run_invariant (I := fun s : System => (s.d.lists.map (·.url)).Nodup) (fun s op h => ?_) h ops
  have hsame : s.edit op = none → ((s.step op).d.lists.map (·.url)).Nodup := fun hnone =>
    (urls_of_no_edit hnone).symm ▸ h
  cases op with
  | filterAdd k => exact urls_filterAdd h k
  | removeURL rename url isAllowlist => exact urls_removeURL h rename url isAllowlist
  | setURL c o listURL newList isAllowlist => exact urls_setURL h c o listURL newList isAllowlist
  | listsToUpdate => exact hsame rfl
  | update => exact hsame rfl
  | sync => exact hsame rfl
  | removeOldFilterFile => exact hsame rfl
  | add => exact hsame rfl
  | download => exact hsame rfl

/-- Two requests that add the file of passwords by another path, at the same time. -/
def addTwice : List Step :=
  [.add 0 noChecks ⟨"", "/etc//passwd", false⟩, .add 1 noChecks ⟨"", "/etc//passwd", false⟩,
    .download 0 (machine ""), .download 1 (machine ""), .filterAdd 0, .filterAdd 1]

theorem urls_nodup_run_twice : ((run System.step passwdLists addTwice).d.lists.map (·.url)).Nodup :=
  urls_nodup_run (by decide) addTwice

end Entries

end DNSFilter

end AdGuardHome.Filtering
