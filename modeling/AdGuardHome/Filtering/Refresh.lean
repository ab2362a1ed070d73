import AdGuardHome.Filtering.Filters
import AdGuardHome.Lib.Run
import AdGuardHome.Rulelist.Parser

/-!
# Refreshing a rule list (`internal/filtering/filter.go`)

A list remembers the checksum of its rules, and a download replaces its file only if the checksum of what was
downloaded is another one.  The checksum sees the rules one after another with nothing between them, and the one of a
list that was unloaded is that of no rules at all, so a list is what was downloaded exactly when the downloaded rules
are not made of the same bytes as those that are remembered, or when the file has these rules already.
-/

namespace AdGuardHome.Filtering

open AdGuardHome.Lib AdGuardHome.Rulelist

/-! ## Downloads with their contents -/

/-- One download of a list. -/
structure Fetch where
  /-- The error of `aghrenameio.NewPendingFile`. -/
  newPendingFile : Option String
  /-- The body of the response or the file, or the error of getting at it. -/
  source : Except String Reader
  /-- The errors of the writes to the pending file. -/
  dst : Writer
  /-- The error of closing the source. -/
  close : Option String
  /-- The errors of `Cleanup` and `CloseReplace` on the pending file. -/
  cleanup : Option String
  closeReplace : Option String
  /-- The time after it. -/
  now : ℕ

/-- `DNSFilter.readFromHTTP` and `DNSFilter.readFromFile`: the result and what is in the pending file. -/
def Fetch.read (f : Fetch) : Except String (Rulelist.ParseResult × List UInt8) :=
  match f.source with
  | .error err => .error err
  | .ok src =>
    match Parser.parse f.dst src with
    | (_, _, some err) => .error err.text
    | (res, out, none) =>
      match f.close with
      | some err => .error err
      | none => .ok (res, out)

/-- Titles that are no text are shown with replacement characters. -/
def parseResult (res : Rulelist.ParseResult) : ParseResult :=
  ⟨String.ofList (runes res.title), res.rulesCount, res.checksum⟩

def Fetch.download (f : Fetch) : DNSFilter.Download where
  newPendingFile := f.newPendingFile
  read := f.read.map fun r => parseResult r.1
  cleanup := f.cleanup
  closeReplace := f.closeReplace
  now := f.now

/-- `FilterYAML.unload` -/
def FilterYAML.unload (filter : FilterYAML) : FilterYAML := { filter with rulesCount := 0, checksum := 0 }

namespace DNSFilter

/-- `DNSFilter.update` on a list and its file, which `CloseReplace` replaces with the pending one. -/
def updateFile (f : Fetch) (flt : FilterYAML) (file : Option (List UInt8)) :
    FilterYAML × Option (List UInt8) × Bool × Option String :=
  match update f.download flt, f.read with
  | (flt, true, none), .ok (_, out) => (flt, some out, true, none)
  | (flt, b, err), _ => (flt, file, b, err)

/-- `errFilterNotExist` -/
def errFilterNotExist : String := "url doesn't exist"

/-- The fields that `filterSetProperties` sets, with which another URL unloads the list. -/
def edit (newList flt : FilterYAML) : FilterYAML :=
  let flt := { flt with name := newList.name }
  let flt := if flt.url ≠ newList.url then { flt with url := newList.url, lastUpdated := 0 }.unload else flt
  { flt with enabled := newList.enabled }

/-- `shouldRestart` in `filterSetProperties` -/
def Restarts (newList flt : FilterYAML) : Prop := flt.url ≠ newList.url ∨ flt.enabled ≠ newList.enabled

instance (newList flt : FilterYAML) : Decidable (Restarts newList flt) := inferInstanceAs (Decidable (_ ∨ _))

/-- The body of `filterSetProperties` for the list that is found, before the fields are set back. -/
def setFields (d : DNSFilter) (f : Fetch) (newList flt : FilterYAML) (file : Option (List UInt8)) :
    FilterYAML × Option (List UInt8) × Bool × Option String :=
  if flt.url ≠ newList.url ∧ d.filterExists newList.url then
    ({ flt with name := newList.name }, file, false, some errFilterExists)
  else if !newList.enabled then ((edit newList flt).unload, file, decide (Restarts newList flt), none)
  else if ¬ Restarts newList flt then (edit newList flt, file, false, none)
  else updateFile f (edit newList flt) file

/-- The deferred function of `filterSetProperties`. -/
def setBack (old flt : FilterYAML) : FilterYAML :=
  { flt with url := old.url, name := old.name, enabled := old.enabled, lastUpdated := old.lastUpdated,
             rulesCount := old.rulesCount }

/-- `DNSFilter.filterSetProperties` on the list that is found and its file. -/
def setProperties (d : DNSFilter) (f : Fetch) (newList flt : FilterYAML) (file : Option (List UInt8)) :
    FilterYAML × Option (List UInt8) × Bool × Option String :=
  match d.setFields f newList flt file with
  | (flt', file, b, none) => (flt', file, b, none)
  | (flt', file, b, some err) => (setBack flt flt', file, b, some err)

/-- The allowlists or the blocklists. -/
def listsOf (d : DNSFilter) (isAllowlist : Bool) : List FilterYAML :=
  if isAllowlist then d.whitelistFilters else d.filters

def setListsOf (d : DNSFilter) (isAllowlist : Bool) (filters : List FilterYAML) : DNSFilter :=
  if isAllowlist then { d with whitelistFilters := filters } else { d with filters := filters }

/-- The contents of the files by their paths. -/
abbrev Files := String → Option (List UInt8)

/-- `DNSFilter.filterSetProperties` -/
def filterSetProperties (d : DNSFilter) (files : Files) (f : Fetch) (listURL : String) (newList : FilterYAML)
    (isAllowlist : Bool) : DNSFilter × Files × Bool × Option String :=
  match (d.listsOf isAllowlist).findIdx? (·.url == listURL) with
  | none => (d, files, false, some errFilterNotExist)
  | some i =>
    match (d.listsOf isAllowlist)[i]? with
    | none => (d, files, false, some errFilterNotExist)
    | some flt =>
      match d.setProperties f newList flt (files (flt.path d.dataDir)) with
      | (flt', file, b, err) =>
        (d.setListsOf isAllowlist ((d.listsOf isAllowlist).set i flt'), Function.update files (flt.path d.dataDir) file, b,
          err)

/-! ## What a list remembers -/

/-- `load` and the last update leave the number and the checksum of the rules in the file. -/
structure Current (flt : FilterYAML) (bytes : List UInt8) : Prop where
  accepted : (Parser.parse (fun _ => none) ⟨bytes, none⟩).2.2 = none
  rulesCount : flt.rulesCount = (ruleLines ⟨bytes, none⟩).length
  checksum : flt.checksum = Crc32.update 0 (ruleLines ⟨bytes, none⟩).flatten

/-- The rule count and the checksum come from the file, or the list has been unloaded. -/
def Kept (flt : FilterYAML) (file : Option (List UInt8)) : Prop :=
  flt.checksum = 0 ∨ ∃ bytes, file = some bytes ∧ Current flt bytes

/-- The bytes that the checksum of the list is taken to stand for: none if the list has been unloaded. -/
def remembered (flt : FilterYAML) (file : Option (List UInt8)) : List UInt8 :=
  if flt.checksum = 0 then [] else (ruleLines ⟨file.getD [], none⟩).flatten

/-- CRC-32 tells these texts apart. -/
def CrcInjective (texts : List (List UInt8)) : Prop :=
  ∀ x ∈ texts, ∀ y ∈ texts, Crc32.update 0 x = Crc32.update 0 y → x = y

instance (texts : List (List UInt8)) : Decidable (CrcInjective texts) :=
  inferInstanceAs (Decidable (∀ x ∈ texts, ∀ y ∈ texts, _ → _))

/-- The file of the list has exactly these rules, and their number is the rule count. -/
def UpToDate (rules : List (List UInt8)) (flt : FilterYAML) (file : Option (List UInt8)) : Prop :=
  file = some (unlines 10 rules) ∧ flt.rulesCount = rules.length

instance (rules : List (List UInt8)) (flt : FilterYAML) (file : Option (List UInt8)) :
    Decidable (UpToDate rules flt file) := inferInstanceAs (Decidable (_ ∧ _))

/-- What `load` finds in the file of a list. -/
def loaded (file : Option (List UInt8)) (modTime : ℕ) : Loaded :=
  match file with
  | none => .absent
  | some bytes =>
    match Parser.parse (fun _ => none) ⟨bytes, none⟩ with
    | (res, _, none) => .parsed (parseResult res) modTime
    | (_, _, some _) => .failed

section Update

variable {f : Fetch} {src : Reader} {flt : FilterYAML} {file : Option (List UInt8)}

theorem Kept.checksum (h : Kept flt file) : flt.checksum = Crc32.update 0 (remembered flt file) := by
  unfold remembered
  by_cases hzero : flt.checksum = 0
  · rw [if_pos hzero, Crc32.update_nil, hzero]
  · obtain ⟨bytes, rfl, hcurrent⟩ := h.resolve_left hzero
    rw [if_neg hzero]
    exact hcurrent.checksum

theorem Kept.congr (h : Kept flt file) {flt' : FilterYAML} (hsum : flt'.checksum = flt.checksum)
    (hcount : flt'.rulesCount = flt.rulesCount) : Kept flt' file := by
  rcases h with hzero | ⟨bytes, hfile, haccepted, hnumber, hfed⟩
  · exact .inl (hsum.trans hzero)
  · exact .inr ⟨bytes, hfile, haccepted, hcount.trans hnumber, hsum.trans hfed⟩

/-- A source that is read to its end. -/
theorem read_ok {res : Rulelist.ParseResult} {out : List UInt8} (h : f.read = .ok (res, out)) :
    ∃ src, f.source = .ok src ∧ Parser.parse f.dst src = (res, out, none) := by
  unfold Fetch.read at h
  cases hsrc : f.source with
  | error err =>
    rw [hsrc] at h
    cases h
  | ok src =>
    rw [hsrc] at h
    dsimp only at h
    refine ⟨src, rfl, ?_⟩
    split at h
    · cases h
    · rename_i hparse
      split at h
      · cases h
      · cases h
        exact hparse

/-- The results of an update: an error changes nothing but the time, and else the file is replaced if the checksum of
the source is new. -/
theorem updateFile_cases (f : Fetch) (flt : FilterYAML) (file : Option (List UInt8)) :
    (∃ b err, updateFile f flt file = ({ flt with lastUpdated := f.now }, file, b, some err)) ∨
      ∃ res out, f.read = .ok (res, out) ∧
        ((res.checksum = flt.checksum ∧ updateFile f flt file = ({ flt with lastUpdated := f.now }, file, false, none)) ∨
          (res.checksum ≠ flt.checksum ∧ updateFile f flt file =
            ({ flt.ensureName (parseResult res).title with
                checksum := res.checksum, rulesCount := res.rulesCount, lastUpdated := f.now }, some out, true, none))) := by
  unfold updateFile update updateIntl Fetch.download
  cases f.newPendingFile with
  | some err => exact .inl ⟨false, err, rfl⟩
  | none =>
    cases hread : f.read with
    | error err => exact .inl ⟨false, err, rfl⟩
    | ok r =>
      obtain ⟨res, out⟩ := r
      by_cases hsum : res.checksum = flt.checksum
      · have hsame : (parseResult res).checksum = flt.checksum := hsum
        simp only [Except.map, if_pos hsame]
        cases f.cleanup with
        | some err => exact .inl ⟨false, err, rfl⟩
        | none => exact .inr ⟨res, out, rfl, .inl ⟨hsum, rfl⟩⟩
      · have hnew : ¬ (parseResult res).checksum = flt.checksum := hsum
        simp only [Except.map, if_neg hnew]
        cases f.closeReplace with
        | some err => exact .inl ⟨true, _, rfl⟩
        | none => exact .inr ⟨res, out, rfl, .inr ⟨hsum, rfl⟩⟩

theorem current_unlines {rules : List (List UInt8)} (h : Clean rules) (hcount : flt.rulesCount = rules.length)
    (hsum : flt.checksum = Crc32.update 0 rules.flatten) : Current flt (unlines 10 rules) := by
  refine ⟨?_, ?_, ?_⟩
  · rw [parse_unlines h fun _ _ => rfl]
  · rw [ruleLines_unlines h, hcount]
  · rw [ruleLines_unlines h, hsum]

theorem Kept.updateFile (h : Kept flt file) (f : Fetch) :
    Kept (updateFile f flt file).1 (updateFile f flt file).2.1 := by
  rcases updateFile_cases f flt file with ⟨b', err, herr⟩ | ⟨res, out, hread, ⟨-, hsame⟩ | ⟨-, hnew⟩⟩
  · rw [herr]
    exact h.congr rfl rfl
  · rw [hsame]
    exact h.congr rfl rfl
  · obtain ⟨src, -, hparse⟩ := read_ok hread
    have hnone : (Parser.parse f.dst src).2.2 = none := by rw [hparse]
    obtain ⟨hout, ⟨title, htitle⟩, hclean⟩ := Parser.parse_ok hnone
    rw [hparse] at hout htitle
    dsimp only at hout htitle
    subst hout htitle
    rw [hnew]
    exact .inr ⟨_, rfl, current_unlines hclean rfl rfl⟩

theorem Kept.load (h : Kept flt file) {files : String → Loaded} {dataDir : String} {modTime : ℕ}
    (hfile : files (flt.path dataDir) = loaded file modTime) : Kept (load files dataDir flt) file := by
  unfold DNSFilter.load
  rw [hfile]
  cases file with
  | none => exact h
  | some bytes =>
    unfold loaded
    dsimp only
    cases hparse : (Parser.parse (fun _ => none) ⟨bytes, none⟩).2.2 with
    | some err =>
      rw [show Parser.parse (fun _ => none) ⟨bytes, none⟩ = (_, _, some err) from Prod.ext rfl (Prod.ext rfl hparse)]
      exact h
    | none =>
      obtain ⟨-, ⟨title, htitle⟩, -⟩ := Parser.parse_ok hparse
      rw [show Parser.parse (fun _ => none) ⟨bytes, none⟩ = (_, _, none) from
        Prod.ext htitle (Prod.ext rfl hparse)]
      exact .inr ⟨bytes, rfl, hparse, rfl, rfl⟩

/-- Only a checksum that is another one replaces the file. -/
theorem upToDate_updateFile_iff (hkept : Kept flt file) (hsrc : f.source = .ok src)
    (hcrc : Crc32.update 0 (ruleLines src).flatten = Crc32.update 0 (remembered flt file) →
      (ruleLines src).flatten = remembered flt file) {flt' : FilterYAML} {file' : Option (List UInt8)} {b : Bool}
    (hok : updateFile f flt file = (flt', file', b, none)) :
    UpToDate (ruleLines src) flt' file' ↔
      (ruleLines src).flatten ≠ remembered flt file ∨ UpToDate (ruleLines src) flt file := by
  rcases updateFile_cases f flt file with ⟨b', err, herr⟩ | ⟨res, out, hread, hres⟩
  · rw [herr] at hok
    cases hok
  obtain ⟨src', hsrc', hparse⟩ := read_ok hread
  cases hsrc.symm.trans hsrc'
  have hnone : (Parser.parse f.dst src).2.2 = none := by rw [hparse]
  obtain ⟨hout, ⟨title, htitle⟩, -⟩ := Parser.parse_ok hnone
  rw [hparse] at hout htitle
  dsimp only at hout htitle
  subst hout htitle
  rcases hres with ⟨hsum, hsame⟩ | ⟨hsum, hnew⟩
  · have hequal : (ruleLines src).flatten = remembered flt file := hcrc (hsum.trans hkept.checksum)
    rw [hsame] at hok
    cases hok
    exact ⟨.inr, fun h => h.resolve_left (not_not_intro hequal)⟩
  · rw [hnew] at hok
    cases hok
    refine iff_of_true ⟨rfl, rfl⟩ (.inl fun hequal => hsum ?_)
    rw [hkept.checksum, ← hequal]

end Update

section SetProperties

variable {d d' : DNSFilter} {files files' : Files} {f : Fetch} {src : Reader} {newList flt flt' : FilterYAML}
  {file file' : Option (List UInt8)} {isAllowlist b : Bool} {i : ℕ} {listURL : String}

theorem checksum_edit (newList flt : FilterYAML) :
    (edit newList flt).checksum = if flt.url ≠ newList.url then 0 else flt.checksum := by
  unfold edit
  dsimp only
  split <;> rfl

theorem rulesCount_edit (newList flt : FilterYAML) :
    (edit newList flt).rulesCount = if flt.url ≠ newList.url then 0 else flt.rulesCount := by
  unfold edit
  dsimp only
  split <;> rfl

theorem Kept.edit (h : Kept flt file) (newList : FilterYAML) : Kept (edit newList flt) file := by
  by_cases hmoved : flt.url ≠ newList.url
  · left
    rw [checksum_edit, if_pos hmoved]
  · exact h.congr ((checksum_edit _ _).trans (if_neg hmoved)) ((rulesCount_edit _ _).trans (if_neg hmoved))

theorem remembered_edit (newList flt : FilterYAML) (file : Option (List UInt8)) :
    remembered (edit newList flt) file = if flt.url ≠ newList.url then [] else remembered flt file := by
  unfold remembered
  rw [checksum_edit]
  by_cases hmoved : flt.url ≠ newList.url
  · rw [if_pos hmoved, if_pos hmoved, if_pos rfl]
  · rw [if_neg hmoved, if_neg hmoved]

/-- An error leaves the file, and the checksum unless the list has been unloaded before. -/
theorem setFields_error {err : String} (h : d.setFields f newList flt file = (flt', file', b, some err)) :
    file' = file ∧ (flt'.checksum = 0 ∨ flt'.checksum = flt.checksum) := by
  unfold setFields at h
  split at h
  · cases h
    exact ⟨rfl, .inr rfl⟩
  · split at h
    · cases h
    · split at h
      · cases h
      · rcases updateFile_cases f (edit newList flt) file with ⟨b', err', herr⟩ | ⟨res, out, -, ⟨-, hres⟩ | ⟨-, hres⟩⟩
        · rw [herr] at h
          cases h
          refine ⟨rfl, ?_⟩
          rw [checksum_edit]
          split
          · exact .inl rfl
          · exact .inr rfl
        · rw [hres] at h
          cases h
        · rw [hres] at h
          cases h

theorem Kept.setProperties (h : Kept flt file) (d : DNSFilter) (f : Fetch) (newList : FilterYAML) :
    Kept (d.setProperties f newList flt file).1 (d.setProperties f newList flt file).2.1 := by
  have hfields : Kept (d.setFields f newList flt file).1 (d.setFields f newList flt file).2.1 := by
    unfold setFields
    split
    · exact h.congr rfl rfl
    · split
      · exact .inl rfl
      · split
        · exact h.edit newList
        · exact (h.edit newList).updateFile f
  unfold DNSFilter.setProperties
  split
  · rename_i heq
    rwa [heq] at hfields
  · rename_i flt' file' b err heq
    obtain ⟨rfl, hsum⟩ := setFields_error heq
    rcases hsum with hzero | hsum
    · exact .inl hzero
    · exact h.congr hsum rfl

/-! ## The life of a list -/

/-- What happens to a list and its file. -/
inductive ListOp
  | load (modTime : ℕ)
  | update (f : Fetch)
  /-- A call of `filterSetProperties` that finds the list, with all the lists then. -/
  | setProperties (d : DNSFilter) (f : Fetch) (newList : FilterYAML)

def ListOp.apply : FilterYAML × Option (List UInt8) → ListOp → FilterYAML × Option (List UInt8)
  | (flt, file), .load modTime => (DNSFilter.load (fun _ => loaded file modTime) "" flt, file)
  | (flt, file), .update f => ((updateFile f flt file).1, (updateFile f flt file).2.1)
  | (flt, file), .setProperties d f newList =>
    ((d.setProperties f newList flt file).1, (d.setProperties f newList flt file).2.1)

/-- From the configuration on, where the checksum is not stored, the list remembers its file or nothing. -/
theorem kept_run (hzero : flt.checksum = 0) (ops : List ListOp) :
    Kept (run ListOp.apply (flt, file) ops).1 (run ListOp.apply (flt, file) ops).2 := by
  refine run_invariant (I := fun s : FilterYAML × Option (List UInt8) => Kept s.1 s.2) (fun s op h => ?_)
    (.inl hzero) ops
  cases op with
  | load modTime => exact h.load rfl
  | update f => exact h.updateFile f
  | setProperties d f newList => exact h.setProperties d f newList

/-! ## Refreshed lists -/

/-- The list after `setProperties` without an error. -/
theorem upToDate_setProperties_iff (hkept : Kept flt file) (hsrc : f.source = .ok src)
    (hcrc : CrcInjective [[], remembered flt file, (ruleLines src).flatten]) (hen : newList.enabled = true)
    (hok : d.setProperties f newList flt file = (flt', file', b, none)) :
    UpToDate (ruleLines src) flt' file' ↔
      (Restarts newList flt ∧ (ruleLines src).flatten ≠ remembered (edit newList flt) file) ∨
        UpToDate (ruleLines src) (edit newList flt) file := by
  have hfields : d.setFields f newList flt file = (flt', file', b, none) := by
    unfold DNSFilter.setProperties at hok
    split at hok
    · rename_i heq
      rw [heq, hok]
    · cases hok
  have hcrc' : Crc32.update 0 (ruleLines src).flatten = Crc32.update 0 (remembered (edit newList flt) file) →
      (ruleLines src).flatten = remembered (edit newList flt) file := by
    refine hcrc _ (by simp) _ ?_
    rw [remembered_edit]
    split <;> simp
  unfold setFields at hfields
  split at hfields
  · cases hfields
  · rw [hen, Bool.not_true, if_neg Bool.false_ne_true] at hfields
    by_cases hrestart : Restarts newList flt
    · rw [if_neg (not_not_intro hrestart)] at hfields
      rw [upToDate_updateFile_iff (hkept.edit newList) hsrc hcrc' hfields]
      simp [hrestart]
    · rw [if_pos hrestart] at hfields
      cases hfields
      simp [hrestart]

theorem listsOf_setListsOf (d : DNSFilter) (isAllowlist : Bool) (filters : List FilterYAML) :
    (d.setListsOf isAllowlist filters).listsOf isAllowlist = filters := by
  cases isAllowlist <;> rfl

theorem filterSetProperties_ok (hfind : (d.listsOf isAllowlist).findIdx? (·.url == listURL) = some i)
    (hflt : (d.listsOf isAllowlist)[i]? = some flt)
    (hok : d.filterSetProperties files f listURL newList isAllowlist = (d', files', b, none)) :
    ∃ flt', (d'.listsOf isAllowlist)[i]? = some flt' ∧
      d.setProperties f newList flt (files (flt.path d.dataDir)) =
        (flt', files' (flt.path d.dataDir), b, none) := by
  unfold filterSetProperties at hok
  rw [hfind] at hok
  dsimp only at hok
  rw [hflt] at hok
  obtain ⟨hi, -⟩ := List.getElem?_eq_some_iff.1 hflt
  obtain ⟨⟨flt', file', b', err⟩, hset⟩ : ∃ r, d.setProperties f newList flt (files (flt.path d.dataDir)) = r :=
    ⟨_, rfl⟩
  dsimp only at hok
  rw [hset] at hok
  cases hok
  rw [hset]
  refine ⟨flt', ?_, ?_⟩
  · rw [listsOf_setListsOf, List.getElem?_set_self hi]
  · rw [Function.update_self]

/-- An update that returns no error leaves the rules of the source exactly when they are not made of the bytes that
the list remembers or are those of the file already, and so does `filterSetProperties` if it has to update the list. -/
theorem refreshed_iff (hflt : (d.listsOf isAllowlist)[i]? = some flt)
    (hkept : Kept flt (files (flt.path d.dataDir))) (hsrc : f.source = .ok src)
    (hcrc : CrcInjective [[], remembered flt (files (flt.path d.dataDir)), (ruleLines src).flatten]) :
    (∀ flt' file' b, updateFile f flt (files (flt.path d.dataDir)) = (flt', file', b, none) →
      (UpToDate (ruleLines src) flt' file' ↔
        (ruleLines src).flatten ≠ remembered flt (files (flt.path d.dataDir)) ∨
          UpToDate (ruleLines src) flt (files (flt.path d.dataDir)))) ∧
      ∀ listURL newList d' files' b, (d.listsOf isAllowlist).findIdx? (·.url == listURL) = some i →
        newList.enabled = true → d.filterSetProperties files f listURL newList isAllowlist = (d', files', b, none) →
          ∃ flt', (d'.listsOf isAllowlist)[i]? = some flt' ∧
            (UpToDate (ruleLines src) flt' (files' (flt.path d.dataDir)) ↔
              (Restarts newList flt ∧
                (ruleLines src).flatten ≠ remembered (edit newList flt) (files (flt.path d.dataDir))) ∨
                UpToDate (ruleLines src) (edit newList flt) (files (flt.path d.dataDir))) := by
  refine ⟨fun flt' file' b hok => upToDate_updateFile_iff hkept hsrc (hcrc _ (by simp) _ (by simp)) hok,
    fun listURL newList d' files' b hfind hen hok => ?_⟩
  obtain ⟨flt', hflt', hset⟩ := filterSetProperties_ok hfind hflt hok
  exact ⟨flt', hflt', upToDate_setProperties_iff hkept hsrc hcrc hen hset⟩

/-- A list from a path whose file has two rules. -/
def blocklist : FilterYAML where
  enabled := true
  url := "/lists/ads.txt"
  name := "ads"
  rulesCount := 2
  lastUpdated := 0
  checksum := Crc32.update 0 (utf8 "||a^||b^".toList)
  white := false
  id := 1

/-- A download without failures. -/
def fetchOf (text : String) : Fetch :=
  ⟨none, .ok ⟨utf8 text.toList, none⟩, fun _ => none, none, none, none, 1⟩

def blocklists : DNSFilter := ⟨"/data", [blocklist], [], ⟨1⟩⟩

/-- The file of `blocklist`. -/
def twoRules : List UInt8 := utf8 "||a^\n||b^\n".toList

theorem kept_blocklist : Kept blocklist (some twoRules) :=
  .inr ⟨twoRules, rfl, by decide +kernel, by decide +kernel, by decide +kernel⟩

/-- The file of the list with another rule and a comment. -/
def moreRules : Fetch := fetchOf "! more\n||a^\n||b^\n||c^"

theorem source_moreRules : moreRules.source = .ok ⟨utf8 "! more\n||a^\n||b^\n||c^".toList, none⟩ := rfl

/-- The list with the rules of the file at another path. -/
def movedList : FilterYAML := { blocklist with url := "/lists/all.txt" }

/-- A rule is added, by an update and by moving the list to another path. -/
theorem refreshed_blocklist :
    (∃ flt' file', updateFile moreRules blocklist (some twoRules) = (flt', file', true, none) ∧
        UpToDate (ruleLines ⟨utf8 "! more\n||a^\n||b^\n||c^".toList, none⟩) flt' file') ∧
      ∃ d files flt', blocklists.filterSetProperties (fun _ => some twoRules) moreRules "/lists/ads.txt" movedList false =
          (d, files, true, none) ∧ (d.listsOf false)[0]? = some flt' ∧
        UpToDate (ruleLines ⟨utf8 "! more\n||a^\n||b^\n||c^".toList, none⟩) flt' (files (blocklist.path "/data")) := by
  obtain ⟨⟨flt', file', r⟩, hupdated⟩ : ∃ r, updateFile moreRules blocklist (some twoRules) = r := ⟨_, rfl⟩
  obtain rfl : r = (true, none) := (congrArg (·.2.2) hupdated).symm.trans (by decide +kernel)
  obtain ⟨⟨d, files, r⟩, hmoved⟩ : ∃ r, blocklists.filterSetProperties (fun _ => some twoRules) moreRules
    "/lists/ads.txt" movedList false = r := ⟨_, rfl⟩
  obtain rfl : r = (true, none) := (congrArg (·.2.2) hmoved).symm.trans (by decide +kernel)
  obtain ⟨hupdate, hset⟩ := @refreshed_iff blocklists (fun _ => some twoRules) moreRules
    ⟨utf8 "! more\n||a^\n||b^\n||c^".toList, none⟩ blocklist false 0 (by decide +kernel) kept_blocklist
    source_moreRules (by decide +kernel)
  obtain ⟨flt'', hflt'', hiff⟩ := hset "/lists/ads.txt" movedList d files true (by decide +kernel) rfl hmoved
  exact ⟨⟨flt', file', hupdated, (hupdate _ _ true hupdated).2 (.inl (by decide +kernel))⟩,
    d, files, flt'', hmoved, hflt'', hiff.2 (.inl (by decide +kernel))⟩

/-- The rules `||a^` and `||b^` become one rule of the same bytes, and the list keeps both. -/
theorem not_upToDate_joined :
    ¬ ∀ (f : Fetch) (src : Reader) (flt : FilterYAML) (file : Option (List UInt8)), flt.enabled = true → Kept flt file →
      f.source = .ok src → CrcInjective [[], remembered flt file, (ruleLines src).flatten] →
        ∀ flt' file' b, updateFile f flt file = (flt', file', b, none) → UpToDate (ruleLines src) flt' file' := by
  intro h
  have hjoined := h (fetchOf "||a^||b^\n") ⟨utf8 "||a^||b^\n".toList, none⟩ blocklist (some twoRules) rfl kept_blocklist
    rfl (by decide +kernel) { blocklist with lastUpdated := 1 } (some twoRules) false (by decide +kernel)
  exact absurd hjoined (by decide +kernel)

end SetProperties

end DNSFilter

end AdGuardHome.Filtering
