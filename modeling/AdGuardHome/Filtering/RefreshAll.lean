import AdGuardHome.Filtering.Refresh
import AdGuardHome.Filtering.UniqueIDs
import Mathlib.Data.List.Nodup

/-!
# Refreshing the rule lists (`internal/filtering/filter.go`, `filtering.go`)

`refreshFiltersIntl` updates the lists that are due, first the blocklists and then the allowlists, and gives the files
to the engine if it has updated any.  It leaves the engine alone if one of the two slices could not be updated at all,
and then the lists of the other one are new on the disk and old in the engine (`loaded_refreshFiltersIntl_iff`).
-/

namespace AdGuardHome.Filtering

open AdGuardHome.Lib AdGuardHome.Rulelist

namespace DNSFilter

/-! ## One slice of lists -/

/-- The copy of a list that `listsToUpdate` makes. -/
def copied (flt : FilterYAML) : FilterYAML where
  enabled := false
  url := flt.url
  name := flt.name
  rulesCount := 0
  lastUpdated := 0
  checksum := flt.checksum
  white := false
  id := flt.id

/-- The list is enabled and, unless `force` is set, it expired `ivl` after its last update. -/
def due (ivl now : ℕ) (force : Bool) (flt : FilterYAML) : Bool :=
  flt.enabled && (force || !decide (now < flt.lastUpdated + ivl))

/-- `DNSFilter.listsToUpdate` -/
def listsToUpdate (ivl now : ℕ) (force : Bool) (filters : List FilterYAML) : List FilterYAML :=
  (filters.filter (due ivl now force)).map copied

/-- `DNSFilter.updateFilterList`: the copies with their flags, the number of failures and the files.  `fetch` is what
the download of a copy answers. -/
def updateFilterList (dataDir : String) (fetch : FilterYAML → Fetch) (files : Files) :
    List FilterYAML → List (FilterYAML × Bool) × ℕ × Files
  | [] => ([], 0, files)
  | uf :: updateFilters =>
    match updateFile (fetch uf) uf (files (uf.path dataDir)) with
    | (uf', file, updated, err) =>
      match updateFilterList dataDir fetch (Function.update files (uf.path dataDir) file) updateFilters with
      | (done, failNum, files) => ((uf', updated) :: done, failNum + (if err.isSome then 1 else 0), files)

/-- The list is the one that was copied. -/
def isCopyOf (uf f : FilterYAML) : Bool := f.id == uf.id && f.url == uf.url

/-- The body of the inner loop of `syncUpdatedFilters`. -/
def syncOne (uf : FilterYAML) (updated : Bool) (f : FilterYAML) : FilterYAML :=
  if isCopyOf uf f then
    if updated then
      { f with lastUpdated := uf.lastUpdated, name := uf.name, rulesCount := uf.rulesCount, checksum := uf.checksum }
    else { f with lastUpdated := uf.lastUpdated }
  else f

/-- `DNSFilter.syncUpdatedFilters` -/
def syncUpdatedFilters (filters : List FilterYAML) : List (FilterYAML × Bool) → List FilterYAML × ℕ
  | [] => (filters, 0)
  | (uf, updated) :: updateFilters =>
    match syncUpdatedFilters (filters.map (syncOne uf updated)) updateFilters with
    | (filters', updateCount) => (filters', (if updated then filters.countP (isCopyOf uf) else 0) + updateCount)

/-- What a refresh meets. -/
structure Answers where
  ivl : ℕ
  /-- The time when the lists of a slice are chosen. -/
  now : ℕ
  fetch : FilterYAML → Fetch

/-- What `refreshFiltersArray` returns, with the lists and the files after it. -/
structure Refreshed where
  filters : List FilterYAML
  files : Files
  updateCount : ℕ := 0
  updateFilters : List (FilterYAML × Bool) := []
  isNetErr : Bool := false

/-- `DNSFilter.refreshFiltersArray` -/
def refreshFiltersArray (dataDir : String) (a : Answers) (force : Bool) (filters : List FilterYAML) (files : Files) :
    Refreshed :=
  match listsToUpdate a.ivl a.now force filters with
  | [] => { filters, files }
  | uf :: updateFilters =>
    match updateFilterList dataDir a.fetch files (uf :: updateFilters) with
    | (done, failNum, files) =>
      if failNum = (uf :: updateFilters).length then { filters, files, isNetErr := true }
      else
        match syncUpdatedFilters filters done with
        | (filters, updateCount) => { filters, files, updateCount, updateFilters := done }

/-! ## The engine -/

/-- `Filter` -/
structure Filter where
  id : ListID
  filePath : String := ""
  data : List UInt8 := []

/-- The rule lists of a `filterlist.RuleStorage`: the identifiers and the texts. -/
abbrev RuleTexts := List (ListID × List UInt8)

structure Engine where
  rulesStorage : RuleTexts
  rulesStorageAllow : RuleTexts
deriving DecidableEq

/-- What can go wrong when an engine is made. -/
structure Faults where
  /-- The error of opening the file of a filter, if it is there. -/
  openFile : Filter → Option String := fun _ => none
  /-- The error of `filterlist.NewRuleStorage`. -/
  newRuleStorage : RuleTexts → Option String := fun _ => none

/-- `ruleListFromFilter`; `none` if the filter is skipped. -/
def ruleListFromFilter (files : Files) (f : Filter) : Option (ListID × List UInt8) :=
  if f.data ≠ [] then some (f.id, f.data)
  else if f.filePath = "" then none
  else (files f.filePath).map fun text => (f.id, text)

/-- `newRuleStorage` -/
def newRuleStorage (faults : Faults) (files : Files) (filters : List Filter) : Except String RuleTexts :=
  match filters.findSome? faults.openFile with
  | some err => .error err
  | none =>
    match faults.newRuleStorage (filters.filterMap (ruleListFromFilter files)) with
    | some err => .error ("creating rule storage: " ++ err)
    | none => .ok (filters.filterMap (ruleListFromFilter files))

/-- `DNSFilter.initFiltering`: with an error the engine stays. -/
def initFiltering (faults : Faults) (files : Files) (blockFilters allowFilters : List Filter) (engine : Engine) :
    Engine :=
  match newRuleStorage faults files blockFilters, newRuleStorage faults files allowFilters with
  | .ok rulesStorage, .ok rulesStorageAllow => ⟨rulesStorage, rulesStorageAllow⟩
  | _, _ => engine

/-- `rulelist.IDCustom` -/
def idCustom : ListID := 0

/-- What `enableFiltersLocked` makes of the lists of a slice. -/
def enabledFilters (dataDir : String) (filters : List FilterYAML) : List Filter :=
  (filters.filter (·.enabled)).map fun flt => { id := flt.id, filePath := flt.path dataDir }

/-- The lists, their files and the engine that has been made of them. -/
structure Served where
  d : DNSFilter
  userRules : List String
  files : Files
  engine : Engine

/-- The blocklists with the custom rules, as `enableFiltersLocked` gives them to the engine. -/
def Served.blockFilters (s : Served) : List Filter :=
  { id := idCustom, data := utf8 ("\n".intercalate s.userRules).toList } :: enabledFilters s.d.dataDir s.d.filters

def Served.allowFilters (s : Served) : List Filter := enabledFilters s.d.dataDir s.d.whitelistFilters

/-- `DNSFilter.EnableFilters` without `async`. -/
def Served.enableFilters (faults : Faults) (s : Served) : Served :=
  { s with engine := initFiltering faults s.files s.blockFilters s.allowFilters s.engine }

/-- `removeOldFilterFile` -/
def removeOldFilterFile (files : Files) (fltPath : String) : Files := Function.update files (fltPath ++ ".old") none

/-- A slice that is refreshed if that is asked for. -/
def refreshIf (asked : Bool) (dataDir : String) (a : Answers) (force : Bool) (filters : List FilterYAML) (files : Files) :
    Refreshed :=
  if asked then refreshFiltersArray dataDir a force filters files else { filters, files }

/-- `DNSFilter.refreshFiltersIntl`, with `a` for each of the slices. -/
def Served.refreshFiltersIntl (faults : Faults) (a : Bool → Answers) (block allow force : Bool) (s : Served) :
    Served × ℕ × Bool :=
  let r := refreshIf block s.d.dataDir (a false) force s.d.filters s.files
  let rAl := refreshIf allow s.d.dataDir (a true) force s.d.whitelistFilters r.files
  let s' : Served := { s with d := { s.d with filters := r.filters, whitelistFilters := rAl.filters }, files := rAl.files }
  if r.isNetErr || rAl.isNetErr then (s', 0, true)
  else if r.updateCount + rAl.updateCount = 0 then (s', 0, false)
  else
    let lists := (r.updateFilters ++ rAl.updateFilters).filter (·.2)
    let s' := s'.enableFilters faults
    ({ s' with files := lists.foldl (fun files uf => removeOldFilterFile files (uf.1.path s.d.dataDir)) s'.files },
      r.updateCount + rAl.updateCount, false)

/-! ## The lists and the files after an update -/

section Lists

variable {dataDir : String} {fetch : FilterYAML → Fetch} {files : Files} {cs filters : List FilterYAML}
  {done : List (FilterYAML × Bool)}

theorem path_congr {f f' : FilterYAML} (h : f.id = f'.id) : f.path dataDir = f'.path dataDir := by
  unfold FilterYAML.path
  rw [h]

/-- The update of a list and its file. -/
def updateOf (dataDir : String) (fetch : FilterYAML → Fetch) (files : Files) (uf : FilterYAML) :
    FilterYAML × Option (List UInt8) × Bool × Option String :=
  updateFile (fetch uf) uf (files (uf.path dataDir))

theorem updateFile_id_url (f : Fetch) (flt : FilterYAML) (file : Option (List UInt8)) :
    (updateFile f flt file).1.id = flt.id ∧ (updateFile f flt file).1.url = flt.url := by
  rcases updateFile_cases f flt file with ⟨b, err, h⟩ | ⟨res, out, -, ⟨-, h⟩ | ⟨-, h⟩⟩
  · rw [h]
    exact ⟨rfl, rfl⟩
  · rw [h]
    exact ⟨rfl, rfl⟩
  · rw [h]
    exact ⟨ensureName_id _ _, ensureName_url _ _⟩

/-- The flag is set if the file is another one. -/
theorem updateFile_flag {f : Fetch} {flt : FilterYAML} {file : Option (List UInt8)}
    (h : (updateFile f flt file).2.1 ≠ file) :
    (updateFile f flt file).2.2 = (true, none) ∧ ∃ out, (updateFile f flt file).2.1 = some out := by
  rcases updateFile_cases f flt file with ⟨b, err, hres⟩ | ⟨res, out, -, ⟨-, hres⟩ | ⟨-, hres⟩⟩
  · rw [hres] at h
    exact absurd rfl h
  · rw [hres] at h
    exact absurd rfl h
  · rw [hres]
    exact ⟨rfl, out, rfl⟩

/-- Lists with different identifiers do not get into each other's way. -/
theorem updateFilterList_spec (hids : (cs.map (·.id)).Nodup) :
    (updateFilterList dataDir fetch files cs).1 =
        cs.map (fun uf => ((updateOf dataDir fetch files uf).1, (updateOf dataDir fetch files uf).2.2.1)) ∧
      (updateFilterList dataDir fetch files cs).2.1 =
        cs.countP (fun uf => (updateOf dataDir fetch files uf).2.2.2.isSome) ∧
      (∀ uf ∈ cs, (updateFilterList dataDir fetch files cs).2.2 (uf.path dataDir) =
        (updateOf dataDir fetch files uf).2.1) ∧
      ∀ p, (∀ uf ∈ cs, uf.path dataDir ≠ p) → (updateFilterList dataDir fetch files cs).2.2 p = files p := by
  induction cs generalizing files with
  | nil => exact ⟨rfl, rfl, by simp, fun _ _ => rfl⟩
  | cons c cs ih =>
    obtain ⟨hnotin, htail⟩ := List.nodup_cons.1 hids
    have hpath : ∀ uf ∈ cs, uf.path dataDir ≠ c.path dataDir := fun uf huf heq =>
      hnotin (List.mem_map.2 ⟨uf, huf, FilterYAML.path_inj heq⟩)
    generalize hfiles' : Function.update files (c.path dataDir) (updateOf dataDir fetch files c).2.1 = files'
    obtain ⟨hdone, hfail, hmem, hrest⟩ := @ih files' htail
    subst hfiles'
    have hsame : ∀ uf ∈ cs, updateOf dataDir fetch (Function.update files (c.path dataDir)
        (updateOf dataDir fetch files c).2.1) uf = updateOf dataDir fetch files uf := by
      intro uf huf
      unfold updateOf
      rw [Function.update_of_ne (hpath uf huf)]
    have hcons : updateFilterList dataDir fetch files (c :: cs) =
        (let r := updateFilterList dataDir fetch (Function.update files (c.path dataDir)
          (updateOf dataDir fetch files c).2.1) cs
        (((updateOf dataDir fetch files c).1, (updateOf dataDir fetch files c).2.2.1) :: r.1,
          r.2.1 + (if (updateOf dataDir fetch files c).2.2.2.isSome then 1 else 0), r.2.2)) := rfl
    rw [hcons]
    refine ⟨?_, ?_, ?_, ?_⟩
    · rw [List.map_cons]
      exact congrArg _ (hdone.trans (List.map_congr_left fun uf huf => by rw [hsame uf huf]))
    · rw [List.countP_cons]
      exact congrArg (· + _) (hfail.trans (List.countP_congr fun uf huf => by rw [hsame uf huf]))
    · intro uf huf
      rcases List.mem_cons.1 huf with rfl | huf
      · exact (hrest _ fun uf' huf' => hpath uf' huf').trans (Function.update_self ..)
      · exact (hmem uf huf).trans (by rw [hsame uf huf])
    · intro p hp
      exact (hrest p fun uf huf => hp uf (List.mem_cons_of_mem _ huf)).trans
        (Function.update_of_ne (hp c (by simp)).symm _ _)

/-- What `syncUpdatedFilters` does not touch. -/
theorem map_syncUpdatedFilters {α : Type} {g : FilterYAML → α} (hg : ∀ uf b f, g (syncOne uf b f) = g f)
    (filters : List FilterYAML) (done : List (FilterYAML × Bool)) :
    (syncUpdatedFilters filters done).1.map g = filters.map g := by
  induction done generalizing filters with
  | nil => rfl
  | cons c done ih =>
    refine (ih _).trans ?_
    rw [List.map_map]
    exact List.map_congr_left fun f _ => hg c.1 c.2 f

theorem syncOne_key (uf : FilterYAML) (b : Bool) (f : FilterYAML) :
    (syncOne uf b f).id = f.id ∧ (syncOne uf b f).url = f.url ∧ (syncOne uf b f).enabled = f.enabled := by
  unfold syncOne
  split
  · split <;> exact ⟨rfl, rfl, rfl⟩
  · exact ⟨rfl, rfl, rfl⟩

/-- A list that is updated is counted. -/
theorem syncUpdatedFilters_pos {uf f : FilterYAML} (huf : (uf, true) ∈ done) (hf : f ∈ filters)
    (hcopy : isCopyOf uf f = true) : 0 < (syncUpdatedFilters filters done).2 := by
  induction done generalizing filters f with
  | nil => cases huf
  | cons c done ih =>
    rcases List.mem_cons.1 huf with rfl | huf
    · have hpos : 0 < filters.countP (isCopyOf uf) := List.countP_pos_iff.2 ⟨f, hf, hcopy⟩
      exact Nat.add_pos_left hpos _
    · obtain ⟨hid, hurl, -⟩ := syncOne_key c.1 c.2 f
      refine Nat.add_pos_right _ (ih huf (List.mem_map_of_mem hf) ?_)
      unfold isCopyOf at hcopy ⊢
      rw [hid, hurl]
      exact hcopy

theorem mem_listsToUpdate {ivl now : ℕ} {force : Bool} {uf : FilterYAML}
    (h : uf ∈ listsToUpdate ivl now force filters) : ∃ f ∈ filters, f.enabled = true ∧ uf = copied f := by
  obtain ⟨f, hf, rfl⟩ := List.mem_map.1 h
  obtain ⟨hf, hdue⟩ := List.mem_filter.1 hf
  exact ⟨f, hf, (Bool.and_eq_true_iff.1 hdue).1, rfl⟩

theorem nodup_listsToUpdate (hids : (filters.map (·.id)).Nodup) (ivl now : ℕ) (force : Bool) :
    ((listsToUpdate ivl now force filters).map (·.id)).Nodup := by
  unfold listsToUpdate
  rw [List.map_map]
  exact hids.sublist (List.filter_sublist.map _)

/-- What the engine knows of a list. -/
def key (flt : FilterYAML) : ListID × Bool := (flt.id, flt.enabled)

/-- What a refresh of a slice leaves, `cs` being the copies of the lists that are due. -/
structure ArrayRefreshed (dataDir : String) (fetch : FilterYAML → Fetch) (cs filters : List FilterYAML) (files : Files)
    (r : Refreshed) : Prop where
  keys : r.filters.map key = filters.map key
  isNetErr : r.isNetErr = true ↔ cs ≠ [] ∧ ∀ uf ∈ cs, (updateOf dataDir fetch files uf).2.2.2.isSome = true
  updated : ∀ uf ∈ cs, r.files (uf.path dataDir) = (updateOf dataDir fetch files uf).2.1
  others : ∀ p, (∀ uf ∈ cs, uf.path dataDir ≠ p) → r.files p = files p
  counted : r.isNetErr = false → (∃ uf ∈ cs, (updateOf dataDir fetch files uf).2.1 ≠ files (uf.path dataDir)) →
    0 < r.updateCount

theorem arrayRefreshed_nil (dataDir : String) (fetch : FilterYAML → Fetch) (filters : List FilterYAML) (files : Files) :
    ArrayRefreshed dataDir fetch [] filters files { filters, files } :=
  ⟨rfl, by simp, by simp, fun _ _ => rfl, by simp⟩

theorem refreshFiltersArray_spec (hids : (filters.map (·.id)).Nodup) (a : Answers) (force : Bool) :
    ArrayRefreshed dataDir a.fetch (listsToUpdate a.ivl a.now force filters) filters files
      (refreshFiltersArray dataDir a force filters files) := by
  have hnodup := nodup_listsToUpdate hids a.ivl a.now force
  have hmem : ∀ uf ∈ listsToUpdate a.ivl a.now force filters, ∃ f ∈ filters, f.enabled = true ∧ uf = copied f :=
    fun uf huf => mem_listsToUpdate huf
  unfold refreshFiltersArray
  generalize listsToUpdate a.ivl a.now force filters = cs at hnodup hmem
  cases cs with
  | nil => exact arrayRefreshed_nil _ _ _ _
  | cons c cs =>
    obtain ⟨hdone, hfail, hupdated, hothers⟩ := @updateFilterList_spec dataDir a.fetch files _ hnodup
    obtain ⟨⟨done, failNum, files'⟩, hlist⟩ : ∃ r, updateFilterList dataDir a.fetch files (c :: cs) = r := ⟨_, rfl⟩
    rw [hlist] at hdone hfail hupdated hothers
    dsimp only at hdone hfail hupdated hothers
    dsimp only
    rw [hlist]
    dsimp only
    have hall : failNum = (c :: cs).length ↔
        ∀ uf ∈ c :: cs, (updateOf dataDir a.fetch files uf).2.2.2.isSome = true := by
      rw [hfail, List.countP_eq_length]
    by_cases hnet : failNum = (c :: cs).length
    · rw [if_pos hnet]
      exact ⟨rfl, iff_of_true rfl ⟨List.cons_ne_nil _ _, hall.1 hnet⟩, hupdated, hothers, fun h => by cases h⟩
    · rw [if_neg hnet]
      refine ⟨?_, iff_of_false Bool.false_ne_true fun h => hnet (hall.2 h.2), hupdated, hothers, fun _ h => ?_⟩
      · refine map_syncUpdatedFilters (fun uf b f => ?_) filters done
        obtain ⟨hid, -, hen⟩ := syncOne_key uf b f
        rw [key, hid, hen]
        rfl
      · obtain ⟨uf, huf, hnew⟩ := h
        obtain ⟨f, hf, -, rfl⟩ := hmem uf huf
        have hflag := (updateFile_flag hnew).1
        obtain ⟨hid, hurl⟩ := updateFile_id_url (a.fetch (copied f)) (copied f) (files ((copied f).path dataDir))
        have hmem' : ((updateOf dataDir a.fetch files (copied f)).1, true) ∈ done := by
          rw [hdone]
          refine List.mem_map.2 ⟨copied f, huf, ?_⟩
          exact congrArg (Prod.mk _) (congrArg Prod.fst hflag)
        refine syncUpdatedFilters_pos hmem' hf ?_
        unfold isCopyOf updateOf
        rw [hid, hurl]
        exact Bool.and_eq_true_iff.2 ⟨beq_self_eq_true _, beq_self_eq_true _⟩

theorem refreshIf_spec (hids : (filters.map (·.id)).Nodup) (asked : Bool) (a : Answers) (force : Bool) :
    ArrayRefreshed dataDir a.fetch (if asked then listsToUpdate a.ivl a.now force filters else []) filters files
      (refreshIf asked dataDir a force filters files) := by
  cases asked with
  | false => exact arrayRefreshed_nil _ _ _ _
  | true => exact refreshFiltersArray_spec hids a force

end Lists

/-! ## The engine after a refresh -/

section Engine

variable {s : Served} {faults : Faults} {files files' : Files} {filters filters' : List FilterYAML} {dataDir : String}

/-- The texts of the filters that are there. -/
def texts (files : Files) (filters : List Filter) : RuleTexts := filters.filterMap (ruleListFromFilter files)

/-- The engine has been made of the enabled lists and their files as they are. -/
def Served.Loaded (s : Served) : Prop :=
  s.engine = ⟨texts s.files s.blockFilters, texts s.files s.allowFilters⟩

instance (s : Served) : Decidable s.Loaded := inferInstanceAs (Decidable (_ = _))

/-- Files can be opened, and `filterlist.NewRuleStorage` takes lists with different identifiers. -/
structure Faults.None (faults : Faults) : Prop where
  openFile : ∀ f, faults.openFile f = none
  newRuleStorage : ∀ texts : RuleTexts, (texts.map (·.1)).Nodup → faults.newRuleStorage texts = none

theorem ruleListFromFilter_id {f : Filter} {text : ListID × List UInt8}
    (h : ruleListFromFilter files f = some text) : text.1 = f.id := by
  unfold ruleListFromFilter at h
  split at h
  · cases h
    rfl
  · split at h
    · cases h
    · obtain ⟨bytes, -, rfl⟩ := Option.map_eq_some_iff.1 h
      rfl

theorem texts_nodup {filters : List Filter} (h : (filters.map (·.id)).Nodup) :
    ((texts files filters).map (·.1)).Nodup := by
  unfold texts
  induction filters with
  | nil => exact List.nodup_nil
  | cons f filters ih =>
    obtain ⟨hnotin, htail⟩ := List.nodup_cons.1 h
    rw [List.filterMap_cons]
    cases hf : ruleListFromFilter files f with
    | none => exact ih htail
    | some text =>
      refine List.nodup_cons.2 ⟨fun hmem => ?_, ih htail⟩
      obtain ⟨text', htext', heq⟩ := List.mem_map.1 hmem
      obtain ⟨f', hf', hsome⟩ := List.mem_filterMap.1 htext'
      refine hnotin (List.mem_map.2 ⟨f', hf', ?_⟩)
      exact (ruleListFromFilter_id hsome).symm.trans (heq.trans (ruleListFromFilter_id hf))

theorem newRuleStorage_ok (hfaults : faults.None) {filters : List Filter} (h : (filters.map (·.id)).Nodup) :
    newRuleStorage faults files filters = .ok (texts files filters) := by
  have hopen : filters.findSome? faults.openFile = none :=
    List.findSome?_eq_none_iff.2 fun f _ => hfaults.openFile f
  have hstorage : faults.newRuleStorage (texts files filters) = none := hfaults.newRuleStorage _ (texts_nodup h)
  unfold texts at hstorage
  unfold newRuleStorage
  rw [hopen]
  dsimp only
  rw [hstorage]
  rfl

/-- What `enabledFilters` makes of a list, from its key. -/
def keyFilter (dataDir : String) (k : ListID × Bool) : Option Filter :=
  if k.2 then some { id := k.1, filePath := FilterYAML.path dataDir ⟨false, "", "", 0, 0, 0, false, k.1⟩ } else none

theorem enabledFilters_eq (dataDir : String) (filters : List FilterYAML) :
    enabledFilters dataDir filters = (filters.map key).filterMap (keyFilter dataDir) := by
  unfold enabledFilters
  induction filters with
  | nil => rfl
  | cons f filters ih =>
    rw [List.map_cons, List.filter_cons]
    cases hen : f.enabled with
    | false =>
      have hnone : keyFilter dataDir (key f) = none := by simp [keyFilter, key, hen]
      rw [List.filterMap_cons_none hnone]
      exact ih
    | true =>
      have hsome : keyFilter dataDir (key f) = some { id := f.id, filePath := f.path dataDir } := by
        have hpath : FilterYAML.path dataDir ⟨false, "", "", 0, 0, 0, false, f.id⟩ = f.path dataDir := path_congr rfl
        simp [keyFilter, key, hen, hpath]
      rw [List.filterMap_cons_some hsome, ← ih]
      rfl

theorem enabledFilters_congr (h : filters'.map key = filters.map key) :
    enabledFilters dataDir filters' = enabledFilters dataDir filters := by
  rw [enabledFilters_eq, enabledFilters_eq, h]

theorem mem_enabledFilters {f : Filter} (h : f ∈ enabledFilters dataDir filters) :
    ∃ flt ∈ filters, flt.enabled = true ∧ f = { id := flt.id, filePath := flt.path dataDir } := by
  obtain ⟨flt, hflt, rfl⟩ := List.mem_map.1 h
  obtain ⟨hflt, hen⟩ := List.mem_filter.1 hflt
  exact ⟨flt, hflt, hen, rfl⟩

/-- The text of an enabled list in the engine is that of its file. -/
theorem mem_texts {flt : FilterYAML} (hflt : flt ∈ filters) (hen : flt.enabled = true) {text : List UInt8} :
    (flt.id, text) ∈ texts files (enabledFilters dataDir filters) ↔ files (flt.path dataDir) = some text := by
  have hne : ∀ g : FilterYAML, g.path dataDir ≠ "" := by
    intro g h
    have hlist := congrArg String.toList h
    obtain ⟨pre, hpre⟩ := Filepath.join_ends dataDir.toList FilterYAML.ordinary_filterDir
    rw [FilterYAML.path, hpre _ (FilterYAML.ordinary_fileName _)] at hlist
    simp at hlist
  have htext : ∀ g : FilterYAML, ruleListFromFilter files { id := g.id, filePath := g.path dataDir } =
      (files (g.path dataDir)).map fun text => (g.id, text) := by
    intro g
    simp [ruleListFromFilter, hne g]
  unfold texts
  rw [List.mem_filterMap]
  constructor
  · rintro ⟨f, hf, hsome⟩
    obtain ⟨g, hg, -, rfl⟩ := mem_enabledFilters hf
    have hid : flt.id = g.id := ruleListFromFilter_id hsome
    rw [htext g] at hsome
    obtain ⟨bytes, hbytes, heq⟩ := Option.map_eq_some_iff.1 hsome
    rw [path_congr hid, hbytes, (Prod.mk.inj heq).2]
  · intro h
    refine ⟨{ id := flt.id, filePath := flt.path dataDir },
      List.mem_map.2 ⟨flt, List.mem_filter.2 ⟨hflt, hen⟩, rfl⟩, ?_⟩
    rw [htext, h]
    rfl

theorem texts_congr {filters : List Filter} (h : ∀ f ∈ filters, files' f.filePath = files f.filePath) :
    texts files' filters = texts files filters := by
  unfold texts
  refine List.filterMap_congr fun f hf => ?_
  unfold ruleListFromFilter
  rw [h f hf]

/-- Old files are not those of lists. -/
theorem path_ne_old (flt : FilterYAML) (dataDir p : String) : flt.path dataDir ≠ p ++ ".old" := by
  intro h
  obtain ⟨pre, hpre⟩ := Filepath.join_ends dataDir.toList FilterYAML.ordinary_filterDir
  have hlist := congrArg (List.reverse ∘ String.toList) h
  rw [FilterYAML.path, hpre _ (FilterYAML.ordinary_fileName _)] at hlist
  simp at hlist

/-- The lists of a slice that a refresh updates, as copies. -/
def Served.toUpdate (s : Served) (a : Bool → Answers) (block allow force isAllowlist : Bool) : List FilterYAML :=
  if (if isAllowlist then allow else block) then
    listsToUpdate (a isAllowlist).ivl (a isAllowlist).now force (s.d.listsOf isAllowlist)
  else []

/-- There are lists to update in the slice, and none of them can be had. -/
def Served.Fails (s : Served) (a : Bool → Answers) (block allow force isAllowlist : Bool) : Prop :=
  s.toUpdate a block allow force isAllowlist ≠ [] ∧ ∀ uf ∈ s.toUpdate a block allow force isAllowlist,
    (updateOf s.d.dataDir (a isAllowlist).fetch s.files uf).2.2.2.isSome = true

/-- A list of the slice gets another file. -/
def Served.Renews (s : Served) (a : Bool → Answers) (block allow force isAllowlist : Bool) : Prop :=
  ∃ uf ∈ s.toUpdate a block allow force isAllowlist,
    (updateOf s.d.dataDir (a isAllowlist).fetch s.files uf).2.1 ≠ s.files (uf.path s.d.dataDir)

instance (s : Served) (a : Bool → Answers) (block allow force isAllowlist : Bool) :
    Decidable (s.Fails a block allow force isAllowlist) := inferInstanceAs (Decidable (_ ∧ ∀ uf ∈ _, _))

instance (s : Served) (a : Bool → Answers) (block allow force isAllowlist : Bool) :
    Decidable (s.Renews a block allow force isAllowlist) := inferInstanceAs (Decidable (∃ uf ∈ _, _))

variable {a : Bool → Answers} {block allow force isAllowlist : Bool}

theorem mem_toUpdate {uf : FilterYAML} (h : uf ∈ s.toUpdate a block allow force isAllowlist) :
    ∃ f ∈ s.d.listsOf isAllowlist, f.enabled = true ∧ uf = copied f := by
  unfold Served.toUpdate at h
  generalize (if isAllowlist then allow else block) = asked at h
  cases asked with
  | false => cases h
  | true => exact mem_listsToUpdate h

/-- A refresh updates the lists of both slices as they are before it. -/
theorem refreshed_slices (hids : s.d.ids.Nodup) (a : Bool → Answers) (block allow force : Bool) :
    ∃ r rAl : Refreshed, r = refreshIf block s.d.dataDir (a false) force s.d.filters s.files ∧
      rAl = refreshIf allow s.d.dataDir (a true) force s.d.whitelistFilters r.files ∧
      r.filters.map key = s.d.filters.map key ∧ rAl.filters.map key = s.d.whitelistFilters.map key ∧
      (r.isNetErr = true ↔ s.Fails a block allow force false) ∧
      (rAl.isNetErr = true ↔ s.Fails a block allow force true) ∧
      (r.isNetErr = false → s.Renews a block allow force false → 0 < r.updateCount) ∧
      (rAl.isNetErr = false → s.Renews a block allow force true → 0 < rAl.updateCount) ∧
      (∀ isAllowlist, ∀ uf ∈ s.toUpdate a block allow force isAllowlist, rAl.files (uf.path s.d.dataDir) =
        (updateOf s.d.dataDir (a isAllowlist).fetch s.files uf).2.1) ∧
      ∀ p, (∀ isAllowlist, ∀ uf ∈ s.toUpdate a block allow force isAllowlist, uf.path s.d.dataDir ≠ p) →
        rAl.files p = s.files p := by
  have hids' : (s.d.filters.map (·.id) ++ s.d.whitelistFilters.map (·.id)).Nodup := by
    rw [← List.map_append]
    exact hids
  obtain ⟨hblock, hallow, hdisjoint⟩ := List.nodup_append.1 hids'
  have hr := @refreshIf_spec s.d.dataDir s.files _ hblock block (a false) force
  have hrAl := @refreshIf_spec s.d.dataDir (refreshIf block s.d.dataDir (a false) force s.d.filters s.files).files _ hallow
    allow (a true) force
  generalize hreq : refreshIf block s.d.dataDir (a false) force s.d.filters s.files = r at hr hrAl
  generalize hrAleq : refreshIf allow s.d.dataDir (a true) force s.d.whitelistFilters r.files = rAl at hrAl
  change ArrayRefreshed _ _ (s.toUpdate a block allow force false) _ _ _ at hr
  change ArrayRefreshed _ _ (s.toUpdate a block allow force true) _ _ _ at hrAl
  have hapart : ∀ uf ∈ s.toUpdate a block allow force false, ∀ uf' ∈ s.toUpdate a block allow force true,
      uf.path s.d.dataDir ≠ uf'.path s.d.dataDir := by
    intro uf huf uf' huf' heq
    obtain ⟨f, hf, -, rfl⟩ := mem_toUpdate huf
    obtain ⟨f', hf', -, rfl⟩ := mem_toUpdate huf'
    exact hdisjoint _ (List.mem_map_of_mem hf) _ (List.mem_map_of_mem hf')
      (show f.id = f'.id from FilterYAML.path_inj heq)
  have hsame : ∀ uf ∈ s.toUpdate a block allow force true,
      updateOf s.d.dataDir (a true).fetch r.files uf = updateOf s.d.dataDir (a true).fetch s.files uf ∧
        r.files (uf.path s.d.dataDir) = s.files (uf.path s.d.dataDir) := by
    intro uf huf
    have hfile := hr.others (uf.path s.d.dataDir) fun uf' huf' => hapart uf' huf' uf huf
    unfold updateOf
    rw [hfile]
    exact ⟨rfl, rfl⟩
  refine ⟨r, rAl, rfl, hrAleq.symm, hr.keys, hrAl.keys, hr.isNetErr, ?_, hr.counted, ?_, ?_, ?_⟩
  · rw [hrAl.isNetErr]
    exact and_congr_right fun _ => forall₂_congr fun uf huf => by rw [(hsame uf huf).1]
  · rintro hnet ⟨uf, huf, hnew⟩
    refine hrAl.counted hnet ⟨uf, huf, ?_⟩
    rw [(hsame uf huf).1, (hsame uf huf).2]
    exact hnew
  · intro isAllowlist uf huf
    cases isAllowlist with
    | false => exact (hrAl.others _ fun uf' huf' heq => hapart uf huf uf' huf' heq.symm).trans (hr.updated uf huf)
    | true => rw [hrAl.updated uf huf, (hsame uf huf).1]
  · intro p hp
    exact (hrAl.others p (hp true)).trans (hr.others p (hp false))

/-- The files are what the engine was made of, unless a list has another file. -/
theorem texts_ne (hids : (idCustom :: s.d.ids).Nodup) {files : Files}
    (hupdated : ∀ isAllowlist, ∀ uf ∈ s.toUpdate a block allow force isAllowlist, files (uf.path s.d.dataDir) =
      (updateOf s.d.dataDir (a isAllowlist).fetch s.files uf).2.1)
    (hnew : s.Renews a block allow force isAllowlist) :
    (⟨texts s.files s.blockFilters, texts s.files s.allowFilters⟩ : Engine) ≠
      ⟨texts files s.blockFilters, texts files s.allowFilters⟩ := by
  obtain ⟨uf, huf, hnew⟩ := hnew
  obtain ⟨f, hf, hen, rfl⟩ := mem_toUpdate huf
  obtain ⟨-, out, hout⟩ := updateFile_flag hnew
  have hpath : (copied f).path s.d.dataDir = f.path s.d.dataDir := path_congr rfl
  have hfile : files (f.path s.d.dataDir) = some out := by
    rw [← hpath, hupdated isAllowlist _ huf]
    exact hout
  have hold : s.files (f.path s.d.dataDir) ≠ some out := by
    intro h
    rw [← hpath, ← hout] at h
    exact hnew h.symm
  intro heq
  cases isAllowlist with
  | true =>
    have hmem : (f.id, out) ∈ texts files s.allowFilters := (mem_texts hf hen).2 hfile
    rw [← (Engine.mk.inj heq).2] at hmem
    exact hold ((mem_texts hf hen).1 hmem)
  | false =>
    have hcustom : f.id ≠ idCustom := fun h => (List.nodup_cons.1 hids).1
      (h ▸ List.mem_map_of_mem (List.mem_append_left _ hf))
    have hskip : ∀ files : Files, (f.id, out) ∈ texts files s.blockFilters ↔
        (f.id, out) ∈ texts files (enabledFilters s.d.dataDir s.d.filters) := by
      intro files
      unfold texts Served.blockFilters
      rw [List.filterMap_cons]
      split
      · exact Iff.rfl
      · rename_i text htext
        refine List.mem_cons.trans (or_iff_right fun h => hcustom ?_)
        exact (congrArg Prod.fst h).trans (ruleListFromFilter_id htext)
    have hmem : (f.id, out) ∈ texts files s.blockFilters := (hskip files).2 ((mem_texts hf hen).2 hfile)
    rw [← (Engine.mk.inj heq).1, hskip] at hmem
    exact hold ((mem_texts hf hen).1 hmem)

/-- The files of the lists are not removed with the old ones. -/
theorem texts_removeOld (olds : List (FilterYAML × Bool)) (files : Files) (filters : List Filter)
    (hfilters : ∀ f ∈ filters, f.filePath = "" ∨ ∃ flt : FilterYAML, f.filePath = flt.path dataDir) :
    texts (olds.foldl (fun files uf => removeOldFilterFile files (uf.1.path dataDir)) files) filters =
      texts files filters := by
  induction olds generalizing files with
  | nil => rfl
  | cons uf olds ih =>
    refine (ih _).trans (texts_congr fun f hf => Function.update_of_ne ?_ _ _)
    rcases hfilters f hf with h | ⟨flt, h⟩
    · rw [h]
      intro heq
      have hlist := congrArg String.toList heq
      simp at hlist
    · rw [h]
      exact path_ne_old flt dataDir _

theorem filePath_blockFilters {f : Filter} (h : f ∈ s.blockFilters) :
    f.filePath = "" ∨ ∃ flt : FilterYAML, f.filePath = flt.path s.d.dataDir := by
  rcases List.mem_cons.1 h with rfl | h
  · exact .inl rfl
  · obtain ⟨flt, -, -, rfl⟩ := mem_enabledFilters h
    exact .inr ⟨flt, rfl⟩

theorem filePath_allowFilters {f : Filter} (h : f ∈ s.allowFilters) :
    f.filePath = "" ∨ ∃ flt : FilterYAML, f.filePath = flt.path s.d.dataDir := by
  obtain ⟨flt, -, -, rfl⟩ := mem_enabledFilters h
  exact .inr ⟨flt, rfl⟩

theorem ids_enabledFilters_sublist (dataDir : String) (filters : List FilterYAML) :
    ((enabledFilters dataDir filters).map (·.id)).Sublist (filters.map (·.id)) := by
  unfold enabledFilters
  rw [List.map_map]
  exact List.filter_sublist.map _

/-- Without faults the engine is made of the lists as they are. -/
theorem loaded_enableFilters (hfaults : faults.None) (hids : (idCustom :: s.d.ids).Nodup) :
    (s.enableFilters faults).Loaded := by
  obtain ⟨hcustom, hids⟩ := List.nodup_cons.1 hids
  have hids' : (s.d.filters.map (·.id) ++ s.d.whitelistFilters.map (·.id)).Nodup := by
    rw [← List.map_append]
    exact hids
  obtain ⟨hblock, hallow, -⟩ := List.nodup_append.1 hids'
  have hblockIds : (s.blockFilters.map (·.id)).Nodup := by
    refine List.nodup_cons.2 ⟨fun hmem => hcustom ?_, hblock.sublist (ids_enabledFilters_sublist _ _)⟩
    have hfilters := (ids_enabledFilters_sublist s.d.dataDir s.d.filters).subset hmem
    exact List.map_subset _ (List.subset_append_left _ _) hfilters
  have hallowIds : (s.allowFilters.map (·.id)).Nodup := hallow.sublist (ids_enabledFilters_sublist _ _)
  unfold Served.Loaded Served.enableFilters initFiltering
  rw [newRuleStorage_ok hfaults hblockIds, newRuleStorage_ok hfaults hallowIds]
  rfl

/-- A refresh leaves the engine with the files as they are, unless all updates of one slice fail and a list of the
other one gets another file. -/
theorem loaded_refreshFiltersIntl_iff (hfaults : faults.None) (hids : (idCustom :: s.d.ids).Nodup)
    (hloaded : s.Loaded) :
    (s.refreshFiltersIntl faults a block allow force).1.Loaded ↔
      ¬ ((∃ isAllowlist, s.Fails a block allow force isAllowlist) ∧
        ∃ isAllowlist, s.Renews a block allow force isAllowlist) := by
  obtain ⟨r, rAl, hr, hrAl, hkeys, hkeysAl, hfails, hfailsAl, hcount, hcountAl, hupdated, hothers⟩ :=
    refreshed_slices (List.nodup_cons.1 hids).2 a block allow force
  have hids' : (idCustom :: (r.filters ++ rAl.filters).map (·.id)).Nodup := by
    have hmap := congrArg (List.map Prod.fst) (congrArg₂ (· ++ ·) hkeys hkeysAl)
    simp only [← List.map_append, List.map_map] at hmap
    rw [show (r.filters ++ rAl.filters).map (·.id) = s.d.ids from hmap]
    exact hids
  have hnet : (r.isNetErr || rAl.isNetErr) = true ↔ ∃ isAllowlist, s.Fails a block allow force isAllowlist := by
    rw [Bool.or_eq_true, hfails, hfailsAl, Bool.exists_bool]
  have hfiles : (¬ ∃ isAllowlist, s.Renews a block allow force isAllowlist) → rAl.files = s.files := by
    intro hsame
    funext p
    by_cases hp : ∀ isAllowlist, ∀ uf ∈ s.toUpdate a block allow force isAllowlist, uf.path s.d.dataDir ≠ p
    · exact hothers p hp
    · push Not at hp
      obtain ⟨isAllowlist, uf, huf, rfl⟩ := hp
      rw [hupdated isAllowlist uf huf]
      by_contra hnew
      exact hsame ⟨isAllowlist, uf, huf, hnew⟩
  unfold Served.refreshFiltersIntl
  rw [← hr]
  dsimp only
  rw [← hrAl]
  generalize hs' : Served.mk { s.d with filters := r.filters, whitelistFilters := rAl.filters } s.userRules rAl.files
    s.engine = s'
  have hblock : s'.blockFilters = s.blockFilters := by
    subst hs'
    exact congrArg (List.cons _) (enabledFilters_congr hkeys)
  have hallow : s'.allowFilters = s.allowFilters := by
    subst hs'
    exact enabledFilters_congr hkeysAl
  have hstay : s'.Loaded ↔ ¬ ∃ isAllowlist, s.Renews a block allow force isAllowlist := by
    have hiff : s'.Loaded ↔ s.engine = ⟨texts rAl.files s.blockFilters, texts rAl.files s.allowFilters⟩ := by
      unfold Served.Loaded
      rw [hblock, hallow, ← hs']
    rw [hiff, hloaded]
    refine ⟨?_, fun hsame => by rw [hfiles hsame]⟩
    rintro heq ⟨isAllowlist, hnew⟩
    exact texts_ne hids hupdated hnew heq
  by_cases hfail : (r.isNetErr || rAl.isNetErr) = true
  · rw [if_pos hfail]
    rw [hstay, not_and]
    exact ⟨fun hsame _ => hsame, fun h => h (hnet.1 hfail)⟩
  · rw [if_neg hfail]
    refine iff_of_true ?_ fun h => hfail (hnet.2 h.1)
    rw [Bool.or_eq_true, not_or, Bool.not_eq_true, Bool.not_eq_true] at hfail
    by_cases hzero : r.updateCount + rAl.updateCount = 0
    · rw [if_pos hzero]
      refine hstay.2 ?_
      rintro ⟨isAllowlist, hnew⟩
      cases isAllowlist with
      | false => exact absurd (hcount hfail.1 hnew) (by omega)
      | true => exact absurd (hcountAl hfail.2 hnew) (by omega)
    · rw [if_neg hzero]
      have hids'' : (idCustom :: s'.d.ids).Nodup := by
        subst hs'
        exact hids'
      have hmade := loaded_enableFilters (s := s') hfaults hids''
      generalize hs'' : s'.enableFilters faults = s'' at hmade
      have hd : s''.d.dataDir = s.d.dataDir := by
        subst hs'' hs'
        rfl
      have hblockTexts := texts_removeOld ((r.updateFilters ++ rAl.updateFilters).filter (·.2)) s''.files s''.blockFilters
        fun f hf => filePath_blockFilters hf
      have hallowTexts := texts_removeOld ((r.updateFilters ++ rAl.updateFilters).filter (·.2)) s''.files s''.allowFilters
        fun f hf => filePath_allowFilters hf
      rw [hd] at hblockTexts hallowTexts
      exact hmade.trans (congrArg₂ Engine.mk hblockTexts.symm hallowTexts.symm)

/-- An allowlist that cannot be downloaded now. -/
def allowlist : FilterYAML where
  enabled := true
  url := "https://lists.example/allow.txt"
  name := "allow"
  rulesCount := 0
  lastUpdated := 0
  checksum := 0
  white := true
  id := 2

/-- The blocklist with the engine that has its rules, and the allowlist. -/
def servedLists : Served where
  d := ⟨"/data", [blocklist], [allowlist], ⟨2⟩⟩
  userRules := []
  files := fun p => if p = "/data/filters/1.txt" then some twoRules else none
  engine := ⟨[(1, twoRules)], []⟩

/-- The blocklist has another rule, and the server of the allowlist has no answer. -/
def answered (_ : Bool) : Answers where
  ivl := 24
  now := 24
  fetch uf := if uf.id = 1 then moreRules else { moreRules with source := .error "got status code 404, want 200" }

theorem none_default : Faults.None {} := ⟨fun _ => rfl, fun _ _ => rfl⟩

/-- The engine gets the new rule if the blocklists are refreshed alone, and not if the allowlists are refreshed too. -/
theorem loaded_servedLists : (servedLists.refreshFiltersIntl {} answered true false false).1.Loaded ∧
    ¬ (servedLists.refreshFiltersIntl {} answered true true false).1.Loaded := by
  have hids : (idCustom :: servedLists.d.ids).Nodup := by decide
  have hloaded : servedLists.Loaded := by decide +kernel
  refine ⟨(loaded_refreshFiltersIntl_iff none_default hids hloaded).2 ?_,
    fun h => (loaded_refreshFiltersIntl_iff none_default hids hloaded).1 h ?_⟩
  · decide +kernel
  · decide +kernel

end Engine

end DNSFilter

end AdGuardHome.Filtering
