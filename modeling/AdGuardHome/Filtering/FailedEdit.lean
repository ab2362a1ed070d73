import AdGuardHome.Filtering.Refresh

/-!
# Edits of a rule list that fail (`internal/filtering/filter.go`)

`filterSetProperties` edits the list in place, and when it returns an error a deferred function sets the fields back
one by one.  The checksum is not among them, so a list that was given another URL and whose new contents could not be
had has forgotten the checksum of the file that it still has (`failed_edit_iff`).
-/

namespace AdGuardHome.Filtering

open AdGuardHome.Lib AdGuardHome.Rulelist

namespace DNSFilter

variable {d d' : DNSFilter} {files files' : Files} {f : Fetch} {newList flt flt' : FilterYAML}
  {file file' : Option (List UInt8)} {isAllowlist b : Bool} {listURL err : String}

/-- The list gets a URL that no list has. -/
def Moves (d : DNSFilter) (newList flt : FilterYAML) : Prop :=
  flt.url ≠ newList.url ∧ d.filterExists newList.url = false

instance (d : DNSFilter) (newList flt : FilterYAML) : Decidable (d.Moves newList flt) :=
  inferInstanceAs (Decidable (_ ∧ _))

/-- What the edit does not set, and what it sets is set back. -/
theorem setBack_edit (newList flt : FilterYAML) (now : ℕ) :
    setBack flt { edit newList flt with lastUpdated := now } =
      { flt with checksum := (edit newList flt).checksum } := by
  unfold edit
  dsimp only
  split <;> rfl

/-- With an error the list is the same but for its checksum, and its file is the same. -/
theorem setProperties_error (h : d.setProperties f newList flt file = (flt', file', b, some err)) :
    flt' = { flt with checksum := if d.Moves newList flt then 0 else flt.checksum } ∧ file' = file := by
  unfold setProperties at h
  split at h
  · cases h
  · rename_i heq
    cases h
    unfold setFields at heq
    split at heq
    · -- the URL is that of another list, and nothing but the name has been set
      rename_i hexists
      cases heq
      have hstays : ¬ d.Moves newList flt := fun hmoves => Bool.false_ne_true (hmoves.2.symm.trans hexists.2)
      rw [if_neg hstays]
      exact ⟨rfl, rfl⟩
    · rename_i hfree
      split at heq
      · cases heq
      · split at heq
        · cases heq
        · have hmoves : d.Moves newList flt ↔ flt.url ≠ newList.url :=
            ⟨And.left, fun hurl => ⟨hurl, Bool.eq_false_iff.2 fun hexists => hfree ⟨hurl, hexists⟩⟩⟩
          rcases updateFile_cases f (edit newList flt) file with
            ⟨b', err', herr⟩ | ⟨res, out, -, ⟨-, hres⟩ | ⟨-, hres⟩⟩
          · rw [herr] at heq
            cases heq
            refine ⟨?_, rfl⟩
            rw [setBack_edit, checksum_edit]
            simp only [hmoves]
          · rw [hres] at heq
            cases heq
          · rw [hres] at heq
            cases heq

theorem setListsOf_listsOf (d : DNSFilter) (isAllowlist : Bool) :
    d.setListsOf isAllowlist (d.listsOf isAllowlist) = d := by
  cases isAllowlist <;> rfl

theorem setListsOf_eq_iff {filters : List FilterYAML} :
    d.setListsOf isAllowlist filters = d ↔ filters = d.listsOf isAllowlist := by
  refine ⟨fun h => ?_, fun h => ?_⟩
  · rw [← listsOf_setListsOf d isAllowlist filters, h]
  · rw [h, setListsOf_listsOf]

theorem moves_checksum_iff :
    (if d.Moves newList flt then 0 else flt.checksum) = flt.checksum ↔
      flt.url = newList.url ∨ d.filterExists newList.url = true ∨ flt.checksum = 0 := by
  by_cases hmoves : d.Moves newList flt
  · obtain ⟨hurl, hfree⟩ := hmoves
    rw [if_pos ⟨hurl, hfree⟩, hfree]
    simp [hurl, eq_comm]
  · rw [if_neg hmoves]
    refine iff_of_true rfl (or_iff_not_imp_left.2 fun hurl => .inl ?_)
    rw [← Bool.not_eq_false]
    exact fun hfree => hmoves ⟨hurl, hfree⟩

theorem set_checksum_iff {filters : List FilterYAML} {i : ℕ} {checksum : UInt32} (hflt : filters[i]? = some flt) :
    filters.set i { flt with checksum := checksum } = filters ↔ checksum = flt.checksum := by
  obtain ⟨hi, hget⟩ := List.getElem?_eq_some_iff.1 hflt
  constructor
  · intro h
    have hsame : (filters.set i { flt with checksum := checksum })[i]? = filters[i]? := by rw [h]
    rw [List.getElem?_set_self hi, hflt] at hsame
    exact congrArg FilterYAML.checksum (Option.some.inj hsame)
  · rintro rfl
    subst hget
    exact List.set_getElem_self hi

/-- An edit that returns an error leaves all the lists and files alone exactly when the list was not to be moved to a
URL that is free, or when it had been unloaded before. -/
theorem failed_edit_iff
    (herr : d.filterSetProperties files f listURL newList isAllowlist = (d', files', b, some err)) :
    (d' = d ∧ files' = files) ↔
      ∀ flt ∈ (d.listsOf isAllowlist).find? (·.url == listURL),
        flt.url = newList.url ∨ d.filterExists newList.url = true ∨ flt.checksum = 0 := by
  unfold filterSetProperties at herr
  rw [List.find?_eq_bind_findIdx?_getElem?]
  cases hfind : (d.listsOf isAllowlist).findIdx? (·.url == listURL) with
  | none =>
    rw [hfind] at herr
    cases herr
    exact iff_of_true ⟨rfl, rfl⟩ fun flt hflt => by cases hflt
  | some i =>
    rw [hfind] at herr
    dsimp only at herr
    rw [Option.bind_some]
    cases hget : (d.listsOf isAllowlist)[i]? with
    | none =>
      rw [hget] at herr
      cases herr
      exact iff_of_true ⟨rfl, rfl⟩ fun flt hflt => by cases hflt
    | some flt =>
      obtain ⟨⟨flt', file', b', r⟩, hset⟩ : ∃ r, d.setProperties f newList flt (files (flt.path d.dataDir)) = r :=
        ⟨_, rfl⟩
      rw [hget] at herr
      dsimp only at herr
      rw [hset] at herr
      cases herr
      obtain ⟨rfl, rfl⟩ := setProperties_error hset
      rw [Function.update_eq_self, setListsOf_eq_iff, set_checksum_iff hget, moves_checksum_iff]
      simp

/-- A download that finds nothing. -/
def noFetch : Fetch := ⟨none, .error "got status code 404, want 200", fun _ => none, none, none, none, 1⟩

/-- The name of the list with the URL that it has. -/
def renamedList : FilterYAML := { blocklist with enabled := false, name := "trackers" }

/-- A list that was disabled is renamed and enabled, and its file is not at the URL any more. -/
theorem failed_edit_disabled :
    ∃ d' files', filterSetProperties { blocklists with filters := [renamedList] } (fun _ => some twoRules) noFetch
        "/lists/ads.txt" blocklist false = (d', files', false, some "got status code 404, want 200") ∧
      d' = { blocklists with filters := [renamedList] } ∧ files' = fun _ => some twoRules := by
  obtain ⟨⟨d', files', r⟩, hedit⟩ : ∃ r, filterSetProperties { blocklists with filters := [renamedList] }
    (fun _ => some twoRules) noFetch "/lists/ads.txt" blocklist false = r := ⟨_, rfl⟩
  obtain rfl : r = (false, some "got status code 404, want 200") :=
    (congrArg (·.2.2) hedit).symm.trans (by decide +kernel)
  exact ⟨d', files', hedit, (failed_edit_iff hedit).2 (by decide +kernel)⟩

/-- A list is moved to a URL where there is nothing, and has lost its checksum. -/
theorem not_unchanged_moved :
    ¬ ∀ (d d' : DNSFilter) (files files' : Files) (f : Fetch) (listURL : String) (newList : FilterYAML)
        (isAllowlist b : Bool) (err : String),
      d.filterSetProperties files f listURL newList isAllowlist = (d', files', b, some err) →
        d' = d ∧ files' = files := by
  intro h
  obtain ⟨⟨d', files', r⟩, hedit⟩ : ∃ r, blocklists.filterSetProperties (fun _ => some twoRules) noFetch
    "/lists/ads.txt" movedList false = r := ⟨_, rfl⟩
  obtain rfl : r = (false, some "got status code 404, want 200") :=
    (congrArg (·.2.2) hedit).symm.trans (by decide +kernel)
  have hsum : ((blocklists.filterSetProperties (fun _ => some twoRules) noFetch "/lists/ads.txt" movedList
      false).1.listsOf false).map (·.checksum) = [0] := by
    decide +kernel
  have hkept : (blocklists.listsOf false).map (·.checksum) ≠ [0] := by decide +kernel
  rw [hedit, (h _ _ _ _ _ _ _ _ _ _ hedit).1] at hsum
  exact hkept hsum

end DNSFilter

end AdGuardHome.Filtering
