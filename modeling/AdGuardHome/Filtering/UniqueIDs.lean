import AdGuardHome.Filtering.Filters
import AdGuardHome.Lib.Each
import AdGuardHome.Lib.Run

/-!
# Identifiers of the filter lists are unique

`fix` works on one slice, so it sees no collision between block and allow lists, and a list that is added takes the
next value of the counter unchecked.  Where the counter starts clear of the configured identifiers, the lists keep
distinct identifiers, and so distinct files, in exactly the runs in which no identifier is configured in both slices
and no list is added under the identifier of a stored one (`uniqueIDs_along_iff`).
-/

namespace AdGuardHome.Filtering

open AdGuardHome.Lib IDGenerator

variable {g g' : IDGenerator} {fs fs' : List FilterYAML} {files : String → Loaded} {dataDir : String}

namespace DNSFilter

/-! ## Loading -/

@[simp] theorem ensureName_id (f : FilterYAML) (title : String) : (f.ensureName title).id = f.id := by
  unfold FilterYAML.ensureName
  split
  · rfl
  · split <;> rfl

@[simp] theorem ensureName_url (f : FilterYAML) (title : String) : (f.ensureName title).url = f.url := by
  unfold FilterYAML.ensureName
  split
  · rfl
  · split <;> rfl

theorem load_id_url (f : FilterYAML) : (load files dataDir f).id = f.id ∧ (load files dataDir f).url = f.url := by
  unfold load
  split
  · exact ⟨ensureName_id f _, ensureName_url f _⟩
  · exact ⟨rfl, rfl⟩

/-- A loaded list keeps the address and the identifier that it has, or gets a new one. -/
structure LoadedAs (g g' : IDGenerator) (f f' : FilterYAML) : Prop where
  url : f'.url = f.url
  id : (f.id ≠ 0 ∧ f'.id = f.id) ∨ (f.id = 0 ∧ Took g g' f'.id)

theorem loadFilters_cons {f : FilterYAML} (h : loadFilters files dataDir g (f :: fs) = some (fs', g')) :
    ∃ f₁ g₁ fs₁, f₁.url = f.url ∧
      ((f.id ≠ 0 ∧ f₁.id = f.id ∧ g₁ = g) ∨
        (f.id = 0 ∧ g₁.current.toNat = g.current.toNat + 1 ∧ Took g g₁ f₁.id)) ∧
      loadFilters files dataDir g₁ fs = some (fs₁, g') ∧ fs' = f₁ :: fs₁ := by
  unfold loadFilters at h
  split at h
  · cases h
  · rename_i f₁ g₁ hensure
    obtain ⟨⟨fs₁, g₂⟩, hrest, heq⟩ := Option.map_eq_some_iff.1 h
    cases heq
    have hload : (if f₁.enabled then load files dataDir f₁ else f₁).id = f₁.id ∧
        (if f₁.enabled then load files dataDir f₁ else f₁).url = f₁.url := by
      split
      · exact load_id_url f₁
      · exact ⟨rfl, rfl⟩
    obtain ⟨hurl, hid⟩ := ensureID_spec hensure
    refine ⟨_, g₁, fs₁, hload.2.trans hurl, ?_, hrest, rfl⟩
    rw [hload.1]
    rcases hid with ⟨hne, rfl, rfl⟩ | hid
    · exact .inl ⟨hne, rfl, rfl⟩
    · exact .inr hid

/-- The counter moves by one for each list without an identifier. -/
theorem loadFilters_current (h : loadFilters files dataDir g fs = some (fs', g')) :
    g'.current.toNat = g.current.toNat + fs.countP fun f => f.id = 0 := by
  induction fs generalizing g fs' with
  | nil =>
    cases h
    rfl
  | cons f fs ih =>
    obtain ⟨f₁, g₁, fs₁, -, hid, hrest, rfl⟩ := loadFilters_cons h
    rw [ih hrest, List.countP_cons]
    rcases hid with ⟨hne, -, rfl⟩ | ⟨hzero, hcur, -⟩
    · simp [hne]
    · simp only [hcur, hzero, decide_true, if_true]
      omega

theorem loadFilters_forall₂ (h : loadFilters files dataDir g fs = some (fs', g')) :
    List.Forall₂ (LoadedAs g g') fs fs' := by
  induction fs generalizing g fs' with
  | nil =>
    cases h
    exact .nil
  | cons f fs ih =>
    obtain ⟨f₁, g₁, fs₁, hurl, hid, hrest, rfl⟩ := loadFilters_cons h
    have hcur := loadFilters_current hrest
    have hle : g.current.toNat ≤ g₁.current.toNat := by
      rcases hid with ⟨_, _, rfl⟩ | ⟨_, hcur, _⟩
      · exact le_rfl
      · omega
    refine .cons ⟨hurl, ?_⟩ ((ih hrest).imp fun f f' hf => ⟨hf.url, ?_⟩)
    · rcases hid with ⟨hne, hid, _⟩ | ⟨hzero, _, htook⟩
      · exact .inl ⟨hne, hid⟩
      · exact .inr ⟨hzero, htook.mono_right (by omega)⟩
    · exact hf.id.imp_right fun hf => ⟨hf.1, hf.2.mono_left hle⟩

/-- Of the identifiers that the counter takes, each goes to one list. -/
theorem loadFilters_pairwise {lo hi : ℕ} (hconf : ∀ f ∈ fs, ¬ Within lo hi f.id)
    (h : loadFilters files dataDir g fs = some (fs', g')) :
    fs'.Pairwise fun f f' => Within lo hi f'.id → f'.id ≠ f.id := by
  induction fs generalizing g fs' with
  | nil =>
    cases h
    exact .nil
  | cons f fs ih =>
    obtain ⟨f₁, g₁, fs₁, -, hid, hrest, rfl⟩ := loadFilters_cons h
    have hconf' := fun x hx => hconf x (List.mem_cons_of_mem f hx)
    refine List.pairwise_cons.2 ⟨fun x hx hin heq => ?_, ih hconf' hrest⟩
    rcases hid with ⟨_, hid, _⟩ | ⟨_, hcur, htook⟩
    · rw [heq, hid] at hin
      exact hconf f (by simp) hin
    · obtain ⟨y, hy, hyx⟩ := exists_left_of_forall₂ (loadFilters_forall₂ hrest) hx
      rcases hyx.id with ⟨_, hyid⟩ | ⟨_, htook'⟩
      · rw [hyid] at hin
        exact hconf' y hy hin
      · have hlt := htook'.lt
        have hle := htook.le
        rw [heq] at hlt
        omega

/-! ## Taking out the duplicates -/

theorem deduplicateFrom_sublist (urls : List String) (fs : List FilterYAML) :
    (deduplicateFrom urls fs).Sublist fs := by
  induction fs generalizing urls with
  | nil => exact .slnil
  | cons f fs ih =>
    unfold deduplicateFrom
    split
    · exact (ih urls).cons f
    · exact (ih _).cons_cons f

/-- Only the addresses decide which lists stay. -/
theorem deduplicateFrom_forall₂ (urls : List String) (h : List.Forall₂ (LoadedAs g g') fs fs') :
    List.Forall₂ (LoadedAs g g') (deduplicateFrom urls fs) (deduplicateFrom urls fs') := by
  induction h generalizing urls with
  | nil => exact .nil
  | cons hf _ ih =>
    unfold deduplicateFrom
    rw [hf.url]
    split
    · exact ih urls
    · exact .cons hf (ih _)

/-! ## One slice in `New` -/

/-- The identifiers that the lists of a slice have in the configuration. -/
def configured (fs : List FilterYAML) : List ListID := ((deduplicateFilters fs).map (·.id)).filter (· ≠ 0)

theorem mem_configured {id : ListID} : id ∈ configured fs ↔ id ≠ 0 ∧ ∃ f ∈ deduplicateFilters fs, f.id = id := by
  unfold configured
  rw [List.mem_filter, List.mem_map]
  simp only [ne_eq, decide_not, Bool.not_eq_eq_eq_not, Bool.not_true, decide_eq_false_iff_not]
  exact and_comm

/-- What `New` makes of a slice: `gl` and `gl'` are the states of the generator around its loading, `gf` and `gf'`
those around its repair. -/
structure Repaired (gl gl' gf gf' : IDGenerator) (fs fs' : List FilterYAML) : Prop where
  le : gf.current.toNat ≤ gf'.current.toNat
  nodup : (fs'.map (·.id)).Nodup
  mem : ∀ f ∈ fs', f.id ∈ configured fs ∨ Took gl gl' f.id ∨ Took gf gf' f.id
  kept : ∀ id ∈ configured fs, ∃ f ∈ fs', f.id = id

theorem LoadedAs.ne_zero {f f' : FilterYAML} (h : LoadedAs g g' f f') : f'.id ≠ 0 := by
  rcases h.id with ⟨hne, hid⟩ | ⟨_, htook⟩
  · rwa [hid]
  · intro h0
    have hlt := htook.lt
    rw [h0] at hlt
    exact absurd hlt (Nat.not_lt_zero _)

theorem ne_zero_of_load (hload : loadFilters files dataDir g fs = some (fs', g')) :
    ∀ l ∈ deduplicateFilters fs', l.id ≠ 0 := by
  intro l hl
  obtain ⟨f, _, hf⟩ := exists_left_of_forall₂ (loadFilters_forall₂ hload) ((deduplicateFrom_sublist [] fs').subset hl)
  exact hf.ne_zero

theorem repaired {gl gl' gf gf' : IDGenerator} {ls : List FilterYAML}
    (hload : loadFilters files dataDir gl fs = some (ls, gl'))
    (hfix : gf.fix (deduplicateFilters ls) = some (fs', gf')) : Repaired gl gl' gf gf' fs fs' := by
  have hrel := deduplicateFrom_forall₂ [] (loadFilters_forall₂ hload)
  have hne := ne_zero_of_load hload
  have hfixed := fixFrom_spec hne hfix
  refine ⟨hfixed.le, hfixed.nodup, fun f hf => ?_, fun id hid => ?_⟩
  · rcases hfixed.mem f hf with ⟨l, hl, hid⟩ | htook
    · obtain ⟨x, hx, hxl⟩ := exists_left_of_forall₂ hrel hl
      rw [← hid]
      rcases hxl.id with ⟨hx0, hxid⟩ | ⟨_, htook⟩
      · exact .inl (mem_configured.2 ⟨by rwa [hxid], x, hx, hxid.symm⟩)
      · exact .inr (.inl htook)
    · exact .inr (.inr htook)
  · obtain ⟨hid0, x, hx, rfl⟩ := mem_configured.1 hid
    obtain ⟨l, hl, hxl⟩ := exists_left_of_forall₂ hrel.flip hx
    rcases hxl.id with ⟨_, hxid⟩ | ⟨hx0, _⟩
    · rcases hfixed.kept l hl with hmem | ⟨f, hf, hfid⟩
      · cases hmem
      · exact ⟨f, hf, hfid.trans hxid⟩
    · exact absurd hx0 hid0

/-- Where the configured identifiers are not in the counter's way, the repair takes at most one value for each list
that has an identifier in the configuration. -/
theorem fix_current_le {gl gl' gf gf' : IDGenerator} {ls : List FilterYAML} {lo hi : ℕ}
    (hconf : ∀ f ∈ fs, ¬ Within lo hi f.id) (hload : loadFilters files dataDir gl fs = some (ls, gl'))
    (hfix : gf.fix (deduplicateFilters ls) = some (fs', gf')) (hlo : lo ≤ gl.current.toNat)
    (hle : gl'.current.toNat ≤ gf.current.toNat)
    (hhi : gf.current.toNat + fs.countP (fun f => f.id ≠ 0) ≤ hi) :
    gf'.current.toNat ≤ gf.current.toNat + fs.countP fun f => f.id ≠ 0 := by
  have hrel := loadFilters_forall₂ hload
  have hcur := loadFilters_current hload
  have hsub := deduplicateFrom_sublist [] ls
  have hcount : (deduplicateFilters ls).countP (fun f => ¬ Within lo gl'.current.toNat f.id) ≤
      fs.countP fun f => f.id ≠ 0 := by
    refine (hsub.countP_le).trans ?_
    clear hsub hfix hload hconf hhi hcur
    induction hrel with
    | nil => exact le_rfl
    | cons hf _ ih =>
      rw [List.countP_cons, List.countP_cons]
      refine Nat.add_le_add ih ?_
      rcases hf.id with ⟨hne, -⟩ | ⟨-, htook⟩
      · simp only [hne, ne_eq, not_false_eq_true, decide_true, if_true]
        split <;> omega
      · have hin : Within lo gl'.current.toNat _ := ⟨hlo.trans_lt htook.lt, htook.le⟩
        simp [hin]
  have hout : ∀ f ∈ deduplicateFilters ls, ¬ Within gf.current.toNat hi f.id := by
    intro l hl hin
    obtain ⟨f, hf, hfl⟩ := exists_left_of_forall₂ hrel (hsub.subset hl)
    rcases hfl.id with ⟨_, hid⟩ | ⟨_, htook⟩
    · refine hconf f hf ?_
      rw [← hid]
      exact ⟨by have := hin.1; omega, hin.2⟩
    · have hlt := hin.1
      have hid := htook.le
      omega
  have hpair : (deduplicateFilters ls).Pairwise
      fun f f' => Within lo gl'.current.toNat f'.id → f'.id ≠ f.id := by
    refine ((loadFilters_pairwise hconf hload).imp fun h hin => h ?_).sublist hsub
    exact ⟨hin.1, by have := hin.2; omega⟩
  have hfixed := fixFrom_le (ne_zero_of_load hload) hle (by simp) hout (by simp) hpair (by omega) hfix
  omega

/-! ## `New` -/

end DNSFilter

open DNSFilter

/-- None of the next values of the counter, one for each list, is configured. -/
def Config.ClearOf (c : Config) (seed : UInt64) : Prop :=
  ∀ f ∈ c.filters ++ c.whitelistFilters,
    ¬ Within seed.toNat (seed.toNat + (c.filters.length + c.whitelistFilters.length)) f.id

instance (c : Config) (seed : UInt64) : Decidable (c.ClearOf seed) :=
  List.decidableBAll _ (c.filters ++ c.whitelistFilters)

/-- No identifier is configured in both slices. -/
def Config.NoneShared (c : Config) : Prop :=
  ∀ id ∈ configured c.filters, id ∉ configured c.whitelistFilters

instance (c : Config) : Decidable c.NoneShared := List.decidableBAll _ (configured c.filters)

namespace DNSFilter

/-- All lists, the block lists first. -/
def lists (d : DNSFilter) : List FilterYAML := d.filters ++ d.whitelistFilters

def ids (d : DNSFilter) : List ListID := d.lists.map (·.id)

variable {seed : UInt64} {c : Config} {d : DNSFilter}

theorem new_eq_some (h : new files seed c = some d) : ∃ ls ls' g₁ g₂ g₃ g₄,
    loadFilters files c.dataDir ⟨seed⟩ c.filters = some (ls, g₁) ∧
    loadFilters files c.dataDir g₁ c.whitelistFilters = some (ls', g₂) ∧
    g₂.fix (deduplicateFilters ls) = some (d.filters, g₃) ∧
    g₃.fix (deduplicateFilters ls') = some (d.whitelistFilters, g₄) ∧
    d = ⟨c.dataDir, d.filters, d.whitelistFilters, g₄⟩ := by
  simp only [new, IDGenerator.new, Option.bind_eq_bind, Option.bind_eq_some_iff, Option.pure_def,
    Option.some.injEq, Prod.exists] at h
  obtain ⟨ls, g₁, hl, ls', g₂, hl', fs, g₃, hf, fs', g₄, hf', rfl⟩ := h
  exact ⟨ls, ls', g₁, g₂, g₃, g₄, hl, hl', hf, hf', rfl⟩

theorem countP_zero_add (fs : List FilterYAML) :
    (fs.countP fun f => f.id = 0) + (fs.countP fun f => f.id ≠ 0) = fs.length := by
  rw [List.length_eq_countP_add_countP (fun f : FilterYAML => f.id = 0) (l := fs)]
  simp

theorem not_within_of_configured {fs : List FilterYAML} {lo hi : ℕ} {id : ListID}
    (h : ∀ f ∈ fs, ¬ Within lo hi f.id) (hid : id ∈ configured fs) : ¬ Within lo hi id := by
  obtain ⟨_, f, hf, rfl⟩ := mem_configured.1 hid
  exact h f ((deduplicateFrom_sublist [] fs).subset hf)

/-- `New` gives distinct identifiers to the lists, unless one is configured in both slices. -/
theorem new_ids_nodup_iff (hclear : c.ClearOf seed) (h : new files seed c = some d) :
    d.ids.Nodup ↔ c.NoneShared := by
  obtain ⟨ls, ls', g₁, g₂, g₃, g₄, hl, hl', hf, hf', -⟩ := new_eq_some h
  have hrep := repaired hl hf
  have hrep' := repaired hl' hf'
  have hg₁ := loadFilters_current hl
  have hg₂ := loadFilters_current hl'
  have hlen := countP_zero_add c.filters
  have hlen' := countP_zero_add c.whitelistFilters
  have hconf := fun f hf => hclear f (List.mem_append_left _ hf)
  have hconf' := fun f hf => hclear f (List.mem_append_right _ hf)
  simp only at hg₁
  have hg₃ := fix_current_le hconf hl hf le_rfl (by omega) (by omega)
  have hle₃ := hrep.le
  have hg₄ := fix_current_le hconf' hl' hf' (by omega) (by omega) (by omega)
  have hle₄ := hrep'.le
  constructor
  · intro hnodup id hid hid'
    obtain ⟨f, hf, rfl⟩ := hrep.kept id hid
    obtain ⟨f', hf', heq⟩ := hrep'.kept f.id hid'
    rw [ids, lists, List.map_append, List.nodup_append] at hnodup
    exact hnodup.2.2 f.id (List.mem_map_of_mem hf) f'.id (List.mem_map_of_mem hf') heq.symm
  · intro hnone
    rw [ids, lists, List.map_append]
    refine List.nodup_append.2 ⟨hrep.nodup, hrep'.nodup, fun id hid id' hid' heq => ?_⟩
    obtain ⟨f, hf, rfl⟩ := List.mem_map.1 hid
    obtain ⟨f', hf', rfl⟩ := List.mem_map.1 hid'
    -- The values that the counter takes in the four phases are distinct, and none of them is configured.
    rcases hrep.mem f hf with hc | htook | htook
    · have hout := not_within_of_configured hconf hc
      rcases hrep'.mem f' hf' with hc' | htook' | htook'
      · exact hnone f.id hc (heq ▸ hc')
      · rw [← heq] at htook'
        exact hout ⟨by have := htook'.lt; omega, by have := htook'.le; omega⟩
      · rw [← heq] at htook'
        exact hout ⟨by have := htook'.lt; omega, by have := htook'.le; omega⟩
    all_goals
      have hlt := htook.lt
      have hle := htook.le
      rw [heq] at hlt hle
      rcases hrep'.mem f' hf' with hc' | htook' | htook'
      · exact not_within_of_configured hconf' hc' ⟨by omega, by omega⟩
      · have hlt' := htook'.lt
        have hle' := htook'.le
        omega
      · have hlt' := htook'.lt
        have hle' := htook'.le
        omega

/-! ## Adding lists -/

/-- The download of a new list that is stored. -/
def Download.succeeds (dl : Download) : Bool :=
  match dl.newPendingFile, dl.read, dl.closeReplace with
  | none, .ok res, none => res.checksum != 0
  | _, _, _ => false

/-- The request is for a valid address that no list has, and its download succeeds. -/
def accepts (d : DNSFilter) (r : AddRequest) : Bool :=
  match r.body with
  | .error _ => false
  | .ok fj => (r.validateFilterURL fj.url).isNone && !d.filterExists fj.url && r.download.succeeds

/-- The next value of the counter is not the identifier of a list, if the request needs it. -/
def NextIsFree (d : DNSFilter) (r : AddRequest) : Prop :=
  d.accepts r = true → ∀ p ∈ d.idGen.next, p.1 ∉ d.ids

instance (d : DNSFilter) (r : AddRequest) : Decidable (d.NextIsFree r) :=
  inferInstanceAs (Decidable (_ → ∀ p ∈ d.idGen.next, _))

/-- The lists after a request. -/
def afterAdd (d : DNSFilter) (r : AddRequest) : DNSFilter := (d.handleFilteringAddURL r).1

/-- No two lists have the same identifier, and no two have the same file. -/
structure UniqueIDs (d : DNSFilter) : Prop where
  ids : d.ids.Nodup
  paths : (d.lists.map (·.path d.dataDir)).Nodup

theorem uniqueIDs_iff : d.UniqueIDs ↔ d.ids.Nodup := by
  refine ⟨UniqueIDs.ids, fun h => ⟨h, ?_⟩⟩
  rw [DNSFilter.ids, List.Nodup, List.pairwise_map] at h
  rw [List.Nodup, List.pairwise_map]
  exact h.imp fun hne hpath => hne (FilterYAML.path_inj hpath)

theorem updateIntl_keeps (dl : Download) (f : FilterYAML) :
    (updateIntl dl f).1.id = f.id ∧ (updateIntl dl f).1.url = f.url := by
  have hkeep : ∀ res : ParseResult,
      (f.ensureName res.title).id = f.id ∧ (f.ensureName res.title).url = f.url :=
    fun res => ⟨ensureName_id f _, ensureName_url f _⟩
  unfold updateIntl
  split
  · exact ⟨rfl, rfl⟩
  · split
    · exact ⟨rfl, rfl⟩
    · split
      · exact ⟨rfl, rfl⟩
      · split
        · exact ⟨rfl, rfl⟩
        · exact hkeep _

theorem updateIntl_new (dl : Download) {f : FilterYAML} (h : f.checksum = 0) :
    (updateIntl dl f).2 = (true, none) ↔ dl.succeeds = true := by
  unfold updateIntl Download.succeeds
  rw [h]
  cases dl.newPendingFile with
  | some err => simp
  | none =>
    cases dl.read with
    | error err => simp
    | ok res =>
      by_cases hsum : res.checksum = 0
      · cases dl.closeReplace <;> simp [hsum]
      · cases dl.closeReplace <;> simp [hsum]

/-- Updating a new list keeps its address and identifier, and is good exactly if its download succeeds. -/
theorem update_new (dl : Download) {f f' : FilterYAML} {b : Bool} {err : Option String} (h : f.checksum = 0)
    (hup : update dl f = (f', b, err)) :
    f'.id = f.id ∧ f'.url = f.url ∧ ((b = true ∧ err = none) ↔ dl.succeeds = true) := by
  have hnew := updateIntl_new dl h
  have hkeeps := updateIntl_keeps dl f
  cases hup
  refine ⟨hkeeps.1, hkeeps.2, ?_⟩
  rw [← hnew, Prod.ext_iff]
  exact Iff.rfl

/-- Adding a list appends it to its slice. -/
theorem filterAdd_of_not_exists {f : FilterYAML} (h : d.filterExists f.url = false) :
    ∃ d', d.filterAdd f = .ok d' ∧ d'.lists.Perm (f :: d.lists) := by
  unfold filterAdd
  rw [h]
  simp only [Bool.false_eq_true, if_false]
  split
  · refine ⟨_, rfl, ?_⟩
    rw [lists, ← List.append_assoc]
    exact List.perm_append_singleton f _
  · refine ⟨_, rfl, ?_⟩
    simp [lists]

/-- A request that is accepted adds one list under the next value of the counter. -/
theorem afterAdd_of_accepts {r : AddRequest} {id : ListID} {g : IDGenerator} (h : d.accepts r = true)
    (hnext : d.idGen.next = some (id, g)) : ∃ f, f.id = id ∧ (d.afterAdd r).lists.Perm (f :: d.lists) := by
  unfold accepts at h
  unfold afterAdd handleFilteringAddURL
  cases hbody : r.body with
  | error err =>
    rw [hbody] at h
    cases h
  | ok fj =>
    rw [hbody] at h
    simp only [Bool.and_eq_true, Option.isNone_iff_eq_none, Bool.not_eq_eq_eq_not, Bool.not_true] at h
    obtain ⟨⟨hvalid, hexists⟩, hsucc⟩ := h
    simp only [hvalid, hexists, hnext, Bool.false_eq_true, if_false]
    generalize hup : update r.download _ = u
    obtain ⟨f, b, err⟩ := u
    obtain ⟨hid, hurl, hgood⟩ := update_new r.download rfl hup
    obtain ⟨rfl, rfl⟩ := hgood.2 hsucc
    have hnot : filterExists { d with idGen := g } f.url = false := by
      rw [hurl]
      exact hexists
    obtain ⟨d', hadd, hperm⟩ := filterAdd_of_not_exists hnot
    simp only [hadd]
    exact ⟨f, hid, hperm⟩

/-- Any other request changes no list. -/
theorem afterAdd_of_not {r : AddRequest} (h : d.accepts r = true → d.idGen.next = none) :
    (d.afterAdd r).lists = d.lists := by
  unfold accepts at h
  unfold afterAdd handleFilteringAddURL
  cases hbody : r.body with
  | error err => rfl
  | ok fj =>
    rw [hbody] at h
    dsimp only
    cases hvalid : r.validateFilterURL fj.url with
    | some err => rfl
    | none =>
      cases hexists : d.filterExists fj.url with
      | true => rfl
      | false =>
        cases hnext : d.idGen.next with
        | none => rfl
        | some p =>
          have hfail : r.download.succeeds = false := by
            simpa [hvalid, hexists, hnext] using h
          simp only [Bool.false_eq_true, if_false]
          generalize hup : update r.download _ = u
          obtain ⟨f, b, err⟩ := u
          obtain ⟨-, -, hgood⟩ := update_new r.download rfl hup
          rw [hfail] at hgood
          cases err with
          | some err => rfl
          | none =>
            cases b with
            | false => rfl
            | true => exact absurd (hgood.1 ⟨rfl, rfl⟩) Bool.false_ne_true

/-! ## Runs -/

/-- A request keeps the identifiers distinct exactly if it does not need a value that is in use. -/
theorem afterAdd_uniqueIDs_iff (h : d.UniqueIDs) (r : AddRequest) : (d.afterAdd r).UniqueIDs ↔ d.NextIsFree r := by
  rw [uniqueIDs_iff] at h ⊢
  by_cases hacc : d.accepts r = true
  · cases hnext : d.idGen.next with
    | none =>
      refine iff_of_true ?_ fun _ p hp => ?_
      · rw [ids, afterAdd_of_not fun _ => hnext]
        exact h
      · rw [hnext] at hp
        cases hp
    | some p =>
      obtain ⟨f, hid, hperm⟩ := afterAdd_of_accepts hacc hnext
      rw [ids, (hperm.map _).nodup_iff, List.map_cons, List.nodup_cons, hid]
      constructor
      · rintro ⟨hfree, -⟩ - q hq
        rw [hnext] at hq
        cases hq
        exact hfree
      · exact fun hfree => ⟨hfree hacc p (by simp [hnext]), h⟩
  · refine iff_of_true ?_ fun hacc' => absurd hacc' hacc
    rw [ids, afterAdd_of_not fun hacc' => absurd hacc' hacc]
    exact h

/-- Where the counter starts clear of the configured identifiers, identifiers and files stay distinct exactly in the
runs in which no identifier is configured in both slices and no list is added under one that is in use. -/
theorem uniqueIDs_along_iff (hclear : c.ClearOf seed) (h : new files seed c = some d) (rs : List AddRequest) :
    Along afterAdd UniqueIDs d rs ↔ c.NoneShared ∧ Meets afterAdd NextIsFree d rs := by
  by_cases hd : d.UniqueIDs
  · have hnone : c.NoneShared := (new_ids_nodup_iff hclear h).1 hd.ids
    rw [and_iff_right hnone]
    exact along_iff_meets (I := UniqueIDs) (fun _ h => h) (fun s r hs hr => (afterAdd_uniqueIDs_iff hs r).2 hr)
      (fun s r hs hr hs' => hr ((afterAdd_uniqueIDs_iff hs r).1 hs')) hd rs
  · have hnone : ¬ c.NoneShared := fun hnone => hd (uniqueIDs_iff.2 ((new_ids_nodup_iff hclear h).2 hnone))
    refine iff_of_false (fun hrun => hd ?_) fun hrun => hnone hrun.1
    cases rs with
    | nil => exact hrun
    | cons r rs => exact hrun.1

/-- A configuration with one block list and one allow list. -/
def twoLists (id id' : ListID) : Config where
  dataDir := "data"
  filters := [⟨true, "https://block.example/list.txt", "Block", 0, 0, 0, false, id⟩]
  whitelistFilters := [⟨true, "https://allow.example/list.txt", "Allow", 0, 0, 0, true, id'⟩]

/-- A request for a list that is there to be downloaded. -/
def addRequest : AddRequest where
  body := .ok ⟨"More", "https://more.example/list.txt", false⟩
  validateFilterURL := fun _ => none
  download := ⟨none, .ok ⟨"More rules", 10, 7⟩, none, none, 1700000060⟩

theorem uniqueIDs_twoLists : ∃ d, new (fun _ => .absent) 1700000000 (twoLists 1 2) = some d ∧
    Along afterAdd UniqueIDs d [addRequest] := by
  have hnew : new (fun _ => .absent) 1700000000 (twoLists 1 2) =
    some ⟨"data", (twoLists 1 2).filters, (twoLists 1 2).whitelistFilters, ⟨1700000000⟩⟩ := rfl
  exact ⟨_, hnew, (uniqueIDs_along_iff (by decide) hnew [addRequest]).2 ⟨by decide, by decide⟩⟩

/-- `fix` leaves an identifier that is configured in both slices. -/
theorem not_uniqueIDs : ¬ ∀ (files : String → Loaded) (seed : UInt64) (c : Config) (d : DNSFilter),
    new files seed c = some d → ∀ rs, Along afterAdd UniqueIDs d rs := by
  intro h
  have hids := (h (fun _ => .absent) 1700000000 (twoLists 1 1) _ rfl []).ids
  exact absurd hids (by decide)

end DNSFilter

end AdGuardHome.Filtering
