import AdGuardHome.Filtering.Requests

/-!
# Refreshes and edits of the rule lists at the same time (`internal/filtering/filter.go`)

A refresh that finds new rules for a list takes back a name that the list was given meanwhile (`name_of_refresh`).  The
records of the lists fit their files once no refresh is going on, if no list is downloaded by an edit while a refresh has
a copy of it (`kept_run_of_quiet`).
-/

namespace AdGuardHome.Filtering

open AdGuardHome.Lib AdGuardHome.Rulelist

namespace DNSFilter

/-! ## Steps with nothing between them -/

section Alone

variable {s : System}

theorem run_updates {isAllowlist : Bool} {todo : List FilterYAML} {done : List (FilterYAML × Bool)} {failNum : ℕ}
    (h : s.refreshing = some ⟨isAllowlist, todo, done, failNum⟩) (o : Outside) :
    run System.step s (List.replicate todo.length (.update o)) =
      { s with
        files := (updateFilterList s.d.dataDir (fun uf => o.fetch s.safe uf.url) s.files todo).2.2
        refreshing := some ⟨isAllowlist, [],
          done ++ (updateFilterList s.d.dataDir (fun uf => o.fetch s.safe uf.url) s.files todo).1,
          failNum + (updateFilterList s.d.dataDir (fun uf => o.fetch s.safe uf.url) s.files todo).2.1⟩ } := by
  induction todo generalizing s done failNum with
  | nil =>
    obtain ⟨d, safe, files, refreshing, adding⟩ := s
    subst h
    simp [run, updateFilterList]
  | cons uf todo ih =>
    rw [List.length_cons, List.replicate_succ]
    change run System.step (s.step (.update o)) _ = _
    have hstep : s.step (.update o) = { s with
        files := Function.update s.files (uf.path s.d.dataDir)
          (updateOf s.d.dataDir (fun uf => o.fetch s.safe uf.url) s.files uf).2.1
        refreshing := some ⟨isAllowlist, todo,
          done ++ [((updateOf s.d.dataDir (fun uf => o.fetch s.safe uf.url) s.files uf).1,
            (updateOf s.d.dataDir (fun uf => o.fetch s.safe uf.url) s.files uf).2.2.1)],
          failNum + (if (updateOf s.d.dataDir (fun uf => o.fetch s.safe uf.url) s.files uf).2.2.2.isSome then 1
            else 0)⟩ } := by
      dsimp only [System.step]
      rw [h]
      rfl
    rw [hstep, ih rfl]
    simp only [updateFilterList, updateOf, List.append_assoc, List.singleton_append, Nat.add_assoc, System.mk.injEq,
      Option.some.injEq, Refreshing.mk.injEq, and_true, true_and]
    exact congrArg (failNum + ·) (Nat.add_comm _ _)

/-- A refresh of a slice that nothing comes into is `refreshFiltersArray`. -/
theorem refresh_alone (hnone : s.refreshing = none) (isAllowlist force : Bool) (ivl now : ℕ) (o : Outside) :
    run System.step s (.listsToUpdate isAllowlist force ivl now ::
        List.replicate (DNSFilter.listsToUpdate ivl now force (s.d.listsOf isAllowlist)).length (.update o) ++ [.sync]) =
      { s with
        d := s.d.setListsOf isAllowlist (refreshFiltersArray s.d.dataDir ⟨ivl, now, fun uf => o.fetch s.safe uf.url⟩ force
          (s.d.listsOf isAllowlist) s.files).filters
        files := (refreshFiltersArray s.d.dataDir ⟨ivl, now, fun uf => o.fetch s.safe uf.url⟩ force
          (s.d.listsOf isAllowlist) s.files).files } := by
  rw [run_append]
  change run System.step (run System.step (s.step (.listsToUpdate isAllowlist force ivl now)) _) [.sync] = _
  cases hlist : DNSFilter.listsToUpdate ivl now force (s.d.listsOf isAllowlist) with
  | nil =>
    have hstep : s.step (.listsToUpdate isAllowlist force ivl now) = s := by
      dsimp only [System.step]
      rw [hlist, hnone]
    have harray : refreshFiltersArray s.d.dataDir ⟨ivl, now, fun uf => o.fetch s.safe uf.url⟩ force
        (s.d.listsOf isAllowlist) s.files = { filters := s.d.listsOf isAllowlist, files := s.files } := by
      unfold refreshFiltersArray
      rw [hlist]
    rw [hstep, harray, setListsOf_self]
    dsimp only [run, List.length_nil, List.replicate_zero, List.foldl_nil, List.foldl_cons, System.step]
    obtain ⟨d, safe, files, refreshing, adding⟩ := s
    cases hnone
    rfl
  | cons uf todo =>
    have hstep : s.step (.listsToUpdate isAllowlist force ivl now) =
        { s with refreshing := some { isAllowlist, todo := uf :: todo } } := by
      dsimp only [System.step]
      rw [hlist, hnone]
    rw [hstep, run_updates rfl]
    unfold refreshFiltersArray
    rw [hlist]
    dsimp only
    have hlen : ∀ (files : Files) (cs : List FilterYAML),
        (updateFilterList s.d.dataDir (fun uf => o.fetch s.safe uf.url) files cs).1.length = cs.length := by
      intro files cs
      induction cs generalizing files with
      | nil => rfl
      | cons c cs ih => exact congrArg Nat.succ (ih _)
    have hdone := hlen s.files (uf :: todo)
    generalize updateFilterList s.d.dataDir (fun uf => o.fetch s.safe uf.url) s.files (uf :: todo) = r at hdone ⊢
    obtain ⟨done, failNum, files⟩ := r
    dsimp only [run, List.foldl_cons, List.foldl_nil, System.step, List.nil_append]
    rw [Nat.zero_add]
    dsimp only at hdone
    by_cases hfail : failNum = (uf :: todo).length
    · rw [if_pos hfail, if_pos (hfail.trans hdone.symm)]
      dsimp only
      rw [setListsOf_self, hnone]
    · rw [if_neg hfail, if_neg fun heq => hfail (heq.trans hdone)]
      dsimp only
      rw [hnone]

/-- An update with its file succeeds with another file just if it does without. -/
theorem updateFile_eq (f : Fetch) (flt : FilterYAML) (file : Option (List UInt8)) :
    ((updateFile f flt file).1, (updateFile f flt file).2.2.1, (updateFile f flt file).2.2.2) =
      DNSFilter.update f.download flt := by
  unfold updateFile
  obtain ⟨⟨flt', b, err⟩, hres⟩ : ∃ r, DNSFilter.update f.download flt = r := ⟨_, rfl⟩
  rw [hres]
  split <;> simp_all

/-- A request to add a list that nothing comes into is `handleFilteringAddURL`. -/
theorem add_alone {k : ℕ} (hnone : s.adding k = none) (c : Checks) (fj : FilterAddJSON) (o : Outside) :
    (run System.step s [.add k c fj, .download k o, .filterAdd k]).d =
      (s.d.handleFilteringAddURL
        ⟨.ok fj, validateFilterURL s.safe c, (o.fetch s.safe fj.url).download⟩).1 := by
  have hidle : ∀ s : System, s.adding k = none → (s.step (.download k o)).d = s.d ∧
      (s.step (.download k o)).adding k = none := by
    intro s hnone
    dsimp only [System.step]
    rw [hnone]
    exact ⟨rfl, hnone⟩
  have hdone : ∀ s : System, s.adding k = none → (s.step (.filterAdd k)).d = s.d := by
    intro s hnone
    dsimp only [System.step]
    rw [hnone]
  change (((s.step (.add k c fj)).step (.download k o)).step (.filterAdd k)).d = _
  unfold handleFilteringAddURL
  dsimp only
  have hrefused : (s.step (.add k c fj)).adding k = none →
      (((s.step (.add k c fj)).step (.download k o)).step (.filterAdd k)).d = (s.step (.add k c fj)).d := by
    intro h
    obtain ⟨hd, hadding⟩ := hidle _ h
    exact (hdone _ hadding).trans hd
  cases hvalid : validateFilterURL s.safe c fj.url with
  | some err =>
    have hstep : s.step (.add k c fj) = s := by
      dsimp only [System.step]
      rw [if_pos (.inr (.inl (by simp [hvalid])))]
    rw [hrefused (by rw [hstep]; exact hnone), hstep]
  | none =>
    cases hexists : s.d.filterExists fj.url with
    | true =>
      have hstep : s.step (.add k c fj) = s := by
        dsimp only [System.step]
        rw [if_pos (.inr (.inr hexists))]
      rw [hrefused (by rw [hstep]; exact hnone), hstep]
      rfl
    | false =>
      have hgo : ¬ ((s.adding k).isSome = true ∨ validateFilterURL s.safe c fj.url ≠ none ∨
          s.d.filterExists fj.url = true) := by
        simp [hnone, hvalid, hexists]
      rw [if_neg Bool.false_ne_true]
      cases hnext : s.d.idGen.next with
      | none =>
        have hstep : s.step (.add k c fj) = { s with d := { s.d with idGen := ⟨0⟩ } } := by
          dsimp only [System.step]
          rw [if_neg hgo, hnext]
        rw [hrefused (by rw [hstep]; exact hnone), hstep]
      | some p =>
        obtain ⟨id, g⟩ := p
        have hstep : s.step (.add k c fj) = { s with
            d := { s.d with idGen := g }
            adding := Function.update s.adding k (some ⟨System.newFilter fj id, false⟩) } := by
          dsimp only [System.step]
          rw [if_neg hgo, hnext]
        dsimp only
        have hupdate := updateFile_eq (o.fetch s.safe fj.url) (System.newFilter fj id)
          (s.files ((System.newFilter fj id).path s.d.dataDir))
        obtain ⟨⟨filt, file, b, err⟩, hres⟩ : ∃ r, updateFile (o.fetch s.safe fj.url) (System.newFilter fj id)
          (s.files ((System.newFilter fj id).path s.d.dataDir)) = r := ⟨_, rfl⟩
        rw [hres] at hupdate
        dsimp only at hupdate
        have hends : ¬ (b = true ∧ err = none) →
            ((s.step (.add k c fj)).step (.download k o)).d = { s.d with idGen := g } ∧
            ((s.step (.add k c fj)).step (.download k o)).adding k = none := by
          intro hfail
          rw [hstep]
          dsimp only [System.step]
          rw [Function.update_self]
          dsimp only
          rw [show updateFile (o.fetch s.safe (System.newFilter fj id).url) _ _ = _ from hres]
          cases err with
          | some err => cases b <;> exact ⟨rfl, Function.update_self ..⟩
          | none =>
            cases b with
            | false => exact ⟨rfl, Function.update_self ..⟩
            | true => exact absurd ⟨rfl, rfl⟩ hfail
        have hupdate' : DNSFilter.update (o.fetch s.safe fj.url).download
            ⟨true, fj.url, fj.name, 0, 0, 0, fj.whitelist, id⟩ =
            (filt, b, err) := hupdate.symm
        rw [hupdate']
        cases err with
        | some err =>
          obtain ⟨hd, hadding⟩ := hends (by simp)
          rw [hdone _ hadding, hd]
        | none =>
          cases b with
          | false =>
            obtain ⟨hd, hadding⟩ := hends (by simp)
            rw [hdone _ hadding, hd]
          | true =>
            have hdownload : ((s.step (.add k c fj)).step (.download k o)).d = { s.d with idGen := g } ∧
                ((s.step (.add k c fj)).step (.download k o)).adding k = some ⟨filt, true⟩ := by
              rw [hstep]
              dsimp only [System.step]
              rw [Function.update_self]
              dsimp only
              rw [show updateFile (o.fetch s.safe (System.newFilter fj id).url) _ _ = _ from hres]
              exact ⟨rfl, Function.update_self ..⟩
            generalize (s.step (.add k c fj)).step (.download k o) = s' at hdownload
            dsimp only [System.step]
            rw [hdownload.2, ← hdownload.1]
            dsimp only
            cases s'.d.filterAdd filt <;> rfl

end Alone

/-! ## What a refresh writes back -/

section Names

variable {s : System} {filters : List FilterYAML} {done : List (FilterYAML × Bool)} {f' : FilterYAML}

/-- A list after `syncUpdatedFilters`: the last copy that is another file has been written to it. -/
theorem mem_syncUpdatedFilters (h : f' ∈ (syncUpdatedFilters filters done).1) :
    ∃ f ∈ filters, entry f' = entry f ∧
      ((∃ uf, (uf, true) ∈ done ∧ isCopyOf uf f = true ∧ f'.name = uf.name ∧ f'.rulesCount = uf.rulesCount ∧
          f'.checksum = uf.checksum) ∨
        ((∀ uf, (uf, true) ∈ done → isCopyOf uf f = false) ∧ f'.name = f.name ∧ f'.rulesCount = f.rulesCount ∧
          f'.checksum = f.checksum)) := by
  induction done generalizing filters with
  | nil => exact ⟨f', h, rfl, .inr ⟨fun uf huf => absurd huf List.not_mem_nil, rfl, rfl, rfl⟩⟩
  | cons c done ih =>
    obtain ⟨g, hg, hentry, hcases⟩ := ih h
    obtain ⟨f, hf, rfl⟩ := List.mem_map.1 hg
    obtain ⟨hid, hurl, hen⟩ := syncOne_key c.1 c.2 f
    have hcopy : ∀ uf, isCopyOf uf (syncOne c.1 c.2 f) = isCopyOf uf f := by
      intro uf
      unfold isCopyOf
      rw [hid, hurl]
    refine ⟨f, hf, hentry.trans (by rw [entry, hid, hurl, hen]; rfl), ?_⟩
    rcases hcases with ⟨uf, huf, hmatch, hsame⟩ | ⟨hnone, hsame⟩
    · exact .inl ⟨uf, List.mem_cons_of_mem _ huf, (hcopy uf).symm.trans hmatch, hsame⟩
    · by_cases hhead : isCopyOf c.1 f = true ∧ c.2 = true
      · have hsync : syncOne c.1 c.2 f = { f with
            lastUpdated := c.1.lastUpdated, name := c.1.name, rulesCount := c.1.rulesCount,
            checksum := c.1.checksum } := by
          unfold syncOne
          rw [if_pos hhead.1, if_pos hhead.2]
        rw [hsync] at hsame
        refine .inl ⟨c.1, ?_, hhead.1, hsame⟩
        rw [← hhead.2]
        exact List.mem_cons_self
      · have hsync : (syncOne c.1 c.2 f).name = f.name ∧ (syncOne c.1 c.2 f).rulesCount = f.rulesCount ∧
            (syncOne c.1 c.2 f).checksum = f.checksum := by
          unfold syncOne
          by_cases hmatch : isCopyOf c.1 f = true
          · rw [if_pos hmatch, if_neg fun hflag => hhead ⟨hmatch, hflag⟩]
            exact ⟨rfl, rfl, rfl⟩
          · rw [if_neg hmatch]
            exact ⟨rfl, rfl, rfl⟩
        refine .inr ⟨fun uf huf => ?_, hsame.1.trans hsync.1, hsame.2.1.trans hsync.2.1, hsame.2.2.trans hsync.2.2⟩
        rcases List.mem_cons.1 huf with rfl | huf
        · exact Bool.eq_false_iff.2 fun hmatch => hhead ⟨hmatch, rfl⟩
        · rw [← hcopy]
          exact hnone uf huf

theorem name_updateFile (f : Fetch) (flt : FilterYAML) (file : Option (List UInt8)) (hname : flt.name ≠ "") :
    (updateFile f flt file).1.name = flt.name := by
  have hensure : ∀ title, (flt.ensureName title).name = flt.name := by
    intro title
    unfold FilterYAML.ensureName
    rw [if_pos hname]
  rcases updateFile_cases f flt file with ⟨b, err, h⟩ | ⟨res, out, -, ⟨-, h⟩ | ⟨-, h⟩⟩
  · rw [h]
  · rw [h]
  · rw [h]
    exact hensure _

/-- While a refresh goes on, its copies stay, with their identifiers, URLs and names. -/
theorem inFlight_step (hrun : s.refreshing.isSome = true) {op : Step} (hop : op ≠ .sync) :
    (s.step op).refreshing.isSome = true ∧ ∀ c' ∈ (s.step op).inFlight, ∃ c ∈ s.inFlight,
      c'.id = c.id ∧ c'.url = c.url ∧ (c.name ≠ "" → c'.name = c.name) := by
  have hkeep : ∀ s' : System, s'.refreshing = s.refreshing → s'.refreshing.isSome = true ∧
      ∀ c' ∈ s'.inFlight, ∃ c ∈ s.inFlight, c'.id = c.id ∧ c'.url = c.url ∧ (c.name ≠ "" → c'.name = c.name) := by
    intro s' heq
    refine ⟨heq ▸ hrun, fun c' hc' => ⟨c', ?_, rfl, rfl, fun _ => rfl⟩⟩
    unfold System.inFlight at hc' ⊢
    rwa [heq] at hc'
  cases op with
  | listsToUpdate isAllowlist force ivl now =>
    refine hkeep _ ?_
    dsimp only [System.step]
    split
    · rename_i hnone _
      rw [hnone] at hrun
      cases hrun
    · rfl
  | update o =>
    cases hr : s.refreshing with
    | none =>
      rw [hr] at hrun
      cases hrun
    | some r =>
      obtain ⟨isAllowlist, todo, done, failNum⟩ := r
      cases todo with
      | nil =>
        refine hkeep _ ?_
        dsimp only [System.step]
        rw [hr]
        exact hr
      | cons uf todo =>
        dsimp only [System.step]
        rw [hr]
        dsimp only
        refine ⟨rfl, fun c' hc' => ?_⟩
        unfold System.inFlight at hc' ⊢
        rw [hr]
        dsimp only at hc' ⊢
        rw [List.map_append, List.append_assoc] at hc'
        rcases List.mem_append.1 hc' with hc' | hc'
        · exact ⟨c', List.mem_append_left _ hc', rfl, rfl, fun _ => rfl⟩
        · rcases List.mem_cons.1 hc' with rfl | hc'
          · obtain ⟨hid, hurl⟩ := updateFile_id_url (o.fetch s.safe uf.url) uf (s.files (uf.path s.d.dataDir))
            exact ⟨uf, List.mem_append_right _ List.mem_cons_self, hid, hurl, fun hname => name_updateFile _ _ _ hname⟩
          · exact ⟨c', List.mem_append_right _ (List.mem_cons_of_mem _ hc'), rfl, rfl, fun _ => rfl⟩
  | sync => exact absurd rfl hop
  | removeOldFilterFile flt => exact hkeep _ rfl
  | add k c fj =>
    refine hkeep _ ?_
    dsimp only [System.step]
    split
    · rfl
    · split <;> rfl
  | download k o =>
    refine hkeep _ ?_
    dsimp only [System.step]
    split
    · split <;> rfl
    · rfl
  | filterAdd k =>
    refine hkeep _ ?_
    dsimp only [System.step]
    split
    · split <;> rfl
    · rfl
  | removeURL rename url isAllowlist => exact hkeep _ rfl
  | setURL c o listURL newList isAllowlist =>
    refine hkeep _ ?_
    dsimp only [System.step]
    split <;> rfl

/-- A list that a refresh finds new rules for has the name after it that it had when the refresh began, whatever it was
called in between. -/
theorem name_of_refresh (hids : s.d.ids.Nodup) (hnone : s.refreshing = none) {isAllowlist force : Bool} {ivl now : ℕ}
    {flt : FilterYAML} (hflt : flt ∈ s.d.listsOf isAllowlist) (hdue : due ivl now force flt = true)
    (hname : flt.name ≠ "") {mid : List Step} (hmid : ∀ op ∈ mid, op ≠ .sync) {s' : System}
    (hs' : run System.step s (.listsToUpdate isAllowlist force ivl now :: mid) = s')
    {done : List (FilterYAML × Bool)} {failNum : ℕ} (hdone : s'.refreshing = some ⟨isAllowlist, [], done, failNum⟩)
    (hfail : failNum ≠ done.length) {uf : FilterYAML} (huf : (uf, true) ∈ done) (hid : uf.id = flt.id) :
    ∀ f ∈ (s'.step .sync).d.listsOf isAllowlist, isCopyOf uf f = true → f.name = flt.name := by
  have hmem : ∀ c ∈ DNSFilter.listsToUpdate ivl now force (s.d.listsOf isAllowlist), c.id = flt.id →
      c.name = flt.name := by
    intro c hc hid
    obtain ⟨g, hg, -, rfl⟩ := mem_listsToUpdate hc
    have hg' : g ∈ s.d.lists ∧ flt ∈ s.d.lists := by
      cases isAllowlist with
      | false => exact ⟨List.mem_append_left _ hg, List.mem_append_left _ hflt⟩
      | true => exact ⟨List.mem_append_right _ hg, List.mem_append_right _ hflt⟩
    rw [List.inj_on_of_nodup_map hids hg'.1 hg'.2 hid]
    rfl
  have hstart : (s.step (.listsToUpdate isAllowlist force ivl now)).refreshing.isSome = true ∧
      ∀ c ∈ (s.step (.listsToUpdate isAllowlist force ivl now)).inFlight, c.id = flt.id → c.name = flt.name := by
    have hin : copied flt ∈ DNSFilter.listsToUpdate ivl now force (s.d.listsOf isAllowlist) :=
      List.mem_map_of_mem (List.mem_filter.2 ⟨hflt, hdue⟩)
    dsimp only [System.step]
    rw [hnone]
    cases hlist : DNSFilter.listsToUpdate ivl now force (s.d.listsOf isAllowlist) with
    | nil =>
      rw [hlist] at hin
      cases hin
    | cons c todo =>
      rw [hlist] at hmem
      exact ⟨rfl, hmem⟩
  have hrun : ∀ (mid : List Step) (s₁ : System), (∀ op ∈ mid, op ≠ .sync) → s₁.refreshing.isSome = true →
      (∀ c ∈ s₁.inFlight, c.id = flt.id → c.name = flt.name) →
      ∀ c ∈ (run System.step s₁ mid).inFlight, c.id = flt.id → c.name = flt.name := by
    intro mid
    induction mid with
    | nil => exact fun s₁ _ _ h => h
    | cons op mid ih =>
      intro s₁ hmid hsome h
      obtain ⟨hsome', hkept⟩ := inFlight_step hsome (hmid op (by simp))
      refine ih (s₁.step op) (fun op' hop' => hmid op' (List.mem_cons_of_mem _ hop')) hsome' fun c' hc' hid' => ?_
      obtain ⟨c, hc, hcid, -, hcname⟩ := hkept c' hc'
      have hsame := h c hc (hcid ▸ hid')
      rw [hcname (hsame ▸ hname), hsame]
  have hcopies : ∀ c ∈ s'.inFlight, c.id = flt.id → c.name = flt.name := by
    subst hs'
    exact hrun mid _ hmid hstart.1 hstart.2
  intro f hf hcopy
  dsimp only [System.step] at hf
  rw [hdone] at hf
  dsimp only at hf
  rw [if_neg hfail, listsOf_setListsOf] at hf
  obtain ⟨f₀, -, hentry, ⟨uf', huf', hmatch, hsame, -⟩ | ⟨hother, -⟩⟩ := mem_syncUpdatedFilters hf
  · rw [hsame]
    refine hcopies uf' ?_ ?_
    · unfold System.inFlight
      rw [hdone]
      exact List.mem_append_left _ (List.mem_map_of_mem (f := Prod.fst) huf')
    · have hfid : f.id = f₀.id := congrArg Entry.id hentry
      have hid₀ : f₀.id = uf'.id := by simpa using (Bool.and_eq_true_iff.1 hmatch).1
      have hidf : f.id = uf.id := by simpa using (Bool.and_eq_true_iff.1 hcopy).1
      rw [← hid₀, ← hfid, hidf, hid]
  · have hno := hother uf huf
    unfold isCopyOf at hcopy hno
    rw [show f.id = f₀.id from congrArg Entry.id hentry, show f.url = f₀.url from congrArg Entry.url hentry, hno] at hcopy
    cases hcopy

end Names

/-! ## Records and files -/

/-- What holds of the lists and their files while refreshes and requests go on: the record of a list fits its file, or a
copy of the list that the refresh has updated does. -/
structure System.Coherent (s : System) : Prop where
  ids : s.d.ids.Nodup
  /-- A list that is added has an identifier of its own. -/
  fresh : ∀ k a, s.adding k = some a → a.filt.id ∉ s.d.ids ∧ ∀ c ∈ s.inFlight, c.id ≠ a.filt.id
  apart : ∀ k k' a a', s.adding k = some a → s.adding k' = some a' → a.filt.id = a'.filt.id → k = k'
  copies : (s.inFlight.map (·.id)).Nodup
  slice : ∀ r, s.refreshing = some r → ∀ c ∈ s.inFlight, ∀ flt ∈ s.d.listsOf (!r.isAllowlist), flt.id ≠ c.id
  copied : ∀ c ∈ s.inFlight, ∀ flt ∈ s.d.lists, flt.id = c.id → flt.url = c.url ∨ flt.checksum = 0
  count : ∀ r, s.refreshing = some r → r.done.countP (·.2) + r.failNum ≤ r.done.length
  written : ∀ r, s.refreshing = some r → ∀ uf, (uf, true) ∈ r.done → (∃ flt ∈ s.d.lists, flt.id = uf.id) →
    Kept uf (s.files (uf.path s.d.dataDir))
  downloaded : ∀ k a, s.adding k = some a → a.downloaded = true → Kept a.filt (s.files (a.filt.path s.d.dataDir))
  kept : ∀ flt ∈ s.d.lists, Kept flt (s.files (flt.path s.d.dataDir)) ∨
    ∃ r uf, s.refreshing = some r ∧ (uf, true) ∈ r.done ∧ isCopyOf uf flt = true

/-- No edit downloads a list that a refresh has a copy of, no identifier is used twice, and the files that a refresh has
downloaded can be put into place. -/
def System.Quiet (s : System) : Step → Prop
  | .update o => o.closeReplace = none
  | .add _ _ _ => ∀ p ∈ s.d.idGen.next, p.1 ∉ s.d.ids ∧ (∀ c ∈ s.inFlight, c.id ≠ p.1) ∧
      ∀ k a, s.adding k = some a → a.filt.id ≠ p.1
  | .setURL _ _ listURL newList isAllowlist => ∀ flt ∈ s.d.listsOf isAllowlist, flt.url = listURL →
      (∃ c ∈ s.inFlight, c.id = flt.id) → newList.enabled = false ∨ ¬ Restarts newList flt
  | _ => True

section Coherent

variable {s : System}

/-- A file that is replaced has the rules that its list remembers then. -/
theorem kept_of_replaced {f : Fetch} {flt flt' : FilterYAML} {file file' : Option (List UInt8)}
    (h : updateFile f flt file = (flt', file', true, none)) : Kept flt' file' := by
  rcases updateFile_cases f flt file with ⟨b, err, herr⟩ | ⟨res, out, hread, ⟨-, hsame⟩ | ⟨-, hnew⟩⟩
  · rw [herr] at h
    cases h
  · rw [hsame] at h
    cases h
  · obtain ⟨src, -, hparse⟩ := read_ok hread
    have hnone : (Parser.parse f.dst src).2.2 = none := by rw [hparse]
    obtain ⟨hout, ⟨title, htitle⟩, hclean⟩ := Parser.parse_ok hnone
    rw [hparse] at hout htitle
    dsimp only at hout htitle
    subst hout htitle
    rw [hnew] at h
    cases h
    exact .inr ⟨_, rfl, current_unlines hclean rfl rfl⟩

/-- Without the flag the file stays. -/
theorem file_of_not_updated {f : Fetch} {flt : FilterYAML} {file : Option (List UInt8)}
    (h : (updateFile f flt file).2.2.1 = false) : (updateFile f flt file).2.1 = file := by
  by_contra hne
  have hflag := (updateFile_flag hne).1
  rw [hflag] at h
  cases h

/-- If the file can be put into place, the flag is not set for a failure. -/
theorem updateFile_err {f : Fetch} (hclose : f.closeReplace = none) {flt : FilterYAML} {file : Option (List UInt8)}
    (h : (updateFile f flt file).2.2.1 = true) : (updateFile f flt file).2.2.2 = none := by
  unfold updateFile update updateIntl Fetch.download at h ⊢
  cases hpending : f.newPendingFile with
  | some err =>
    rw [hpending] at h
    cases h
  | none =>
    rw [hpending] at h
    cases hread : f.read with
    | error err =>
      rw [hread] at h
      cases h
    | ok r =>
      rw [hread] at h
      dsimp only [Except.map] at h ⊢
      by_cases hsum : (parseResult r.1).checksum = flt.checksum
      · rw [if_pos hsum] at h
        cases hcleanup : f.cleanup with
        | some err =>
          rw [hcleanup] at h
          cases h
        | none =>
          rw [hcleanup] at h
          cases h
      · rw [if_neg hsum, hclose]

/-- The files of lists with other identifiers. -/
theorem file_of_ne {files : Files} {dataDir : String} {f f' : FilterYAML} (h : f'.id ≠ f.id)
    (file : Option (List UInt8)) :
    Function.update files (f.path dataDir) file (f'.path dataDir) = files (f'.path dataDir) :=
  Function.update_of_ne (fun heq => h (FilterYAML.path_inj heq)) _ _

theorem inFlight_of_none (h : s.refreshing = none) : s.inFlight = [] := by
  unfold System.inFlight
  rw [h]

theorem System.Coherent.listsToUpdate (h : s.Coherent) (isAllowlist force : Bool) (ivl now : ℕ) :
    (s.step (.listsToUpdate isAllowlist force ivl now)).Coherent := by
  dsimp only [System.step]
  split
  · rename_i uf todo hnone hlist
    have hcopy : ∀ c ∈ uf :: todo, ∃ g ∈ s.d.listsOf isAllowlist, c = DNSFilter.copied g := by
      rw [← hlist]
      intro c hc
      obtain ⟨g, hg, -, heq⟩ := mem_listsToUpdate hc
      exact ⟨g, hg, heq⟩
    have hids := h.ids
    unfold DNSFilter.ids DNSFilter.lists at hids
    rw [List.map_append, List.nodup_append] at hids
    refine ⟨h.ids, fun k a ha => ⟨(h.fresh k a ha).1, fun c hc heq => ?_⟩, h.apart, ?_, ?_, ?_, ?_, ?_, h.downloaded,
      fun flt hflt => ?_⟩
    · obtain ⟨g, hg, rfl⟩ := hcopy c hc
      exact (h.fresh k a ha).1 (mem_ids.2 ⟨g, mem_lists.2 ⟨_, hg⟩, heq⟩)
    · change ((uf :: todo).map (·.id)).Nodup
      rw [← hlist]
      refine nodup_listsToUpdate ?_ ivl now force
      cases isAllowlist with
      | false => exact hids.1
      | true => exact hids.2.1
    · rintro r hr c hc flt hflt heq
      cases hr
      obtain ⟨g, hg, rfl⟩ := hcopy c hc
      cases isAllowlist with
      | false => exact hids.2.2 _ (List.mem_map_of_mem hg) _ (List.mem_map_of_mem hflt) heq.symm
      | true => exact hids.2.2 _ (List.mem_map_of_mem hflt) _ (List.mem_map_of_mem hg) heq
    · intro c hc flt hflt heq
      obtain ⟨g, hg, rfl⟩ := hcopy c hc
      left
      rw [List.inj_on_of_nodup_map h.ids hflt (mem_lists.2 ⟨_, hg⟩) heq]
      rfl
    · rintro r hr
      cases hr
      exact Nat.le_refl 0
    · rintro r hr uf' huf'
      cases hr
      cases huf'
    · rcases h.kept flt hflt with hkept | ⟨r, uf', hr, -⟩
      · exact .inl hkept
      · rw [hnone] at hr
        cases hr
  · exact h

theorem System.Coherent.update (h : s.Coherent) {o : Outside} (hclose : o.closeReplace = none) :
    (s.step (.update o)).Coherent := by
  dsimp only [System.step]
  split
  · rename_i isAllowlist uf todo done failNum hr
    have hflight : s.inFlight = done.map Prod.fst ++ uf :: todo := by
      unfold System.inFlight
      rw [hr]
    obtain ⟨⟨uf', file, updated, err⟩, hres⟩ :
      ∃ r, updateFile (o.fetch s.safe uf.url) uf (s.files (uf.path s.d.dataDir)) = r := ⟨_, rfl⟩
    obtain ⟨hid, hurl⟩ := updateFile_id_url (o.fetch s.safe uf.url) uf (s.files (uf.path s.d.dataDir))
    have hfile : (updateFile (o.fetch s.safe uf.url) uf (s.files (uf.path s.d.dataDir))).2.2.1 = false → _ :=
      file_of_not_updated
    have herr : (updateFile (o.fetch s.safe uf.url) uf (s.files (uf.path s.d.dataDir))).2.2.1 = true → _ :=
      updateFile_err hclose
    rw [hres] at hid hurl hfile herr
    dsimp only at hid hurl hfile herr
    rw [hres]
    dsimp only
    have hcopies := h.copies
    rw [hflight, List.map_append, List.map_cons, List.nodup_append, List.nodup_cons] at hcopies
    have huf : uf ∈ s.inFlight := by
      rw [hflight]
      simp
    have hkeptNew : updated = true → Kept uf' file := by
      intro hflag
      subst hflag
      rw [herr rfl] at hres
      exact kept_of_replaced hres
    have hdone : ∀ c ∈ done.map Prod.fst, c.id ≠ uf.id := fun c hc heq =>
      hcopies.2.2 _ (List.mem_map_of_mem hc) _ List.mem_cons_self heq
    have hstill : ∀ c' ∈ (done ++ [(uf', updated)]).map Prod.fst ++ todo,
        ∃ c ∈ s.inFlight, c'.id = c.id ∧ c'.url = c.url := by
      intro c' hc'
      rw [hflight]
      rw [List.map_append, List.append_assoc] at hc'
      rcases List.mem_append.1 hc' with hc' | hc'
      · exact ⟨c', List.mem_append_left _ hc', rfl, rfl⟩
      · rcases List.mem_cons.1 hc' with rfl | hc'
        · exact ⟨uf, by simp, hid, hurl⟩
        · exact ⟨c', List.mem_append_right _ (List.mem_cons_of_mem _ hc'), rfl, rfl⟩
    refine ⟨h.ids, fun k a ha => ⟨(h.fresh k a ha).1, fun c' hc' heq => ?_⟩, h.apart, ?_, ?_, ?_, ?_, ?_, ?_, ?_⟩
    · obtain ⟨c, hc, hcid, -⟩ := hstill c' hc'
      exact (h.fresh k a ha).2 c hc (hcid.symm.trans heq)
    · have hsame : (((done ++ [(uf', updated)]).map Prod.fst ++ todo).map (·.id)) = s.inFlight.map (·.id) := by
        rw [hflight]
        simp [hid]
      exact hsame ▸ h.copies
    · rintro r hr' c' hc' flt hflt heq
      cases hr'
      obtain ⟨c, hc, hcid, -⟩ := hstill c' hc'
      exact h.slice _ hr c hc flt hflt (heq.trans hcid)
    · intro c' hc' flt hflt heq
      obtain ⟨c, hc, hcid, hcurl⟩ := hstill c' hc'
      rw [hcurl]
      exact h.copied c hc flt hflt (heq.trans hcid)
    · rintro r hr'
      cases hr'
      have hcount := h.count _ hr
      dsimp only at hcount ⊢
      rw [List.countP_append, List.length_append]
      cases updated with
      | false =>
        simp only [List.countP_cons, List.countP_nil, List.length_cons, List.length_nil, Bool.false_eq_true, if_false]
        split <;> omega
      | true =>
        rw [herr rfl]
        simp only [List.countP_cons, List.countP_nil, List.length_cons, List.length_nil, if_true, Option.isSome_none,
          Bool.false_eq_true, if_false]
        omega
    · rintro r hr' c hc hexists
      cases hr'
      rcases List.mem_append.1 hc with hc | hc
      · dsimp only
        rw [file_of_ne (hdone c (List.mem_map_of_mem (f := Prod.fst) hc))]
        exact h.written _ hr c hc hexists
      · obtain ⟨rfl, rfl⟩ := Prod.mk.inj (List.mem_singleton.1 hc)
        dsimp only
        rw [path_congr hid, Function.update_self]
        exact hkeptNew rfl
    · intro k a ha hdown
      dsimp only
      rw [file_of_ne fun heq => (h.fresh k a ha).2 uf huf heq.symm]
      exact h.downloaded k a ha hdown
    · intro flt hflt
      dsimp only
      rcases h.kept flt hflt with hkept | ⟨r, c, hr', hc, hcopy⟩
      · by_cases heq : flt.id = uf.id
        · cases updated with
          | false =>
            left
            rw [path_congr heq, Function.update_self, hfile rfl, ← path_congr heq]
            exact hkept
          | true =>
            rcases h.copied uf huf flt hflt heq with hsame | hzero
            · refine .inr ⟨_, uf', rfl, by simp, ?_⟩
              unfold isCopyOf
              rw [hid, hurl, heq, hsame]
              simp
            · exact .inl (.inl hzero)
        · rw [file_of_ne heq]
          exact .inl hkept
      · rw [hr] at hr'
        cases hr'
        exact .inr ⟨_, c, rfl, List.mem_append_left _ hc, hcopy⟩
  · exact h

theorem dataDir_setListsOf (d : DNSFilter) (isAllowlist : Bool) (filters : List FilterYAML) :
    (d.setListsOf isAllowlist filters).dataDir = d.dataDir := by
  cases isAllowlist <;> rfl

/-- The identifiers of the lists, from those of the slices. -/
theorem ids_congr {d d' : DNSFilter} (h : ∀ w, (d'.listsOf w).map (·.id) = (d.listsOf w).map (·.id)) :
    d'.ids = d.ids := by
  unfold DNSFilter.ids DNSFilter.lists
  rw [List.map_append, List.map_append]
  exact congrArg₂ _ (h false) (h true)

theorem System.Coherent.sync (h : s.Coherent) : (s.step .sync).Coherent := by
  dsimp only [System.step]
  split
  · rename_i isAllowlist done failNum hr
    have hflight : ∀ c, (c, true) ∈ done → c ∈ s.inFlight := by
      intro c hc
      unfold System.inFlight
      rw [hr]
      exact List.mem_append_left _ (List.mem_map_of_mem (f := Prod.fst) hc)
    split
    · rename_i hfail
      -- No copy of a refresh that has failed is another file.
      have hnone : ∀ c, (c, true) ∉ done := by
        intro c hc
        have hcount := h.count _ hr
        have hpos : 0 < done.countP (·.2) := List.countP_pos_iff.2 ⟨_, hc, rfl⟩
        dsimp only at hcount
        omega
      refine ⟨h.ids, fun k a ha => ⟨(h.fresh k a ha).1, fun c hc => absurd hc List.not_mem_nil⟩, h.apart, List.nodup_nil,
        ?_, fun c hc => absurd hc List.not_mem_nil, ?_, ?_, h.downloaded, fun flt hflt => ?_⟩
      · rintro r hr'
        cases hr'
      · rintro r hr'
        cases hr'
      · rintro r hr'
        cases hr'
      · rcases h.kept flt hflt with hkept | ⟨r, c, hr', hc, -⟩
        · exact .inl hkept
        · rw [hr] at hr'
          cases hr'
          exact absurd hc (hnone c)
    · have hids : (s.d.setListsOf isAllowlist (syncUpdatedFilters (s.d.listsOf isAllowlist) done).1).ids = s.d.ids := by
        refine ids_congr fun w => ?_
        by_cases hw : w = isAllowlist
        · subst hw
          rw [listsOf_setListsOf, map_syncUpdatedFilters fun uf b f => (syncOne_key uf b f).1]
        · rw [listsOf_setListsOf_ne hw]
      refine ⟨hids ▸ h.ids, fun k a ha => ⟨hids ▸ (h.fresh k a ha).1, fun c hc => absurd hc List.not_mem_nil⟩, h.apart,
        List.nodup_nil, ?_, fun c hc => absurd hc List.not_mem_nil, ?_, ?_, ?_, ?_⟩
      · rintro r hr'
        cases hr'
      · rintro r hr'
        cases hr'
      · rintro r hr'
        cases hr'
      · dsimp only
        rw [dataDir_setListsOf]
        exact h.downloaded
      · intro flt' hflt'
        left
        dsimp only at hflt' ⊢
        rw [dataDir_setListsOf]
        obtain ⟨w, hw⟩ := mem_lists.1 hflt'
        by_cases hslice : w = isAllowlist
        · subst hslice
          rw [listsOf_setListsOf] at hw
          obtain ⟨f, hf, hentry, ⟨uf, huf, hmatch, -, hcount, hsum⟩ | ⟨hother, -, hcount, hsum⟩⟩ :=
            mem_syncUpdatedFilters hw
          · have hid : f.id = uf.id := by simpa using (Bool.and_eq_true_iff.1 hmatch).1
            have hkept := h.written _ hr uf huf ⟨f, mem_lists.2 ⟨w, hf⟩, hid⟩
            rw [path_congr ((show flt'.id = f.id from congrArg Entry.id hentry).trans hid)]
            exact hkept.congr hsum hcount
          · rcases h.kept f (mem_lists.2 ⟨w, hf⟩) with hkept | ⟨r, c, hr', hc, hcopy⟩
            · rw [path_congr (show flt'.id = f.id from congrArg Entry.id hentry)]
              exact hkept.congr hsum hcount
            · rw [hr] at hr'
              cases hr'
              rw [hother c hc] at hcopy
              cases hcopy
        · rw [listsOf_setListsOf_ne hslice] at hw
          rcases h.kept flt' (mem_lists.2 ⟨w, hw⟩) with hkept | ⟨r, c, hr', hc, hcopy⟩
          · exact hkept
          · rw [hr] at hr'
            cases hr'
            have hid : flt'.id = c.id := by simpa using (Bool.and_eq_true_iff.1 hcopy).1
            obtain rfl : w = !isAllowlist := by
              cases w <;> cases isAllowlist <;> simp at hslice ⊢
            exact absurd hid (h.slice _ hr c (hflight c hc) flt' hw)
  · exact h

/-- Other files do not matter, if those of the lists stay. -/
theorem System.Coherent.of_files (h : s.Coherent) {files : Files}
    (hfiles : ∀ flt : FilterYAML, files (flt.path s.d.dataDir) = s.files (flt.path s.d.dataDir)) :
    ({ s with files := files } : System).Coherent :=
  ⟨h.ids, h.fresh, h.apart, h.copies, h.slice, h.copied, h.count,
    fun r hr uf huf hexists => by
      dsimp only
      rw [hfiles uf]
      exact h.written r hr uf huf hexists,
    fun k a ha hdown => by
      dsimp only
      rw [hfiles a.filt]
      exact h.downloaded k a ha hdown,
    fun flt hflt => by
      dsimp only
      rw [hfiles flt]
      exact h.kept flt hflt⟩

theorem System.Coherent.removeOldFilterFile (h : s.Coherent) (flt : FilterYAML) :
    (s.step (.removeOldFilterFile flt)).Coherent :=
  h.of_files fun flt' => Function.update_of_ne (path_ne_old flt' _ _) _ _

/-- The lists are those of a state that differs in the requests that add lists. -/
theorem System.Coherent.of_adding (h : s.Coherent) {g : IDGenerator} {adding : ℕ → Option Adding}
    (hfresh : ∀ k a, adding k = some a → a.filt.id ∉ s.d.ids ∧ ∀ c ∈ s.inFlight, c.id ≠ a.filt.id)
    (hapart : ∀ k k' a a', adding k = some a → adding k' = some a' → a.filt.id = a'.filt.id → k = k')
    (hdown : ∀ k a, adding k = some a → a.downloaded = true → Kept a.filt (s.files (a.filt.path s.d.dataDir))) :
    ({ s with d := { s.d with idGen := g }, adding := adding } : System).Coherent :=
  ⟨h.ids, hfresh, hapart, h.copies, h.slice, h.copied, h.count, h.written, hdown, h.kept⟩

/-- A request that ends. -/
theorem adding_of_erase {adding : ℕ → Option Adding} {k k' : ℕ} {a : Adding}
    (h : Function.update adding k none k' = some a) : k' ≠ k ∧ adding k' = some a := by
  by_cases hk : k' = k
  · subst hk
    rw [Function.update_self] at h
    cases h
  · rw [Function.update_of_ne hk] at h
    exact ⟨hk, h⟩

/-- A request that goes on. -/
theorem adding_of_update {adding : ℕ → Option Adding} {k k' : ℕ} {a a' : Adding}
    (h : Function.update adding k (some a) k' = some a') : (k' = k ∧ a' = a) ∨ (k' ≠ k ∧ adding k' = some a') := by
  by_cases hk : k' = k
  · subst hk
    rw [Function.update_self] at h
    exact .inl ⟨rfl, (Option.some.inj h).symm⟩
  · rw [Function.update_of_ne hk] at h
    exact .inr ⟨hk, h⟩

theorem System.Coherent.erase (h : s.Coherent) (k : ℕ) :
    ({ s with adding := Function.update s.adding k none } : System).Coherent :=
  h.of_adding (g := s.d.idGen) (fun k' a ha => h.fresh k' a (adding_of_erase ha).2)
    (fun k' k'' a a' ha ha' => h.apart k' k'' a a' (adding_of_erase ha).2 (adding_of_erase ha').2)
    fun k' a ha => h.downloaded k' a (adding_of_erase ha).2

theorem System.Coherent.add (h : s.Coherent) {k : ℕ} {c : Checks} {fj : FilterAddJSON} (hquiet : s.Quiet (.add k c fj)) :
    (s.step (.add k c fj)).Coherent := by
  dsimp only [System.step]
  split
  · exact h
  · split
    · exact h.of_adding h.fresh h.apart h.downloaded
    · rename_i id g hnext
      obtain ⟨hlists, hcopies, hothers⟩ := hquiet (id, g) hnext
      refine h.of_adding (fun k' a ha => ?_) (fun k' k'' a a' ha ha' heq => ?_) fun k' a ha hdown => ?_
      · rcases adding_of_update ha with ⟨rfl, rfl⟩ | ⟨-, hold⟩
        · exact ⟨hlists, hcopies⟩
        · exact h.fresh k' a hold
      · rcases adding_of_update ha with ⟨hk, rfl⟩ | ⟨-, hold⟩
        · rcases adding_of_update ha' with ⟨hk', -⟩ | ⟨-, hold'⟩
          · rw [hk, hk']
          · exact absurd heq.symm (hothers k'' a' hold')
        · rcases adding_of_update ha' with ⟨-, rfl⟩ | ⟨-, hold'⟩
          · exact absurd heq (hothers k' a hold)
          · exact h.apart k' k'' a a' hold hold' heq
      · rcases adding_of_update ha with ⟨-, rfl⟩ | ⟨-, hold⟩
        · cases hdown
        · exact h.downloaded k' a hold hdown

theorem System.Coherent.download (h : s.Coherent) (k : ℕ) (o : Outside) : (s.step (.download k o)).Coherent := by
  dsimp only [System.step]
  split
  · rename_i filt hadding
    obtain ⟨hfresh, hcopies⟩ := h.fresh k _ hadding
    split
    · rename_i filt' file hres
      have hid : filt'.id = filt.id := by
        have hid := (updateFile_id_url (o.fetch s.safe filt.url) filt (s.files (filt.path s.d.dataDir))).1
        rwa [hres] at hid
      have hkept : Kept filt' file := kept_of_replaced hres
      have hfiles : ∀ flt : FilterYAML, flt.id ≠ filt.id →
          Function.update s.files (filt.path s.d.dataDir) file (flt.path s.d.dataDir) = s.files (flt.path s.d.dataDir) :=
        fun flt hne => file_of_ne hne file
      refine ⟨h.ids, fun k' a ha => ?_, fun k' k'' a a' ha ha' heq => ?_, h.copies, h.slice, h.copied, h.count,
        fun r hr uf huf hexists => ?_, fun k' a ha hdown => ?_, fun flt hflt => ?_⟩
      · rcases adding_of_update ha with ⟨-, rfl⟩ | ⟨-, hold⟩
        · exact ⟨hid.symm ▸ hfresh, fun c hc heq => hcopies c hc (heq.trans hid)⟩
        · exact h.fresh k' a hold
      · rcases adding_of_update ha with ⟨hk, rfl⟩ | ⟨-, hold⟩
        · rcases adding_of_update ha' with ⟨hk', -⟩ | ⟨-, hold'⟩
          · rw [hk, hk']
          · exact hk.trans (h.apart k k'' _ a' hadding hold' (hid.symm.trans heq))
        · rcases adding_of_update ha' with ⟨hk', rfl⟩ | ⟨-, hold'⟩
          · exact (h.apart k' k a _ hold hadding (heq.trans hid)).trans hk'.symm
          · exact h.apart k' k'' a a' hold hold' heq
      · dsimp only
        rw [hfiles uf fun heq => hcopies uf ?_ heq]
        · exact h.written r hr uf huf hexists
        · have hr' : s.refreshing = some r := hr
          unfold System.inFlight
          rw [hr']
          exact List.mem_append_left _ (List.mem_map_of_mem (f := Prod.fst) huf)
      · dsimp only
        rcases adding_of_update ha with ⟨-, rfl⟩ | ⟨hk, hold⟩
        · rw [path_congr hid, Function.update_self]
          exact hkept
        · rw [hfiles a.filt fun heq => hk (h.apart k' k a _ hold hadding heq)]
          exact h.downloaded k' a hold hdown
      · dsimp only
        rw [hfiles flt fun heq => hfresh (mem_ids.2 ⟨flt, hflt, heq⟩)]
        exact h.kept flt hflt
    · exact h.erase k
  · exact h

theorem System.Coherent.filterAdd (h : s.Coherent) (k : ℕ) : (s.step (.filterAdd k)).Coherent := by
  dsimp only [System.step]
  split
  · rename_i filt hadding
    obtain ⟨hfresh, hcopies⟩ := h.fresh k _ hadding
    unfold DNSFilter.filterAdd
    by_cases hexists : s.d.filterExists filt.url = true
    · rw [if_pos hexists]
      exact h.erase k
    · rw [if_neg hexists]
      have hsplit : (if filt.white = true then
          (Except.ok { s.d with whitelistFilters := s.d.whitelistFilters ++ [filt] } : Except String DNSFilter)
          else .ok { s.d with filters := s.d.filters ++ [filt] }) =
            .ok (s.d.setListsOf filt.white (s.d.listsOf filt.white ++ [filt])) := by
        cases filt.white <;> rfl
      rw [hsplit]
      dsimp only
      have hperm : (s.d.setListsOf filt.white (s.d.listsOf filt.white ++ [filt])).lists.Perm (filt :: s.d.lists) := by
        obtain ⟨d', hadd, hperm⟩ := filterAdd_of_not_exists (Bool.eq_false_iff.2 hexists)
        unfold DNSFilter.filterAdd at hadd
        rw [if_neg hexists, hsplit] at hadd
        cases hadd
        exact hperm
      have hids : (s.d.setListsOf filt.white (s.d.listsOf filt.white ++ [filt])).ids.Perm (filt.id :: s.d.ids) :=
        hperm.map FilterYAML.id
      have hmem : ∀ flt ∈ (s.d.setListsOf filt.white (s.d.listsOf filt.white ++ [filt])).lists,
          flt = filt ∨ flt ∈ s.d.lists := fun flt hflt => List.mem_cons.1 (hperm.mem_iff.1 hflt)
      refine ⟨hids.nodup_iff.2 (List.nodup_cons.2 ⟨hfresh, h.ids⟩), fun k' a ha => ⟨fun hin => ?_, ?_⟩,
        fun k' k'' a a' ha ha' => h.apart k' k'' a a' (adding_of_erase ha).2 (adding_of_erase ha').2, h.copies,
        fun r hr c hc flt hflt heq => ?_, fun c hc flt hflt heq => ?_, h.count, fun r hr uf huf hexists => ?_,
        fun k' a ha hdown => ?_, fun flt hflt => ?_⟩
      · obtain ⟨hk, hold⟩ := adding_of_erase ha
        rcases List.mem_cons.1 (hids.mem_iff.1 hin) with heq | hin
        · exact hk (h.apart k' k a _ hold hadding heq)
        · exact (h.fresh k' a hold).1 hin
      · exact (h.fresh k' a (adding_of_erase ha).2).2
      · by_cases hw : (!r.isAllowlist) = filt.white
        · rw [hw, listsOf_setListsOf] at hflt
          rcases List.mem_append.1 hflt with hflt | hflt
          · exact h.slice r hr c hc flt (hw ▸ hflt) heq
          · obtain rfl := List.mem_singleton.1 hflt
            exact hcopies c hc heq.symm
        · rw [listsOf_setListsOf_ne hw] at hflt
          exact h.slice r hr c hc flt hflt heq
      · rcases hmem flt hflt with rfl | hflt
        · exact absurd heq.symm (hcopies c hc)
        · exact h.copied c hc flt hflt heq
      · dsimp only
        rw [dataDir_setListsOf]
        refine h.written r hr uf huf ?_
        obtain ⟨flt, hflt, heq⟩ := hexists
        rcases hmem flt hflt with rfl | hflt
        · refine absurd heq.symm (hcopies uf ?_)
          have hr' : s.refreshing = some r := hr
          unfold System.inFlight
          rw [hr']
          exact List.mem_append_left _ (List.mem_map_of_mem (f := Prod.fst) huf)
        · exact ⟨flt, hflt, heq⟩
      · dsimp only
        rw [dataDir_setListsOf]
        exact h.downloaded k' a (adding_of_erase ha).2 hdown
      · dsimp only
        rw [dataDir_setListsOf]
        rcases hmem flt hflt with rfl | hflt
        · exact .inl (h.downloaded k _ hadding rfl)
        · exact h.kept flt hflt
  · exact h

theorem System.Coherent.removeURL (h : s.Coherent) (rename : Option String) (url : String) (isAllowlist : Bool) :
    (s.step (.removeURL rename url isAllowlist)).Coherent := by
  dsimp only [System.step]
  rcases removeURL_cases s.d s.files rename url isAllowlist with
    ⟨hsame, -⟩ | ⟨i, deleted, files', -, hdel, -, -, hres, hfiles⟩
  · rw [hsame]
    exact h
  · rw [hres]
    dsimp only
    have hperm := (perm_lists_set hdel deleted).1
    have hids := hperm.map FilterYAML.id
    obtain ⟨hdeleted, hnodup⟩ := List.nodup_cons.1 (hids.nodup_iff.1 h.ids)
    have hmem : ∀ flt ∈ (s.d.setListsOf isAllowlist ((s.d.listsOf isAllowlist).eraseIdx i)).lists,
        flt ∈ s.d.lists ∧ flt.id ≠ deleted.id := by
      intro flt hflt
      refine ⟨hperm.mem_iff.2 (List.mem_cons_of_mem _ hflt), fun heq => hdeleted ?_⟩
      rw [← heq]
      exact List.mem_map_of_mem hflt
    have hold : ∀ flt : FilterYAML, flt.id ≠ deleted.id →
        files' (flt.path s.d.dataDir) = s.files (flt.path s.d.dataDir) := fun flt hne =>
      hfiles _ (fun heq => hne (FilterYAML.path_inj heq)) (path_ne_old _ _ _)
    have hlistsOf : ∀ w flt, flt ∈ (s.d.setListsOf isAllowlist ((s.d.listsOf isAllowlist).eraseIdx i)).listsOf w →
        flt ∈ s.d.listsOf w := by
      intro w flt hflt
      by_cases hw : w = isAllowlist
      · subst hw
        rw [listsOf_setListsOf] at hflt
        exact List.mem_of_mem_eraseIdx hflt
      · rwa [listsOf_setListsOf_ne hw] at hflt
    refine ⟨hnodup, fun k a ha => ⟨fun hin => (h.fresh k a ha).1 ?_, (h.fresh k a ha).2⟩, h.apart, h.copies,
      fun r hr c hc flt hflt => h.slice r hr c hc flt (hlistsOf _ flt hflt),
      fun c hc flt hflt => h.copied c hc flt (hmem flt hflt).1, h.count, fun r hr uf huf hexists => ?_,
      fun k a ha hdown => ?_, fun flt hflt => ?_⟩
    · exact hids.mem_iff.2 (List.mem_cons_of_mem _ hin)
    · dsimp only
      obtain ⟨flt, hflt, heq⟩ := hexists
      rw [dataDir_setListsOf, hold uf (heq ▸ (hmem flt hflt).2)]
      exact h.written r hr uf huf ⟨flt, (hmem flt hflt).1, heq⟩
    · dsimp only
      have hne : a.filt.id ≠ deleted.id := fun heq => (h.fresh k a ha).1 (hids.mem_iff.2 (by simp [heq]))
      rw [dataDir_setListsOf, hold a.filt hne]
      exact h.downloaded k a ha hdown
    · dsimp only
      rw [dataDir_setListsOf, hold flt (hmem flt hflt).2]
      exact h.kept flt (hmem flt hflt).1

/-- An edit that downloads nothing leaves the file, and the record or a record of no rules. -/
theorem setProperties_quiet {d : DNSFilter} {f : Fetch} {newList flt : FilterYAML} {file : Option (List UInt8)}
    (h : newList.enabled = false ∨ ¬ Restarts newList flt) : (d.setProperties f newList flt file).2.1 = file ∧
      ((d.setProperties f newList flt file).1.checksum = 0 ∨
        ((d.setProperties f newList flt file).1.url = flt.url ∧
          (d.setProperties f newList flt file).1.rulesCount = flt.rulesCount ∧
          (d.setProperties f newList flt file).1.checksum = flt.checksum)) := by
  unfold DNSFilter.setProperties setFields
  by_cases hexists : flt.url ≠ newList.url ∧ d.filterExists newList.url = true
  · rw [if_pos hexists]
    exact ⟨rfl, .inr ⟨rfl, rfl, rfl⟩⟩
  · rw [if_neg hexists]
    cases hen : newList.enabled with
    | false => exact ⟨rfl, .inl rfl⟩
    | true =>
      have hrestart : ¬ Restarts newList flt := h.resolve_left (by simp [hen])
      have hurl : ¬ flt.url ≠ newList.url := fun hne => hrestart (.inl hne)
      rw [Bool.not_true, if_neg Bool.false_ne_true, if_pos hrestart]
      refine ⟨rfl, .inr ⟨?_, ?_, ?_⟩⟩
      · exact (congrArg Entry.url (entry_edit newList flt)).trans (not_ne_iff.1 hurl).symm
      · exact (rulesCount_edit _ _).trans (if_neg hurl)
      · exact (checksum_edit _ _).trans (if_neg hurl)

theorem System.Coherent.setURL (h : s.Coherent) {c : Checks} {o : Outside} {listURL : String} {newList : FilterYAML}
    {isAllowlist : Bool} (hquiet : s.Quiet (.setURL c o listURL newList isAllowlist)) :
    (s.step (.setURL c o listURL newList isAllowlist)).Coherent := by
  dsimp only [System.step]
  split
  · exact h
  rcases filterSetProperties_cases s.d s.files (o.fetch s.safe newList.url) listURL newList isAllowlist with
    ⟨err, hres⟩ | ⟨i, flt, hidx, hflt, hres⟩
  · rw [hres]
    exact h
  rw [hres]
  dsimp only
  have hlist : flt ∈ s.d.listsOf isAllowlist := List.mem_of_getElem? hflt
  have hquiet' : (∃ c ∈ s.inFlight, c.id = flt.id) → newList.enabled = false ∨ ¬ Restarts newList flt := by
    refine hquiet flt hlist ?_
    obtain ⟨hi, hurl, -⟩ := List.findIdx?_eq_some_iff_getElem.1 hidx
    rw [(List.getElem?_eq_some_iff.1 hflt).2] at hurl
    simpa using hurl
  have hid := congrArg Entry.id (entry_setProperties s.d (o.fetch s.safe newList.url) newList flt
    (s.files (flt.path s.d.dataDir)))
  have hstill : ∀ uf ∈ s.inFlight, uf.id = flt.id → (s.d.setProperties (o.fetch s.safe newList.url) newList flt
      (s.files (flt.path s.d.dataDir))).2.1 = s.files (flt.path s.d.dataDir) ∧ _ :=
    fun uf huf heq => setProperties_quiet (hquiet' ⟨uf, huf, heq⟩)
  have hkeeps := fun hkept : Kept flt (s.files (flt.path s.d.dataDir)) =>
    hkept.setProperties s.d (o.fetch s.safe newList.url) newList
  generalize s.d.setProperties (o.fetch s.safe newList.url) newList flt (s.files (flt.path s.d.dataDir)) = r at *
  replace hid : r.1.id = flt.id := by
    refine hid.trans ?_
    split <;> rfl
  obtain ⟨hi, hget⟩ := List.getElem?_eq_some_iff.1 hflt
  obtain ⟨hold, hnew⟩ := perm_lists_set hflt r.1
  have hids : ∀ w, ((s.d.setListsOf isAllowlist ((s.d.listsOf isAllowlist).set i r.1)).listsOf w).map (·.id) =
      (s.d.listsOf w).map (·.id) := by
    intro w
    by_cases hw : w = isAllowlist
    · subst hw
      rw [listsOf_setListsOf, List.map_set, hid, ← hget, ← List.map_set, List.set_getElem_self]
    · rw [listsOf_setListsOf_ne hw]
  have hidsEq := ids_congr hids
  have hmem : ∀ flt' ∈ (s.d.setListsOf isAllowlist ((s.d.listsOf isAllowlist).set i r.1)).lists,
      flt' = r.1 ∨ (flt' ∈ s.d.lists ∧ flt'.id ≠ flt.id) := by
    intro flt' hflt'
    refine (List.mem_cons.1 (hnew.mem_iff.1 hflt')).imp_right fun hrest => ?_
    refine ⟨hold.mem_iff.2 (List.mem_cons_of_mem _ hrest), fun heq => ?_⟩
    have hnodup := (hold.map FilterYAML.id).nodup_iff.1 h.ids
    exact (List.nodup_cons.1 hnodup).1 (heq ▸ List.mem_map_of_mem hrest)
  have hfltIn : flt ∈ s.d.lists := hold.mem_iff.2 List.mem_cons_self
  refine ⟨hidsEq ▸ h.ids, fun k a ha => ⟨hidsEq ▸ (h.fresh k a ha).1, (h.fresh k a ha).2⟩, h.apart, h.copies,
    fun r' hr' uf huf flt' hflt' => ?_, fun uf huf flt' hflt' heq => ?_, h.count, fun r' hr' uf huf hexists => ?_,
    fun k a ha hdown => ?_, fun flt' hflt' => ?_⟩
  · have hin : flt'.id ∈ (s.d.listsOf (!r'.isAllowlist)).map (·.id) := hids _ ▸ List.mem_map_of_mem hflt'
    obtain ⟨g, hg, hgid⟩ := List.mem_map.1 hin
    exact fun heq => h.slice r' hr' uf huf g hg (hgid.trans heq)
  · rcases hmem flt' hflt' with rfl | ⟨hflt', -⟩
    · rcases (hstill uf huf (heq.symm.trans hid)).2 with hzero | ⟨hurl, -, hsum⟩
      · exact .inr hzero
      · rw [hurl, hsum]
        exact h.copied uf huf flt hfltIn (hid.symm.trans heq)
    · exact h.copied uf huf flt' hflt' heq
  · dsimp only
    have hexists' : ∃ g ∈ s.d.lists, g.id = uf.id := by
      obtain ⟨g, hg, hgid⟩ := hexists
      rcases hmem g hg with rfl | ⟨hg, -⟩
      · exact ⟨flt, hfltIn, hid.symm.trans hgid⟩
      · exact ⟨g, hg, hgid⟩
    have huf' : uf ∈ s.inFlight := by
      have hr'' : s.refreshing = some r' := hr'
      unfold System.inFlight
      rw [hr'']
      exact List.mem_append_left _ (List.mem_map_of_mem (f := Prod.fst) huf)
    rw [dataDir_setListsOf]
    by_cases heq : uf.id = flt.id
    · rw [path_congr heq, Function.update_self, (hstill uf huf' heq).1, ← path_congr heq]
      exact h.written r' hr' uf huf hexists'
    · rw [file_of_ne heq]
      exact h.written r' hr' uf huf hexists'
  · dsimp only
    have hne : a.filt.id ≠ flt.id := fun heq => (h.fresh k a ha).1 (mem_ids.2 ⟨flt, hfltIn, heq.symm⟩)
    rw [dataDir_setListsOf, file_of_ne hne]
    exact h.downloaded k a ha hdown
  · dsimp only
    rw [dataDir_setListsOf]
    rcases hmem flt' hflt' with rfl | ⟨hflt', hne⟩
    · rw [path_congr hid, Function.update_self]
      by_cases hcopy : ∃ uf ∈ s.inFlight, uf.id = flt.id
      · obtain ⟨uf, huf, heq⟩ := hcopy
        obtain ⟨hfile, hzero | ⟨hurl, hcount, hsum⟩⟩ := hstill uf huf heq
        · exact .inl (.inl hzero)
        · rw [hfile]
          rcases h.kept flt hfltIn with hkept | ⟨r', uf', hr', huf', hmatch⟩
          · exact .inl (hkept.congr hsum hcount)
          · refine .inr ⟨r', uf', hr', huf', ?_⟩
            unfold isCopyOf at hmatch ⊢
            rw [hid, hurl]
            exact hmatch
      · rcases h.kept flt hfltIn with hkept | ⟨r', uf', hr', huf', hmatch⟩
        · exact .inl (hkeeps hkept)
        · refine absurd ⟨uf', ?_, ?_⟩ hcopy
          · unfold System.inFlight
            rw [hr']
            exact List.mem_append_left _ (List.mem_map_of_mem (f := Prod.fst) huf')
          · have hsame := (Bool.and_eq_true_iff.1 hmatch).1
            exact (beq_iff_eq.1 hsame).symm
    · rw [file_of_ne hne]
      exact h.kept flt' hflt'

/-- A quiet step keeps the records and the files together. -/
theorem System.Coherent.step (h : s.Coherent) {op : Step} (hquiet : s.Quiet op) : (s.step op).Coherent := by
  cases op with
  | listsToUpdate isAllowlist force ivl now => exact h.listsToUpdate isAllowlist force ivl now
  | update o => exact h.update hquiet
  | sync => exact h.sync
  | removeOldFilterFile flt => exact h.removeOldFilterFile flt
  | add k c fj => exact h.add hquiet
  | download k o => exact h.download k o
  | filterAdd k => exact h.filterAdd k
  | removeURL rename url isAllowlist => exact h.removeURL rename url isAllowlist
  | setURL c o listURL newList isAllowlist => exact h.setURL hquiet

theorem coherent_of_kept (hrefresh : s.refreshing = none) (hadding : ∀ k, s.adding k = none) (hids : s.d.ids.Nodup)
    (hkept : ∀ flt ∈ s.d.lists, Kept flt (s.files (flt.path s.d.dataDir))) : s.Coherent := by
  have hflight := inFlight_of_none hrefresh
  refine ⟨hids, fun k a ha => ?_, fun k k' a a' ha => ?_, ?_, fun r hr => ?_, fun c hc => ?_, fun r hr => ?_, fun r hr => ?_,
    fun k a ha => ?_, fun flt hflt => .inl (hkept flt hflt)⟩
  · rw [hadding k] at ha
    cases ha
  · rw [hadding k] at ha
    cases ha
  · rw [hflight]
    exact List.nodup_nil
  · rw [hrefresh] at hr
    cases hr
  · rw [hflight] at hc
    cases hc
  · rw [hrefresh] at hr
    cases hr
  · rw [hrefresh] at hr
    cases hr
  · rw [hadding k] at ha
    cases ha

/-- From lists with distinct identifiers whose records fit their files, every quiet run leads to such lists again as soon
as no refresh is going on. -/
theorem kept_run_of_quiet (hrefresh : s.refreshing = none) (hadding : ∀ k, s.adding k = none) (hids : s.d.ids.Nodup)
    (hkept : ∀ flt ∈ s.d.lists, Kept flt (s.files (flt.path s.d.dataDir))) {ops : List Step}
    (hops : Meets System.step System.Quiet s ops) {s' : System} (hs' : run System.step s ops = s')
    (hrest : s'.refreshing = none) :
    s'.d.ids.Nodup ∧ ∀ flt ∈ s'.d.lists, Kept flt (s'.files (flt.path s'.d.dataDir)) := by
  have hrun : s'.Coherent := by
    rw [← hs']
    exact run_invariant_of_meets (I := System.Coherent) (fun _ _ hs hop => hs.step hop)
      (coherent_of_kept hrefresh hadding hids hkept) hops
  refine ⟨hrun.ids, fun flt hflt => (hrun.kept flt hflt).resolve_right ?_⟩
  rintro ⟨r, uf, hr, -⟩
  rw [hrest] at hr
  cases hr

end Coherent

/-! ## A list that is edited while it is refreshed -/

/-- The blocklist from a server, with its file. -/
def idle : System where
  d := ⟨"/data", [{ blocklist with url := "https://lists.example/ads.txt" }], [], ⟨2⟩⟩
  safe := userFilters
  files := fun p => if p = "/data/filters/1.txt" then some twoRules else none

/-- The server has another rule at one of two URLs. -/
def servers : Outside where
  get url := .ok ⟨utf8 (if url = "https://lists.example/ads.txt" then "||a^\n||b^\n||c^" else "||d^").toList, none⟩
  openFile _ := .error "no such file"
  now := 1

/-- The list gets another name, and maybe another URL. -/
def editTo (url : String) : Step :=
  .setURL noChecks servers "https://lists.example/ads.txt" { blocklist with url := url, name := "ads and more" } false

/-- A refresh during which the list is edited. -/
def edited (url : String) : List Step := [.listsToUpdate false true 24 24, editTo url, .update servers, .sync]

theorem idle_kept : ∀ flt ∈ idle.d.lists, Kept flt (idle.files (flt.path idle.d.dataDir)) := by
  intro flt hflt
  rw [List.mem_singleton.1 hflt]
  exact .inr ⟨twoRules, by decide +kernel, by decide +kernel, by decide +kernel, by decide +kernel⟩

/-- The copy of the list after its update. -/
def updatedCopy : FilterYAML where
  enabled := false
  url := "https://lists.example/ads.txt"
  name := "ads"
  rulesCount := 3
  lastUpdated := 1
  checksum := 2251363448
  white := false
  id := 1

/-- A list that gets another name during a refresh has its old name after it. -/
theorem name_of_refresh_idle : ∃ f ∈ (run System.step idle (edited "https://lists.example/ads.txt")).d.listsOf false,
    f.name = "ads" := by
  obtain ⟨s', hs'⟩ : ∃ s', run System.step idle [.listsToUpdate false true 24 24,
    editTo "https://lists.example/ads.txt", .update servers] = s' := ⟨_, rfl⟩
  have hdone : s'.refreshing = some ⟨false, [], [(updatedCopy, true)], 0⟩ := by
    rw [← hs']
    decide +kernel
  have hlists : ((s'.step .sync).d.listsOf false).map (isCopyOf updatedCopy) = [true] := by
    rw [← hs']
    decide +kernel
  obtain ⟨f, hf, hcopy⟩ := List.map_eq_singleton_iff.1 hlists
  have hmem : f ∈ (s'.step .sync).d.listsOf false := by
    rw [hf]
    exact List.mem_singleton.2 rfl
  have hmid : ∀ op ∈ [editTo "https://lists.example/ads.txt", .update servers], op ≠ Step.sync := by simp [editTo]
  have hflt : { blocklist with url := "https://lists.example/ads.txt" } ∈ idle.d.listsOf false :=
    List.mem_singleton.2 rfl
  refine ⟨f, ?_, name_of_refresh (s := idle) (by decide) rfl hflt (by decide) (by decide) hmid hs' hdone (by decide)
    (List.mem_singleton.2 rfl) rfl f hmem hcopy⟩
  have hrun : run System.step idle (edited "https://lists.example/ads.txt") = s'.step .sync := by
    rw [show edited "https://lists.example/ads.txt" = [.listsToUpdate false true 24 24,
      editTo "https://lists.example/ads.txt", .update servers] ++ [.sync] from rfl, run_append, hs']
    rfl
  rw [hrun]
  exact hmem

/-- The refresh leaves the list with the file that it has downloaded. -/
theorem kept_run_of_quiet_idle : (run System.step idle (edited "https://lists.example/ads.txt")).d.ids.Nodup ∧
    ∀ flt ∈ (run System.step idle (edited "https://lists.example/ads.txt")).d.lists,
      Kept flt ((run System.step idle (edited "https://lists.example/ads.txt")).files
        (flt.path (run System.step idle (edited "https://lists.example/ads.txt")).d.dataDir)) := by
  have hops : Meets System.step System.Quiet idle (edited "https://lists.example/ads.txt") := by
    refine ⟨trivial, fun flt hflt _ _ => .inr ?_, rfl, trivial, trivial⟩
    rw [List.mem_singleton.1 hflt]
    decide
  exact kept_run_of_quiet (s := idle) rfl (fun _ => rfl) (by decide) idle_kept hops rfl (by decide +kernel)

/-- A list that gets another URL during the refresh has the rules of its old URL, and remembers those of the new one. -/
theorem not_kept_edited : ¬ ∀ flt ∈ (run System.step idle (edited "https://lists.example/ads2.txt")).d.lists,
    Kept flt ((run System.step idle (edited "https://lists.example/ads2.txt")).files
      (flt.path (run System.step idle (edited "https://lists.example/ads2.txt")).d.dataDir)) := by
  intro h
  have hsums : ∀ flt ∈ (run System.step idle (edited "https://lists.example/ads2.txt")).d.lists, flt.checksum =
      Crc32.update 0 (remembered flt ((run System.step idle (edited "https://lists.example/ads2.txt")).files
        (flt.path (run System.step idle (edited "https://lists.example/ads2.txt")).d.dataDir))) :=
    fun flt hflt => (h flt hflt).checksum
  exact absurd hsums (by decide +kernel)

end DNSFilter

end AdGuardHome.Filtering
