import AdGuardHome.Configmigrate.Similar

/-!
# The migrations on similar documents

Each migration takes similar documents to similar ones that have its version, or fails on both.  The rules of the
operations ask of each key that the migration reads or writes it in a way that does not tell the trees apart; the
keys are literals, so that this is decided.
-/

namespace AdGuardHome.Configmigrate

open AdGuardHome.Lib

variable (env : Env)

/-- The migration takes similar documents to similar ones of the version. -/
def Respects (i : ℤ) (f : Fields → Except Err Fields) : Prop :=
  ∀ m m', SimFields env m m' → Same (Rel env (some i)) (f m) (f m')

variable {env} {m m' : Fields} {n : Option ℤ} {o o' : Obj}

theorem sim_bool (k : String) (b : Bool) : Sim env k (.bool b) (.bool b) := Sim.refl trivial

theorem sim_str (k s : String) : Sim env k (.str s) (.str s) := Sim.refl trivial

/-! ## Versions 1 to 12 -/

theorem migrateTo1_respects : Respects env 1 migrateTo1 := fun _ _ h => Agree.ok (setVersion_rel 1 h)

theorem migrateTo2_respects : Respects env 2 migrateTo2 := fun _ _ h =>
  (setVersion_rel 2 h).onDoc fun _ _ ho => ho.renameVal (by decide) (by decide) (by decide) (by decide)

theorem migrateTo3_respects : Respects env 3 migrateTo3 := by
  intro m m' h
  refine (setVersion_rel 3 h).onObj (by decide) (by decide) fun o o' ho => ?_
  refine (ho.fieldVal (T := .any) trivial).bindOption (Agree.ok ho) fun v v' hv => ?_
  exact ho.put (by decide) (sim_list_iff.2 (.cons (hv.sim (by decide)) .nil))

theorem migrateTo4_respects : Respects env 4 migrateTo4 := by
  intro m m' h
  refine (setVersion_rel 4 h).onDoc fun o o' ho => ?_
  refine ho.onArrAnyway (by decide) (by decide) fun i w w' hw => ?_
  exact hw.onElemObj (fun o o' ho => ho.put (by decide) (sim_bool _ _)) (Agree.ok hw)

theorem migrateTo5_respects : Respects env 5 (migrateTo5 env) := by
  intro m m' h
  have hv := setVersion_rel 5 h
  refine (ObjRel.moveVal (.some hv) .nil (by decide) (by decide) (by decide)).bind fun p p' hp => ?_
  obtain ⟨doc, user⟩ := p
  obtain ⟨doc', user'⟩ := p'
  obtain ⟨hdoc, huser⟩ := hp
  refine (hdoc.strVal (by decide)).bind fun pass _ hpass => ?_
  subst hpass
  cases pass with
  | none => exact Agree.ok (hdoc.getD hv)
  | some pass =>
    dsimp only
    split
    · exact Agree.error rfl
    · refine (ObjRel.put (hdoc.drop (by decide)) (by decide) ?_).bind fun doc doc' hdoc => Agree.ok (hdoc.getD hv)
      exact sim_list_iff.2 (.cons (sim_map_iff.2 (huser.set (sim_str _ _))) .nil)

theorem ObjRel.clientID (i : ℕ) (h : ObjRel env n o o') {id : String} (hid : Ty.str.Reads id) :
    Same (SimList env) (clientID i o id) (clientID i o' id) := by
  unfold Configmigrate.clientID
  obtain ⟨e, e', he, he', -⟩ | ⟨x, _, hx, hx', rfl⟩ := (h.strVal hid).cases
  · rw [he, he']
    exact Agree.error rfl
  · rw [hx, hx']
    dsimp only
    split
    · exact Agree.ok .nil
    · exact Agree.ok (.cons (sim_str _ _) .nil)

theorem migrateTo6_respects : Respects env 6 migrateTo6 := by
  intro m m' h
  refine (setVersion_rel 6 h).onDoc fun o o' ho => ?_
  refine ho.onArr (by decide) (by decide) fun i w w' hw => ?_
  refine hw.onElemObj (fun c c' hc => ?_) (Agree.error rfl)
  refine Agree.bind (hc.clientID i (by decide)) fun ip ip' hip => ?_
  refine Agree.bind (hc.clientID i (by decide)) fun mac mac' hmac => ?_
  exact hc.put (by decide) (sim_list_iff.2 (List.rel_append hip hmac))

theorem fits_dhcpv4Moves : ∀ mv ∈ dhcpv4Moves, mv.Fits := by decide

theorem migrateTo7_respects : Respects env 7 migrateTo7 := by
  intro m m' h
  have hv := setVersion_rel 7 h
  unfold migrateTo7
  dsimp only
  -- an object of another type is not an error here
  obtain ⟨e, e', he, he', -⟩ | ⟨x, x', hx, hx', hxx⟩ := (ObjRel.objVal (.some hv) (k := "dhcp") (by decide)).cases
  · rw [he, he']
    exact Agree.ok hv
  · rw [hx, hx']
    cases hxx with
    | none => exact Agree.ok hv
    | some ho =>
      refine (ObjRel.moveAll fits_dhcpv4Moves ho .nil).bind fun p p' hp => ?_
      refine (hp.1.put (by decide) (sim_map_iff.2 hp.2)).bind fun dhcp dhcp' hdhcp => ?_
      exact Agree.ok (hv.store (by decide) hdhcp)

theorem migrateTo8_respects : Respects env 8 migrateTo8 := by
  intro m m' h
  refine (setVersion_rel 8 h).onObj (by decide) (by decide) fun o o' ho => ?_
  refine (ho.strVal (by decide)).bind fun x _ hx => ?_
  subst hx
  cases x with
  | none => exact Agree.ok ho
  | some bindHost => exact ObjRel.put (ho.drop (by decide)) (by decide) (Sim.refl (by simp [Ok, OkList]))

theorem migrateTo9_respects : Respects env 9 migrateTo9 := fun _ _ h =>
  (setVersion_rel 9 h).onObj (by decide) (by decide) fun _ _ ho =>
    ho.renameVal (by decide) (by decide) (by decide) (by decide)

/-- An element is a text on both sides, or on none. -/
theorem Sim.str_has {v v' : Val} (h : Sim env "" v v') : Ty.str.has v = Ty.str.has v' := by
  rw [has_eq_hasYaml env (by decide) h.ok, has_eq_hasYaml env (by decide) h.ok', h.encode]

/-- A text is the same on both sides. -/
theorem Sim.str_eq {v v' : Val} (h : Sim env "" v v') (hT : Ty.str.has v = true) : v = v' :=
  Got.eq (.inr (.inr rfl)) (.inr ⟨h, hT, h.str_has ▸ hT⟩)

theorem ObjRel.addQUICPorts {k : String} (h : ObjRel env n o o') (hk : Free n k) (hr : Ty.arr.Reads k) :
    Same (ObjRel env n) (addQUICPorts env k o) (addQUICPorts env k o') := by
  refine (h.fieldVal hr).bindOption (Agree.ok h) fun ups ups' hups => ?_
  refine (hups.onElems fun i w w' hw => ?_).bind fun ups ups' hups => h.put hk hups
  rw [← hw.str_has]
  split
  · rename_i hT
    rw [hw.str_eq hT]
    exact Agree.ok (sim_str _ _)
  · exact Agree.error rfl

theorem migrateTo10_respects : Respects env 10 (migrateTo10 env) := by
  intro m m' h
  refine (setVersion_rel 10 h).onObj (by decide) (by decide) fun o o' ho => ?_
  refine (ho.addQUICPorts (by decide) (by decide)).bind fun o o' ho => ?_
  exact ObjRel.addQUICPorts ho (by decide) (by decide)

theorem migrateTo11_respects : Respects env 11 migrateTo11 := by
  intro m m' h
  have hv := setVersion_rel 11 h
  refine (ObjRel.intVal (.some hv) _).bind fun x _ hx => ?_
  subst hx
  exact Agree.ok ((hv.del (by decide)).set (by decide) (Sim.refl (by simp [Ok, OkFields])))

theorem migrateTo12_respects : Respects env 12 migrateTo12 := by
  intro m m' h
  refine (setVersion_rel 12 h).onObj (by decide) (by decide) fun o o' ho => ?_
  -- neither a duration nor its text is a number of days
  refine (ho.intVal _).bind fun x _ hx => ?_
  subst hx
  exact ho.put (by decide) (Sim.refl (by simp [Ok]))

/-! ## Versions 13 to 22 -/

theorem migrateTo13_respects : Respects env 13 migrateTo13 := by
  intro m m' h
  have hv := setVersion_rel 13 h
  refine (ObjRel.objVal (.some hv) (by decide)).bindOption (Agree.ok hv) fun dns dns' hdns => ?_
  refine (ObjRel.objVal (.some hv) (by decide)).bindOption (Agree.ok hv) fun dhcp dhcp' hdhcp => ?_
  refine (ObjRel.fieldVal (T := .str) hdns (by decide)).bindOption (Agree.ok hv) fun name name' hname => ?_
  refine (ObjRel.put hdhcp (by decide) (hname.sim (by decide))).bind fun dhcp dhcp' hdhcp => ?_
  exact Agree.ok ((hv.store (by decide) hdhcp).store (by decide) (ObjRel.drop hdns (by decide)))

theorem sim_runtimeClients : SimFields env runtimeClients runtimeClients :=
  SimFields.refl (by simp [runtimeClients, OkFields, Ok])

theorem migrateTo14_respects : Respects env 14 migrateTo14 := by
  intro m m' h
  have hv := setVersion_rel 14 h
  refine (ObjRel.fieldVal (T := .arr) (.some hv) (by decide)).bind fun p p' hp => ?_
  have hpers : Sim env "persistent" (p.getD (.list [])) (p'.getD (.list [])) := by
    cases hp with
    | none => exact Sim.refl trivial
    | some hp => exact hp.sim trivial
  have hclients : ∀ {r r' : Fields}, SimFields env r r' → Rel env (some 14)
      (Fields.set (setVersion 14 m) "clients"
        (.map [("persistent", p.getD (.list [])), ("runtime_sources", .map r)]))
      (Fields.set (setVersion 14 m') "clients"
        (.map [("persistent", p'.getD (.list [])), ("runtime_sources", .map r')])) := by
    intro r r' hr
    refine hv.set (by decide) (sim_map_iff.2 ?_)
    exact .cons ⟨rfl, hpers⟩ (.cons ⟨rfl, sim_map_iff.2 hr⟩ .nil)
  refine (ObjRel.objVal (.some hv) (by decide)).bindOption (Agree.ok (hclients sim_runtimeClients)) ?_
  intro dns dns' hdns
  refine (ObjRel.moveVal hdns sim_runtimeClients (by decide) (by decide) (by decide)).bind fun q q' hq => ?_
  exact Agree.ok ((hclients hq.2).store (by decide) hq.1)

theorem fits_qlogMoves : ∀ mv ∈ qlogMoves, mv.Fits := by decide

theorem migrateTo15_respects : Respects env 15 migrateTo15 := by
  intro m m' h
  have hv := setVersion_rel 15 h
  have hdefaults : SimFields env qlogDefaults qlogDefaults :=
    SimFields.refl (by simp [qlogDefaults, OkFields, Ok, OkList])
  refine (ObjRel.objVal (.some hv) (by decide)).bindOption (Agree.ok hv) fun dns dns' hdns => ?_
  -- the interval is moved as it is, a duration or its text
  refine (ObjRel.moveAll fits_qlogMoves hdns hdefaults).bind fun q q' hq => ?_
  exact Agree.ok ((hv.set (by decide) (sim_map_iff.2 hq.2)).store (by decide) hq.1)

theorem migrateTo16_respects : Respects env 16 migrateTo16 := by
  intro m m' h
  have hv := setVersion_rel 16 h
  have hdefaults : SimFields env statsDefaults statsDefaults :=
    SimFields.refl (by simp [statsDefaults, OkFields, Ok, OkList])
  refine (ObjRel.objVal (.some hv) (by decide)).bindOption (Agree.ok hv) fun dns dns' hdns => ?_
  refine (ObjRel.intVal hdns _).bind fun x _ hx => ?_
  subst hx
  cases x with
  | none => exact Agree.ok (hv.set (by decide) (sim_map_iff.2 hdefaults))
  | some statsIvl =>
    refine Agree.ok ((hv.set (by decide) (sim_map_iff.2 ?_)).store (by decide) (ObjRel.drop hdns (by decide)))
    split
    · exact hdefaults.set (sim_bool _ _)
    · exact hdefaults.set (Sim.refl trivial)

theorem migrateTo17_respects : Respects env 17 migrateTo17 := by
  intro m m' h
  refine (setVersion_rel 17 h).onObj (by decide) (by decide) fun o o' ho => ?_
  rw [ho.flag]
  exact ho.put (by decide) (Sim.refl (by simp [Ok, OkFields]))

theorem sim_safeSearch : SimFields env safeSearch safeSearch := SimFields.refl (by simp [safeSearch, OkFields, Ok])

theorem migrateTo18_respects : Respects env 18 migrateTo18 := by
  intro m m' h
  refine (setVersion_rel 18 h).onObj (by decide) (by decide) fun o o' ho => ?_
  refine (ho.put (by decide) (sim_map_iff.2 sim_safeSearch)).bind fun o o' ho => ?_
  refine (ObjRel.moveVal ho sim_safeSearch (by decide) (by decide) (by decide)).bind fun q q' hq => ?_
  exact hq.1.put (by decide) (sim_map_iff.2 hq.2)

theorem ObjRel.clientSafeSearch (h : ObjRel env none o o') :
    Same (ObjRel env none) (clientSafeSearch o) (clientSafeSearch o') := by
  unfold Configmigrate.clientSafeSearch
  have hmove : Same (PairRel env none)
      (Configmigrate.moveVal .bool o safeSearch "safesearch_enabled" "enabled")
      (Configmigrate.moveVal .bool o' safeSearch "safesearch_enabled" "enabled") :=
    h.moveVal sim_safeSearch (by decide) (by decide) (by decide)
  obtain ⟨e, e', he, he', -⟩ | ⟨q, q', hq, hq', hqq⟩ := hmove.cases
  · rw [he, he']
    exact h.put (by decide) (sim_map_iff.2 sim_safeSearch)
  · rw [hq, hq']
    exact hqq.1.put (by decide) (sim_map_iff.2 hqq.2)

theorem migrateTo19_respects : Respects env 19 migrateTo19 := by
  intro m m' h
  refine (setVersion_rel 19 h).onObj (by decide) (by decide) fun o o' ho => ?_
  refine ho.onArrAnyway (by decide) (by decide) fun i w w' hw => ?_
  exact hw.onElemObj (fun _ _ hc => hc.clientSafeSearch) (Agree.ok hw)

theorem migrateTo20_respects : Respects env 20 migrateTo20 := by
  intro m m' h
  refine (setVersion_rel 20 h).onObj (by decide) (by decide) fun o o' ho => ?_
  refine (ho.intVal _).bind fun x _ hx => ?_
  subst hx
  exact ho.put (by decide) (Sim.refl (by simp [Ok]))

theorem migrateTo21_respects : Respects env 21 migrateTo21 := by
  intro m m' h
  refine (setVersion_rel 21 h).onObj (by decide) (by decide) fun o o' ho => ?_
  have hsched : SimFields env [("schedule", schedule)] [("schedule", schedule)] :=
    SimFields.refl (by simp [schedule, OkFields, Ok])
  refine (ho.moveVal hsched (by decide) (by decide) (by decide)).bind fun q q' hq => ?_
  exact hq.1.put (by decide) (sim_map_iff.2 hq.2)

theorem ObjRel.clientServices (i : ℕ) (h : ObjRel env none o o') :
    Same (ObjRel env none) (clientServices i o) (clientServices i o') := by
  unfold Configmigrate.clientServices
  have hget := h.fieldVal (T := .arr) (k := "blocked_services") (by decide)
  obtain ⟨e, e', he, he', -⟩ | ⟨x, x', hx, hx', hxx⟩ := hget.cases
  · rw [he, he']
    exact Agree.error rfl
  · rw [hx, hx']
    cases hxx with
    | none => exact Agree.ok h
    | some hservices =>
      refine h.put (by decide) (sim_map_iff.2 ?_)
      exact .cons ⟨rfl, hservices.sim trivial⟩ (SimFields.refl (by simp [schedule, OkFields, Ok]))

theorem migrateTo22_respects : Respects env 22 migrateTo22 := by
  intro m m' h
  refine (setVersion_rel 22 h).onObj (by decide) (by decide) fun o o' ho => ?_
  refine ho.onArr (by decide) (by decide) fun i w w' hw => ?_
  exact hw.onElemObj (fun _ _ hc => hc.clientServices i) (Agree.error rfl)

/-! ## Versions 23 to 34 -/

theorem migrateTo23_respects : Respects env 23 (migrateTo23 env) := by
  intro m m' h
  have hv := setVersion_rel 23 h
  refine (ObjRel.strVal (.some hv) (by decide)).bind fun x _ hx => ?_
  subst hx
  cases x with
  | none => exact Agree.ok hv
  | some bindHost =>
    dsimp only
    split
    · exact Agree.error rfl
    · refine (ObjRel.intVal (.some hv) _).bind fun bindPort _ hport => ?_
      subst hport
      refine (ObjRel.intVal (.some hv) _).bind fun sessionTTL _ httl => ?_
      subst httl
      refine Agree.ok ((((hv.set (by decide) (Sim.refl ?_)).del (by decide)).del (by decide)).del (by decide))
      simp [Ok, OkFields]

theorem Rel.setNonempty {k : String} {d d' : Fields} (h : Rel env n m m') (hk : Free n k) (hd : SimFields env d d') :
    Rel env n (setNonempty m k d) (setNonempty m' k d') := by
  unfold Configmigrate.setNonempty
  cases hd with
  | nil => exact h
  | cons hp hd => exact h.set hk (sim_map_iff.2 (.cons hp hd))

theorem fits_logMoves : ∀ mv ∈ logMoves, mv.Fits := by decide

theorem migrateTo24_respects : Respects env 24 migrateTo24 := by
  intro m m' h
  have hv := setVersion_rel 24 h
  refine (ObjRel.moveAll fits_logMoves (.some hv) .nil).bind fun q q' hq => ?_
  exact Agree.ok ((hq.1.getD hv).setNonempty (by decide) hq.2)

theorem migrateTo25_respects : Respects env 25 migrateTo25 := by
  intro m m' h
  have hv := setVersion_rel 25 h
  have hpprof : SimFields env [("enabled", .bool false), ("port", .int 6060)]
      [("enabled", .bool false), ("port", .int 6060)] := SimFields.refl (by simp [OkFields, Ok])
  refine (ObjRel.objVal (.some hv) (by decide)).bindOption (Agree.ok hv) fun http http' hhttp => ?_
  refine (ObjRel.moveVal (.some hv) hpprof (by decide) (by decide) (by decide)).bind fun q q' hq => ?_
  refine (ObjRel.put hhttp (by decide) (sim_map_iff.2 hq.2)).bind fun http http' hhttp => ?_
  exact Agree.ok ((hq.1.getD hv).store (by decide) hhttp)

theorem fits_filteringMoves : ∀ mv ∈ filteringMoves, mv.Fits := by decide

theorem migrateTo26_respects : Respects env 26 migrateTo26 := by
  intro m m' h
  have hv := setVersion_rel 26 h
  refine (ObjRel.objVal (.some hv) (by decide)).bindOption (Agree.ok hv) fun dns dns' hdns => ?_
  -- a null object is moved as a nil map, which is an empty one when it is read again
  refine (ObjRel.moveAll fits_filteringMoves hdns .nil).bind fun q q' hq => ?_
  exact Agree.ok ((hv.store (by decide) hq.1).setNonempty (by decide) hq.2)

theorem Sim.rootRule {v v' : Val} (h : Sim env "" v v') : Sim env "" (rootRule v) (rootRule v') := by
  unfold Configmigrate.rootRule
  have hstr := h.str_has
  by_cases hT : Ty.str.has v = true
  · obtain rfl := h.str_eq hT
    split
    · exact sim_str _ _
    · exact h
  · rw [if_neg fun hc => hT hc.1, if_neg fun hc => hT (hstr ▸ hc.1)]
    exact h

theorem Rel.replaceDot {k : String} (h : Rel env n m m') (hk : Free n k) (hu : Untyped k) :
    Same (Rel env n) (replaceDot k m) (replaceDot k m') :=
  h.onObj hk hu fun _ _ ho => ho.onArr (by decide) (by decide) fun _ _ _ hw => Agree.ok hw.rootRule

theorem migrateTo27_respects : Respects env 27 migrateTo27 := by
  intro m m' h
  refine ((setVersion_rel 27 h).replaceDot (by decide) (by decide)).bind fun m m' hm => ?_
  exact hm.replaceDot (by decide) (by decide)

theorem migrateTo28_respects : Respects env 28 migrateTo28 := by
  intro m m' h
  refine (setVersion_rel 28 h).onObj (by decide) (by decide) fun o o' ho => ?_
  rw [ho.flag, ho.flag]
  refine (ho.put (by decide) (Sim.refl (by simp [Ok]))).bind fun o o' ho => ?_
  exact Agree.ok (ObjRel.drop (ObjRel.drop ho (by decide)) (by decide))

theorem Sim.filterPath {v v' : Val} (i : ℕ) (h : Sim env "" v v') :
    Same Eq (filterPath env i v) (filterPath env i v') := by
  unfold Configmigrate.filterPath
  have hobj := h.assertObj
  generalize v.assertObj = x at hobj
  generalize v'.assertObj = x' at hobj
  cases hobj with
  | none => exact Agree.error rfl
  | some hf =>
    dsimp only
    obtain ⟨e, e', he, he', -⟩ | ⟨u, _, hu, hu', rfl⟩ := (ObjRel.strVal hf (k := "url") (by decide)).cases
    · rw [he, he']
      exact Agree.ok rfl
    · rw [hu, hu']
      cases u <;> exact Agree.ok rfl

theorem migrateTo29_respects : Respects env 29 (migrateTo29 env) := by
  intro m m' h
  have hv := setVersion_rel 29 h
  refine (ObjRel.fieldVal (T := .arr) (.some hv) (by decide)).bindOption (Agree.ok hv) fun fs fs' hfs => ?_
  refine (Agree.mapIdxM (fun i _ _ hw => hw.filterPath i) hfs.toList 0).bind fun paths paths' hpaths => ?_
  obtain rfl : paths = paths' := List.forall₂_eq_eq_eq ▸ hpaths
  exact hv.onObj (by decide) (by decide) fun o o' ho => ho.put (by decide) (Sim.refl (by simp [Ok]))

theorem migrateTo30_respects : Respects env 30 migrateTo30 := by
  intro m m' h
  refine (setVersion_rel 30 h).onObj (by decide) (by decide) fun o o' ho => ?_
  refine (ho.intVal _).bind fun x _ hx => ?_
  subst hx
  cases x with
  | none => exact Agree.ok ho
  | some cacheSize => exact ho.put (by decide) (sim_bool _ _)

theorem migrateTo31_respects : Respects env 31 migrateTo31 := by
  intro m m' h
  refine (setVersion_rel 31 h).onObj (by decide) (by decide) fun o o' ho => ?_
  refine ho.onArr (by decide) (by decide) fun i w w' hw => ?_
  exact hw.onElemObj (fun o o' ho => ho.put (by decide) (sim_bool _ _)) (Agree.ok hw)

theorem migrateTo32_respects : Respects env 32 migrateTo32 := by
  intro m m' h
  refine (setVersion_rel 32 h).onObj (by decide) (by decide) fun o o' ho => ?_
  refine (ho.put (by decide) (sim_str _ _)).bind fun o o' ho => ?_
  exact ObjRel.put ho (by decide) (sim_str _ _)

theorem Rel.setIgnoredEnabled {k : String} (h : Rel env n m m') (hk : Free n k) (hu : Untyped k) :
    Same (ObjRel env n) (setIgnoredEnabled k m) (setIgnoredEnabled k m') := by
  refine (ObjRel.objVal (.some h) hu).bindOption (Agree.ok .none) fun conf conf' hconf => ?_
  refine (ObjRel.fieldVal (T := .arr) hconf (by decide)).bindOption (Agree.ok .none) fun ig ig' hignored => ?_
  dsimp only
  rw [hignored.toList.length_eq]
  refine (ObjRel.put hconf (by decide) (sim_bool _ _)).bind fun conf conf' hconf => ?_
  exact Agree.ok (.some (h.store hk hconf))

theorem migrateTo33_respects : Respects env 33 migrateTo33 := by
  intro m m' h
  have hv := setVersion_rel 33 h
  refine (hv.setIgnoredEnabled (by decide) (by decide)).bindOption (Agree.ok hv) fun m m' hm => ?_
  refine (hm.setIgnoredEnabled (by decide) (by decide)).bind fun x x' hx => ?_
  exact Agree.ok (ObjRel.getD hx hm)

theorem migrateTo34_respects : Respects env 34 migrateTo34 := by
  intro m m' h
  have hv := setVersion_rel 34 h
  have hdefaults : SimFields env dohDefaults dohDefaults :=
    SimFields.refl (by simp [dohDefaults, OkFields, Ok, OkList])
  refine (ObjRel.objVal (.some hv) (by decide)).bindOption (Agree.ok hv) fun http http' hhttp => ?_
  refine (ObjRel.objVal (.some hv) (by decide)).bindOption (Agree.ok hv) fun tls tls' htls => ?_
  refine (ObjRel.put hhttp (by decide) (sim_map_iff.2 hdefaults)).bind fun http http' hhttp => ?_
  refine (ObjRel.moveVal htls hdefaults (by decide) (by decide) (by decide)).bind fun q q' hq => ?_
  refine (ObjRel.put hhttp (by decide) (sim_map_iff.2 hq.2)).bind fun http http' hhttp => ?_
  exact Agree.ok ((hv.store (by decide) hhttp).store (by decide) hq.1)

end AdGuardHome.Configmigrate
