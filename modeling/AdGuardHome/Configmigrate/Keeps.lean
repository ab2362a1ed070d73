import AdGuardHome.Configmigrate.Docs

/-!
# What each migration keeps

On a document that is clear for it, a migration keeps everything that its documentation does not name, and takes
the rest where the documentation has it.
-/

namespace AdGuardHome.Configmigrate

open AdGuardHome.Lib

/-- The migration from one document to the other does what the documentation says. -/
structure Keeps (d : Doc) (m m' : Fields) : Prop where
  frame : Frames d.Named (.map m) (.map m')
  moved : ∀ src dst, (src, dst) ∈ d.moved → ∀ v, Fields.walk m src = some v → Fields.walk m' dst = some v
  converted : ∀ c ∈ d.converted, ∀ v, Fields.walk m c.src = some v → Fields.walk m' c.dst = some (c.conv m v)

variable {env : Env} {d : Doc} {m m' : Fields}

/-! ## Names -/

theorem named_version (p : Path) : d.Named (.key "schema_version" :: p) := .inl ⟨p, rfl⟩

theorem named_of_moved (src : Path) {dst : Path} (h : (src, dst) ∈ d.moved) (p : Path) : d.Named (src ++ p) :=
  .inr (.inr ⟨src, .inl ⟨dst, h⟩, .inr ⟨p, rfl⟩⟩)

theorem named_of_converted {c : Conversion} (h : c ∈ d.converted) (p : Path) : d.Named (c.src ++ p) :=
  .inr (.inr ⟨c.src, .inr ⟨c, h, rfl⟩, .inr ⟨p, rfl⟩⟩)

theorem named_above_converted {c : Conversion} (h : c ∈ d.converted) {p : Path} (hp : p <+: c.src) : d.Named p :=
  .inr (.inr ⟨c.src, .inr ⟨c, h, rfl⟩, .inl hp⟩)

/-- A migration of which no move or conversion is documented. -/
theorem Keeps.of_frames (h : Frames d.Named (.map m) (.map m')) (hmoved : d.moved = ∅)
    (hconverted : d.converted = ∅) : Keeps d m m' where
  frame := h
  moved _ _ hmem := by rw [hmoved] at hmem; cases hmem
  converted _ hmem := by rw [hconverted] at hmem; cases hmem

/-- A migration of which one move is documented. -/
theorem Keeps.of_move {src dst : Path} (h : Frames d.Named (.map m) (.map m')) (hmoved : d.moved = move src dst)
    (hconverted : d.converted = ∅)
    (hmove : ∀ v, Fields.walk m src = some v → Fields.walk m' dst = some v) : Keeps d m m' where
  frame := h
  moved _ _ hmem := by
    rw [hmoved] at hmem
    cases hmem
    exact hmove
  converted _ hmem := by rw [hconverted] at hmem; cases hmem

/-! ## Versions 1 to 12 -/

theorem migrateTo1_keeps (h : migrateTo1 m = .ok m') : Keeps (doc env 1) m m' := by
  cases h
  exact .of_frames (frames_setVersion named_version) rfl rfl

theorem migrateTo2_keeps (h : migrateTo2 m = .ok m') (hc : Clear 2 m) : Keeps (doc env 2) m m' := by
  have h := onDoc_eq_ok h fun c hc => by
    obtain ⟨-, rfl⟩ | ⟨v, -, rfl⟩ := renameVal_cases hc (.inl rfl) <;> exact nofun
  have hc : Fields.get m "coredns" ≠ none → Fields.get m "dns" = none := by
    simpa only [Clear, Has, Absent, walk_one] using hc
  refine .of_move ((frames_setVersion named_version).trans (.renameVal h (.inl rfl) ?_ ?_)) rfl rfl fun v hv => ?_
  · exact named_of_moved ["coredns"] rfl
  · rwa [get_setVersion (by decide), get_setVersion (by decide)]
  · rw [walk_one] at hv ⊢
    obtain ⟨_, ⟨⟩, hget⟩ := get_of_renameVal h (.inl rfl) (by decide) ((get_setVersion (by decide)).trans hv)
    exact hget

theorem migrateTo3_keeps (h : migrateTo3 m = .ok m') : Keeps (doc env 3) m m' := by
  refine .of_move (.onSection h (by decide) named_version (by rintro _ ⟨⟩; rfl) fun dns dns' _ hdns => ?_) rfl rfl
    fun v hv => ?_
  · obtain ⟨x, -, hdns⟩ := bind_eq_ok.1 hdns
    cases x with
    | none =>
      cases hdns
      exact .refl _ _
    | some bootstrapDNS =>
      cases hdns
      exact .set_named (named_of_moved ["dns", "bootstrap_dns"] rfl)
  · obtain ⟨dns, hget, hv⟩ := walk_two hv
    refine walk_of_onSection h (by decide) hget fun o ho => ?_
    obtain ⟨x, hx, ho⟩ := bind_eq_ok.1 ho
    rw [fieldVal_eq_get hx (.inl rfl), hv] at ho
    cases ho
    exact ⟨_, rfl, walk_set_self _ _ _⟩

theorem migrateTo4_keeps (h : migrateTo4 m = .ok m') (hc : Clear 4 m) : Keeps (doc env 4) m m' := by
  have h := onDoc_eq_ok h fun c hc => by
    obtain rfl | ⟨_, _, -, -, rfl⟩ := onArrAnyway_cases hc <;> exact nofun
  refine .of_frames ((frames_setVersion named_version).trans (.onArrAnyway h fun i a b ha hb => ?_)) rfl rfl
  rw [walk_setVersion (by decide)] at ha
  refine .onElemObj hb nofun (by rintro _ _ ⟨⟩; rfl) fun client client' hclient hput => ?_
  subst hclient
  cases hput
  exact .set_new ((walk_key ha).symm.trans (hc i))

theorem migrateTo5_keeps (h : migrateTo5 env m = .ok m') (hc : Clear 5 m) : Keeps (doc env 5) m m' := by
  simp only [Clear, NotNull, Has, Absent, walk_one] at hc
  obtain ⟨hnull, hpass, husers⟩ := hc
  obtain ⟨⟨o, user⟩, hmove, h⟩ := bind_eq_ok.1 h
  obtain ⟨s, rfl, hs⟩ := moved_of_moveVal hmove (.inr (by rwa [get_setVersion (by decide)]))
  have hs_pass : Fields.get s "auth_pass" = Fields.get m "auth_pass" :=
    (hs.src _ (by simp)).trans (get_setVersion (by decide))
  have hs_users : Fields.get s "users" = Fields.get m "users" :=
    (hs.src _ (by simp)).trans (get_setVersion (by decide))
  have hframe : Frames (doc env 5).Named (.map m) (.map s) :=
    (frames_setVersion named_version).trans
      (hs.frames _ fun mv hmv => by rw [List.mem_singleton.1 hmv]; exact named_of_moved ["auth_name"] rfl)
  obtain ⟨x, hx, h⟩ := bind_eq_ok.1 h
  have hx := strVal_cases hx
  rw [hs_pass] at hx
  cases hget : Fields.get m "auth_pass" with
  | none =>
    -- Without a password there is no name either.
    rw [hget] at hx hpass
    subst hx
    cases h
    have hname : Fields.get m "auth_name" = none := not_not.1 fun hname => hpass hname rfl
    refine ⟨hframe, fun _ _ hmem v hv => ?_, fun c hmem v hv => ?_⟩
    · cases hmem
      rw [walk_one, hname] at hv
      cases hv
    · rw [Set.mem_singleton_iff.1 hmem] at hv
      rw [ofStr, walk_one, hget] at hv
      cases hv
  | some v =>
    rw [hget] at hx
    subst hx
    dsimp only [Option.map_some] at h
    split at h
    · cases h
    · rename_i hash hhash
      cases h
      have hnamed : ∀ p, (doc env 5).Named (.key "auth_pass" :: p) :=
        named_of_converted (c := ofStr ["auth_pass"] _ _) (Set.mem_singleton _)
      refine ⟨hframe.trans ((Frames.del hnamed).trans (.set_new ?_)), fun _ _ hmem v' hv' => ?_,
        fun c hmem v' hv' => ?_⟩
      · rw [Fields.get_del_ne _ (by decide), hs_users]
        exact husers (by rw [hget]; exact nofun)
      · cases hmem
        rw [walk_one] at hv'
        refine (walk_set_self _ _ _).trans ?_
        show Fields.walk (Fields.set user "password" (.str hash)) [.key "name"] = _
        rw [walk_one, get_set_ne _ (by decide)]
        exact hs.moved ⟨.str, "auth_name", "name"⟩ (by simp) v' ((get_setVersion (by decide)).trans hv')
      · rw [Set.mem_singleton_iff.1 hmem] at hv' ⊢
        rw [ofStr, walk_one, hget] at hv'
        cases hv'
        refine (walk_set_self _ _ _).trans ?_
        show Fields.walk (Fields.set user "password" (.str hash)) [.key "password"] = _
        rw [walk_one, get_set_self, ofStr]
        dsimp only
        rw [hhash]
        rfl

theorem migrateTo6_keeps (h : migrateTo6 m = .ok m') (hc : Clear 6 m) : Keeps (doc env 6) m m' := by
  have h := onDoc_eq_ok h fun c hc => by
    obtain rfl | ⟨_, _, -, -, rfl⟩ := onArr_cases hc <;> exact nofun
  refine .of_frames ((frames_setVersion named_version).trans (.onArr h fun i a b ha hb => ?_)) rfl rfl
  rw [walk_setVersion (by decide)] at ha
  refine .onElemObj hb nofun nofun fun client client' hclient hput => ?_
  subst hclient
  obtain ⟨ip, -, hput⟩ := bind_eq_ok.1 hput
  obtain ⟨mac, -, hput⟩ := bind_eq_ok.1 hput
  cases hput
  exact .set_new ((walk_key ha).symm.trans (hc i))

theorem migrateTo7_keeps (h : migrateTo7 m = .ok m') (hc : Clear 7 m) : Keeps (doc env 7) m m' := by
  obtain ⟨hnull, hempty⟩ := hc
  have hsrc : ∀ mv ∈ dhcpv4Moves, ∀ p, (doc env 7).Named (.key "dhcp" :: .key mv.srcKey :: p) := fun mv hmv =>
    named_of_moved ["dhcp", .key mv.srcKey] ⟨mv.srcKey, by revert mv; decide, rfl⟩
  have hkeys : ∀ k ∈ dhcpv4Keys, ∃ mv ∈ dhcpv4Moves, mv.srcKey = k ∧ mv.dstKey = k := by decide
  unfold migrateTo7 at h
  dsimp only at h
  rw [objVal_setVersion (by decide)] at h
  split at h
  · rename_i o ho
    obtain ⟨⟨o', dhcpv4⟩, hmove, h⟩ := bind_eq_ok.1 h
    obtain ⟨o'', hput, h⟩ := bind_eq_ok.1 h
    cases h
    obtain ⟨⟨⟩, -⟩ | ⟨dhcp, ⟨⟩, hget⟩ | ⟨⟨⟩, -⟩ := objVal_cases ho
    · obtain ⟨s, rfl, hs⟩ := moved_of_moveAll hmove
        (fun mv hmv => .inr (by rw [← walk_pair hget]; exact hnull mv hmv)) (by decide) (by decide)
      cases hput
      have hdhcpv4 : Fields.get s "dhcpv4" = Fields.get dhcp "dhcpv4" := hs.src _ (by decide)
      refine ⟨(frames_setVersion named_version).trans (.set fun w hw => ?_), ?_, nofun⟩
      · rw [get_setVersion (by decide), hget] at hw
        cases hw
        refine (hs.frames _ hsrc).trans (.set_empty fun w hw => hempty w ?_)
        rw [walk_pair hget, ← hdhcpv4, hw]
      · rintro _ _ ⟨k, hk, ⟨⟩⟩ v hv
        obtain ⟨mv, hmv, rfl, hdst⟩ := hkeys k hk
        refine (walk_set_self _ _ _).trans ((walk_set_self _ _ _).trans ?_)
        rw [← hdst]
        exact walk_one.trans (hs.moved mv hmv v ((walk_pair hget).symm.trans hv))
    · rw [(moveAll_eq_none hmove).2 rfl] at hput
      cases hput
  · rename_i hother
    cases h
    refine ⟨frames_setVersion named_version, ?_, nofun⟩
    rintro _ _ ⟨k, -, ⟨⟩⟩ v hv
    obtain ⟨dhcp, hget, -⟩ := walk_two hv
    exact absurd (objVal_of_get hget) (hother _)

theorem migrateTo8_keeps (h : migrateTo8 m = .ok m') (hc : Clear 8 m) : Keeps (doc env 8) m m' := by
  obtain ⟨hnull, hnew⟩ := hc
  refine .of_move (.onSection h (by decide) named_version (by rintro _ ⟨⟩; rfl) fun dns dns' hget hdns => ?_) rfl rfl
    fun v hv => ?_
  · rw [Has, Absent, walk_pair hget, walk_pair hget] at hnew
    obtain ⟨x, hx, hdns⟩ := bind_eq_ok.1 hdns
    have hx := strVal_cases hx
    cases hhost : Fields.get dns "bind_host" with
    | none =>
      rw [hhost] at hx
      subst hx
      cases hdns
      exact .refl _ _
    | some v =>
      rw [hhost] at hx
      subst hx
      cases hdns
      refine (Frames.del (named_of_moved (d := doc env 8) ["dns", "bind_host"] rfl)).trans (.set_new ?_)
      rw [Fields.get_del_ne _ (by decide)]
      exact hnew (by rw [hhost]; exact nofun)
  · rw [NotNull, hv] at hnull
    obtain ⟨dns, hget, hv⟩ := walk_two hv
    refine walk_of_onSection h (by decide) hget fun o ho => ?_
    obtain ⟨x, hx, ho⟩ := bind_eq_ok.1 ho
    obtain ⟨s, rfl, rfl⟩ := strVal_of_get hx hv (by simpa using hnull)
    cases ho
    exact ⟨_, rfl, walk_set_self _ _ _⟩

theorem migrateTo9_keeps (h : migrateTo9 m = .ok m') (hc : Clear 9 m) : Keeps (doc env 9) m m' := by
  obtain ⟨hnull, hnew⟩ := hc
  refine .of_move (.onSection h (by decide) named_version (by rintro _ ⟨⟩; rfl) fun dns dns' hget hdns => ?_) rfl rfl
    fun v hv => ?_
  · rw [NotNull, walk_pair hget] at hnull
    rw [Has, Absent, walk_pair hget, walk_pair hget] at hnew
    exact .renameVal hdns (.inr hnull) (named_of_moved ["dns", "autohost_tld"] rfl) hnew
  · obtain ⟨dns, hget, hv⟩ := walk_two hv
    rw [NotNull, walk_pair hget] at hnull
    refine walk_of_onSection h (by decide) hget fun o ho => ?_
    obtain ⟨dns', rfl, hget'⟩ := get_of_renameVal ho (.inr hnull) (by decide) hv
    exact ⟨dns', rfl, walk_one.trans hget'⟩

/-- The change of an element in a list of upstreams. -/
theorem addQUICPorts_cases {dns : Fields} {k : String} {o : Obj} (h : addQUICPorts env k (some dns) = .ok o) :
    (Fields.get dns k = none ∧ o = some dns) ∨
      (∃ l l', Fields.get dns k = some (.list l) ∧ o = some (Fields.set dns k (.list l')) ∧
        l'.length = l.length ∧ ∀ (i : ℕ) (v : Val), l[i]? = some v → l'[i]? = some (v.mapStr (addQUICPort env · 784))) ∨
      ∃ v, Fields.get dns k = some v ∧ (∀ s, v.child s = none) ∧ o = some (Fields.set dns k .nilList) := by
  obtain ⟨x, hx, h⟩ := bind_eq_ok.1 h
  obtain ⟨rfl, hget⟩ | ⟨rfl, hget⟩ | ⟨v, rfl, hget, -, hv⟩ := fieldVal_cases hx
  · cases h
    exact .inl ⟨hget, rfl⟩
  · cases h
    exact .inr (.inr ⟨_, hget, fun _ => rfl, rfl⟩)
  · cases v with
    | list l =>
      obtain ⟨w, hw, h⟩ := bind_eq_ok.1 h
      obtain ⟨l', hl', hw⟩ := bind_eq_ok.1 hw
      cases hw
      cases h
      obtain ⟨hlen, hall⟩ := getElem?_of_mapIdxM hl'
      refine .inr (.inl ⟨l, l', hget, rfl, hlen, fun i u hu => ?_⟩)
      obtain ⟨b, hb, hfb⟩ := hall i u hu
      rw [hb]
      split at hfb
      · rename_i hstr
        cases hfb
        cases u with
        | str s => rfl
        | _ => cases hstr
      · cases hfb
    | nilList =>
      cases h
      exact .inr (.inr ⟨_, hget, fun _ => rfl, rfl⟩)
    | _ => cases hv

/-- The ports are put into the elements of one list. -/
theorem addQUICPorts_spec {dns : Fields} {k : String} {o : Obj} (h : addQUICPorts env k (some dns) = .ok o) :
    ∃ dns', o = some dns' ∧ (∀ k', k' ≠ k → Fields.get dns' k' = Fields.get dns k') ∧
      (∀ i v, Fields.walk dns [.key k, .idx i] = some v →
        Fields.walk dns' [.key k, .idx i] = some (v.mapStr (addQUICPort env · 784))) ∧
      ∀ N : Path → Prop, N [.key k] → (∀ i p, N (.key k :: .idx i :: p)) → Frames N (.map dns) (.map dns') := by
  obtain ⟨hget, rfl⟩ | ⟨l, l', hget, rfl, hlen, hall⟩ | ⟨v, hget, hhollow, rfl⟩ := addQUICPorts_cases h
  · refine ⟨dns, rfl, fun _ _ => rfl, fun i v hv => ?_, fun N _ _ => .refl _ _⟩
    rw [Fields.walk, Val.walk, Val.child, hget] at hv
    cases hv
  · refine ⟨_, rfl, fun k' hk' => get_set_ne _ hk', fun i v hv => ?_, fun N _ hN => ?_⟩
    · rw [walk_of_get hget, Val.walk, Val.child, Option.bind_eq_some_iff] at hv
      obtain ⟨u, hu, ⟨⟩⟩ := hv
      rw [walk_set_self, Val.walk, Val.child, hall i v hu]
      rfl
    · refine .set fun w hw => ?_
      cases hget.symm.trans hw
      exact .list hlen fun i a ha => ⟨_, hall i a ha, .of_named (hN i)⟩
  · refine ⟨_, rfl, fun k' hk' => get_set_ne _ hk', fun i w hw => ?_, fun N hN _ => ?_⟩
    · rw [walk_of_get hget, Val.walk, hhollow] at hw
      cases hw
    · refine .set fun w hw => ?_
      cases hget.symm.trans hw
      exact .of_hollow (.inl hN) hhollow

theorem migrateTo10_keeps (h : migrateTo10 env m = .ok m') : Keeps (doc env 10) m m' := by
  have hup : ∀ i, inPlace ["dns", "upstream_dns", .idx i] (addQUICPort env · 784) ∈ (doc env 10).converted :=
    fun i => ⟨i, .inl rfl⟩
  have hptr : ∀ i, inPlace ["dns", "local_ptr_upstreams", .idx i] (addQUICPort env · 784) ∈ (doc env 10).converted :=
    fun i => ⟨i, .inr rfl⟩
  refine ⟨.onSection h (by decide) named_version (by rintro _ ⟨⟩; rfl) fun dns dns' _ hdns => ?_, nofun, ?_⟩
  · obtain ⟨o, ho, hdns⟩ := bind_eq_ok.1 hdns
    obtain ⟨dns₁, rfl, -, -, hframes⟩ := addQUICPorts_spec ho
    obtain ⟨_, ⟨⟩, -, -, hframes'⟩ := addQUICPorts_spec hdns
    refine (hframes _ ?_ fun i => named_of_converted (hup i)).trans
      (hframes' _ ?_ fun i => named_of_converted (hptr i))
    · exact named_above_converted (hup 0) ⟨[.idx 0], rfl⟩
    · exact named_above_converted (hptr 0) ⟨[.idx 0], rfl⟩
  · rintro _ ⟨i, rfl | rfl⟩ v hv
    · obtain ⟨dns, hget, hv⟩ := walk_section hv
      refine walk_of_onSection h (by decide) hget fun o ho => ?_
      obtain ⟨o₁, ho₁, ho⟩ := bind_eq_ok.1 ho
      obtain ⟨dns₁, rfl, -, hconv, -⟩ := addQUICPorts_spec ho₁
      obtain ⟨dns₂, rfl, hsame, -, -⟩ := addQUICPorts_spec ho
      refine ⟨dns₂, rfl, Eq.trans ?_ (hconv i v hv)⟩
      rw [Fields.walk, Val.walk, Val.child, hsame _ (by decide)]
      rfl
    · obtain ⟨dns, hget, hv⟩ := walk_section hv
      refine walk_of_onSection h (by decide) hget fun o ho => ?_
      obtain ⟨o₁, ho₁, ho⟩ := bind_eq_ok.1 ho
      obtain ⟨dns₁, rfl, hsame, -, -⟩ := addQUICPorts_spec ho₁
      obtain ⟨dns₂, rfl, -, hconv, -⟩ := addQUICPorts_spec ho
      refine ⟨dns₂, rfl, hconv i v ?_⟩
      rw [Fields.walk, Val.walk, Val.child, hsame _ (by decide)]
      exact hv

theorem migrateTo11_keeps (h : migrateTo11 m = .ok m') (hc : Clear 11 m) : Keeps (doc env 11) m m' := by
  simp only [Clear, NotNull, EmptyAt, walk_one] at hc
  obtain ⟨hnull, hempty⟩ := hc
  obtain ⟨x, hx, h⟩ := bind_eq_ok.1 h
  cases h
  have hnamed : ∀ p, (doc env 11).Named (.key "rlimit_nofile" :: p) := named_of_moved ["rlimit_nofile"] rfl
  refine .of_move ((frames_setVersion named_version).trans
    ((Frames.del hnamed).trans (.set_empty fun w hw => ?_))) rfl rfl fun v hv => ?_
  · rw [Fields.get_del_ne _ (by decide), get_setVersion (by decide)] at hw
    exact hempty w hw
  · rw [walk_one] at hv
    obtain ⟨n, rfl, rfl⟩ := intVal_of_get hx ((get_setVersion (by decide)).trans hv) (by rintro rfl; exact hnull hv)
    exact walk_set_self _ _ _

theorem migrateTo12_keeps (h : migrateTo12 m = .ok m') (hc : Clear 12 m) : Keeps (doc env 12) m m' := by
  obtain ⟨hdoc, hnew⟩ := hc
  refine ⟨.onSection h (by decide) named_version nofun fun dns dns' hget hdns => ?_, nofun, ?_⟩
  · obtain ⟨x, -, hdns⟩ := bind_eq_ok.1 hdns
    cases hdns
    exact .set_new ((walk_pair hget).symm.trans hnew)
  · rintro _ rfl v hv
    cases hdoc.symm.trans hv

/-! ## Versions 13 to 22 -/

theorem migrateTo13_cases (h : migrateTo13 m = .ok m') :
    (m' = setVersion 13 m ∧ ∀ dns, Fields.get m "dns" = some (.map dns) →
        Fields.get dns "local_domain_name" = none ∨ Fields.get m "dhcp" = none) ∨
      ∃ dns dhcp name, Fields.get m "dns" = some (.map dns) ∧ Fields.get m "dhcp" = some (.map dhcp) ∧
        fieldVal .str (some dns) "local_domain_name" = .ok (some name) ∧
        m' = Fields.set (Fields.set (setVersion 13 m) "dhcp" (.map (Fields.set dhcp "local_domain_name" name))) "dns"
          (.map (Fields.del dns "local_domain_name")) := by
  obtain ⟨x, hx, h⟩ := bind_eq_ok.1 h
  rw [objVal_setVersion (by decide)] at hx
  obtain ⟨rfl, hdns⟩ | ⟨dns, rfl, hdns⟩ | ⟨rfl, hdns⟩ := objVal_cases hx
  · cases h
    exact .inl ⟨rfl, fun dns hget => by rw [hdns] at hget; cases hget⟩
  · obtain ⟨y, hy, h⟩ := bind_eq_ok.1 h
    rw [objVal_setVersion (by decide)] at hy
    obtain ⟨rfl, hdhcp⟩ | ⟨dhcp, rfl, hdhcp⟩ | ⟨rfl, -⟩ := objVal_cases hy
    · cases h
      exact .inl ⟨rfl, fun _ _ => .inr hdhcp⟩
    · obtain ⟨z, hz, h⟩ := bind_eq_ok.1 h
      cases z with
      | none =>
        cases h
        refine .inl ⟨rfl, fun dns' hdns' => .inl ?_⟩
        cases hdns.symm.trans hdns'
        exact get_of_fieldVal_none hz
      | some name =>
        cases h
        exact .inr ⟨dns, dhcp, name, hdns, hdhcp, hz, rfl⟩
    · obtain ⟨z, hz, h⟩ := bind_eq_ok.1 h
      cases z with
      | none =>
        cases h
        refine .inl ⟨rfl, fun dns' hdns' => .inl ?_⟩
        cases hdns.symm.trans hdns'
        exact get_of_fieldVal_none hz
      | some name => cases h
  · refine .inl ⟨?_, fun dns hget => absurd hget (hdns dns)⟩
    obtain ⟨y, -, h⟩ := bind_eq_ok.1 h
    cases y <;> (cases h; rfl)

theorem migrateTo13_keeps (h : migrateTo13 m = .ok m') (hc : Clear 13 m) : Keeps (doc env 13) m m' := by
  obtain ⟨hnull, hnew⟩ := hc
  obtain ⟨rfl, hnone⟩ | ⟨dns, dhcp, name, hdns, hdhcp, hname, rfl⟩ := migrateTo13_cases h
  · refine .of_move (frames_setVersion named_version) rfl rfl fun v hv => ?_
    have hhas := (hnew (by rw [Has, hv]; exact nofun)).1
    obtain ⟨dns, hdns, hv⟩ := walk_two hv
    obtain hget | hget := hnone dns hdns
    · rw [hv] at hget
      cases hget
    · exact absurd (walk_one.trans hget) hhas
  · rw [NotNull, walk_pair hdns] at hnull
    have hget := fieldVal_eq_get hname (.inr hnull)
    rw [Has, Absent, walk_pair hdns, walk_pair hdhcp, ← hget] at hnew
    refine .of_move ((frames_setVersion named_version).trans ((Frames.set fun w hw => ?_).trans (.set fun w hw => ?_)))
      rfl rfl fun v hv => ?_
    · rw [get_setVersion (by decide), hdhcp] at hw
      cases hw
      exact .set_new (hnew nofun).2
    · rw [get_set_ne _ (by decide), get_setVersion (by decide), hdns] at hw
      cases hw
      exact .del (named_of_moved ["dns", "local_domain_name"] rfl)
    · rw [walk_pair hdns, ← hget] at hv
      cases hv
      rw [walk_set_ne _ (by decide), walk_set_self]
      exact walk_one.trans (get_set_self _ _ _)

theorem migrateTo14_keeps (h : migrateTo14 m = .ok m') (hc : Clear 14 m) : Keeps (doc env 14) m m' := by
  obtain ⟨hclients, hresolve⟩ := hc
  rw [NotNull, walk_one] at hclients
  have hnamed : ∀ p, (doc env 14).Named (.key "clients" :: p) := named_of_moved ["clients"] (.inr rfl)
  obtain ⟨persistent, hpersistent, h⟩ := bind_eq_ok.1 h
  have hget := fieldVal_eq_get hpersistent (.inr (by rwa [get_setVersion (by decide)]))
  rw [get_setVersion (by decide)] at hget
  obtain ⟨x, hx, h⟩ := bind_eq_ok.1 h
  rw [objVal_setVersion (by decide)] at hx
  obtain ⟨rfl, hdns⟩ | ⟨dns, rfl, hdns⟩ | ⟨rfl, hdns⟩ := objVal_cases hx
  · cases h
    refine ⟨(frames_setVersion named_version).trans (.set_named hnamed), ?_, nofun⟩
    rintro _ _ (⟨⟨⟩⟩ | ⟨⟨⟩⟩) v hv
    · obtain ⟨dns, hget, -⟩ := walk_two hv
      cases hdns.symm.trans hget
    · rw [walk_one, ← hget] at hv
      subst hv
      exact walk_set_self _ _ _
  · obtain ⟨⟨o, runtimeSources⟩, hmove, h⟩ := bind_eq_ok.1 h
    rw [NotNull, walk_pair hdns] at hresolve
    obtain ⟨s, rfl, hs⟩ := moved_of_moveVal hmove (.inr hresolve)
    cases h
    refine ⟨(frames_setVersion named_version).trans ((Frames.set_named hnamed).trans (.set fun w hw => ?_)), ?_, nofun⟩
    · rw [get_set_ne _ (by decide), get_setVersion (by decide), hdns] at hw
      cases hw
      exact hs.frames _ fun mv hmv => by
        rw [List.mem_singleton.1 hmv]
        exact named_of_moved ["dns", "resolve_clients"] (.inl rfl)
    · rintro _ _ (⟨⟨⟩⟩ | ⟨⟨⟩⟩) v hv
      · rw [walk_pair hdns] at hv
        refine (walk_set_ne _ (by decide)).trans ((walk_set_self _ _ _).trans ?_)
        exact walk_one.trans (hs.moved ⟨.bool, "resolve_clients", "rdns"⟩ (by simp) v hv)
      · rw [walk_one, ← hget] at hv
        subst hv
        exact (walk_set_ne _ (by decide)).trans (walk_set_self _ _ _)
  · obtain ⟨⟨o, runtimeSources⟩, hmove, h⟩ := bind_eq_ok.1 h
    cases hmove
    cases h
    refine ⟨(frames_setVersion named_version).trans (.set_named hnamed), ?_, nofun⟩
    rintro _ _ (⟨⟨⟩⟩ | ⟨⟨⟩⟩) v hv
    · obtain ⟨dns, hget, -⟩ := walk_two hv
      exact absurd hget (hdns dns)
    · rw [walk_one, ← hget] at hv
      subst hv
      exact walk_set_self _ _ _

/-- A named section that holds nothing may be set. -/
theorem frames_set_hollow {k : String} {v : Val} (hnamed : d.Named [.key k]) (h : HollowAt m [.key k]) :
    Frames d.Named (.map m) (.map (Fields.set m k v)) := by
  refine .set fun w hw => .of_hollow (.inl hnamed) fun s => ?_
  have hs : Fields.walk m [.key k, s] = none := h s
  rw [walk_of_get hw, Val.walk] at hs
  cases hchild : w.child s with
  | none => rfl
  | some x =>
    rw [hchild] at hs
    cases hs

theorem hollowAt_setVersion {i : ℤ} {k : String} (hk : k ≠ "schema_version") (h : HollowAt m [.key k]) :
    HollowAt (setVersion i m) [.key k] := fun s => (walk_setVersion hk).trans (h s)

theorem migrateTo15_keeps (h : migrateTo15 m = .ok m') (hc : Clear 15 m) : Keeps (doc env 15) m m' := by
  obtain ⟨hplain, hhollow⟩ := hc
  have hnamed : (doc env 15).Named [.key "querylog"] := .inr (.inl rfl)
  have hkeys : ∀ k ∈ qlogKeys, ∃ mv ∈ qlogMoves, mv.srcKey = k.1 ∧ mv.dstKey = k.2 := by decide
  have hsrc : ∀ mv ∈ qlogMoves, ∀ p, (doc env 15).Named (.key "dns" :: .key mv.srcKey :: p) := fun mv hmv =>
    named_of_moved ["dns", .key mv.srcKey] ⟨(mv.srcKey, mv.dstKey), by revert mv; decide, rfl⟩
  obtain ⟨x, hx, h⟩ := bind_eq_ok.1 h
  rw [objVal_setVersion (by decide)] at hx
  rw [Has, walk_one] at hhollow
  obtain ⟨rfl, hdns⟩ | ⟨dns, rfl, hdns⟩ | ⟨rfl, hdns⟩ := objVal_cases hx
  · cases h
    refine ⟨frames_setVersion named_version, ?_, nofun⟩
    rintro _ _ ⟨k, -, ⟨⟨⟩⟩⟩ v hv
    obtain ⟨dns, hget, -⟩ := walk_two hv
    cases hdns.symm.trans hget
  · obtain ⟨⟨o, qlog⟩, hmove, h⟩ := bind_eq_ok.1 h
    obtain ⟨s, rfl, hs⟩ := moved_of_moveAll hmove
      (fun mv hmv => (hplain mv hmv).imp_right fun hnull => by rwa [← walk_pair hdns]) (by decide) (by decide)
    cases h
    have hhollow := hhollow (by rw [hdns]; exact nofun)
    refine ⟨(frames_setVersion named_version).trans
      ((frames_set_hollow hnamed (hollowAt_setVersion (by decide) hhollow)).trans (.set fun w hw => ?_)), ?_, nofun⟩
    · rw [get_set_ne _ (by decide), get_setVersion (by decide), hdns] at hw
      cases hw
      exact hs.frames _ hsrc
    · rintro _ _ ⟨k, hk, ⟨⟨⟩⟩⟩ v hv
      obtain ⟨mv, hmv, hmvsrc, hmvdst⟩ := hkeys k hk
      refine (walk_set_ne _ (by decide)).trans ((walk_set_self _ _ _).trans (walk_one.trans ?_))
      rw [← hmvdst]
      refine hs.moved mv hmv v ?_
      rw [hmvsrc]
      exact (walk_pair hdns).symm.trans hv
  · obtain ⟨⟨o, qlog⟩, hmove, h⟩ := bind_eq_ok.1 h
    cases hmove
    cases h
    have hhollow := hhollow (ne_none_of_objVal hx)
    refine ⟨(frames_setVersion named_version).trans
      (frames_set_hollow hnamed (hollowAt_setVersion (by decide) hhollow)), ?_, nofun⟩
    rintro _ _ ⟨k, -, ⟨⟨⟩⟩⟩ v hv
    obtain ⟨dns, hget, -⟩ := walk_two hv
    exact absurd hget (hdns dns)

/-- An interval of zero days stands for statistics that are turned off. -/
theorem get_stats (n : ℤ) :
    Fields.get (if n = 0 then Fields.set statsDefaults "enabled" (.bool false)
        else Fields.set statsDefaults "interval" (.int n)) "enabled" = some (.bool (n ≠ 0)) ∧
      Fields.get (if n = 0 then Fields.set statsDefaults "enabled" (.bool false)
        else Fields.set statsDefaults "interval" (.int n)) "interval" = some (.int (if n = 0 then 1 else n)) := by
  by_cases hn : n = 0
  · subst hn
    exact ⟨rfl, rfl⟩
  · rw [if_neg hn, if_neg hn, decide_eq_true hn]
    exact ⟨rfl, get_set_self _ _ _⟩

theorem migrateTo16_keeps (h : migrateTo16 m = .ok m') (hc : Clear 16 m) : Keeps (doc env 16) m m' := by
  have hnamed : (doc env 16).Named [.key "statistics"] := .inr (.inl rfl)
  have hsrc : ∀ p, (doc env 16).Named (.key "dns" :: .key "statistics_interval" :: p) :=
    named_of_converted (c := ofInt ["dns", "statistics_interval"] _ _) (.inl rfl)
  obtain ⟨x, hx, h⟩ := bind_eq_ok.1 h
  rw [objVal_setVersion (by decide)] at hx
  cases x with
  | none =>
    cases h
    obtain ⟨-, hdns⟩ | ⟨_, ⟨⟩, -⟩ | ⟨⟨⟩, -⟩ := objVal_cases hx
    refine ⟨frames_setVersion named_version, nofun, ?_⟩
    rintro _ (rfl | rfl) v hv <;>
    · obtain ⟨dns, hget, -⟩ := walk_two hv
      cases hdns.symm.trans hget
  | some o =>
    have hhollow := hollowAt_setVersion (i := 16) (by decide) (hc (by rw [Has, walk_one]; exact ne_none_of_objVal hx))
    obtain ⟨y, hy, h⟩ := bind_eq_ok.1 h
    obtain ⟨⟨⟩, -⟩ | ⟨dns, ⟨⟩, hdns⟩ | ⟨⟨⟩, hdns⟩ := objVal_cases hx
    · have hy := intVal_cases hy
      cases hget : Fields.get dns "statistics_interval" with
      | none =>
        rw [hget] at hy
        subst hy
        cases h
        refine ⟨(frames_setVersion named_version).trans (frames_set_hollow hnamed hhollow), nofun, ?_⟩
        rintro _ (rfl | rfl) v hv <;>
        · cases ((walk_pair hdns).symm.trans hv).symm.trans hget
      | some w =>
        rw [hget] at hy
        subst hy
        cases h
        refine ⟨(frames_setVersion named_version).trans ((frames_set_hollow hnamed hhollow).trans
          (.set fun u hu => ?_)), nofun, ?_⟩
        · rw [get_set_ne _ (by decide), get_setVersion (by decide), hdns] at hu
          cases hu
          exact .del hsrc
        · rintro _ (rfl | rfl) v hv
          · cases ((walk_pair hdns).symm.trans hv).symm.trans hget
            refine (walk_set_ne _ (by decide)).trans ((walk_set_self _ _ _).trans (walk_one.trans ?_))
            exact (get_stats _).1
          · cases ((walk_pair hdns).symm.trans hv).symm.trans hget
            refine (walk_set_ne _ (by decide)).trans ((walk_set_self _ _ _).trans (walk_one.trans ?_))
            exact (get_stats _).2
    · cases hy
      cases h
      refine ⟨(frames_setVersion named_version).trans (frames_set_hollow hnamed hhollow), nofun, ?_⟩
      rintro _ (rfl | rfl) v hv <;>
      · obtain ⟨dns, hget, -⟩ := walk_two hv
        exact absurd hget (hdns dns)

theorem migrateTo17_keeps (h : migrateTo17 m = .ok m') (hc : Clear 17 m) : Keeps (doc env 17) m m' := by
  refine .of_move (.onSection h (by decide) named_version nofun fun dns dns' hget hdns => ?_) rfl rfl fun v hv => ?_
  · cases hdns
    exact .set_named (named_of_moved ["dns", "edns_client_subnet"] rfl)
  · obtain ⟨b, rfl⟩ := hc v hv
    obtain ⟨dns, hget, hv⟩ := walk_two hv
    refine walk_of_onSection h (by decide) hget fun o ho => ?_
    rw [flag_of_bool hv] at ho
    cases ho
    exact ⟨_, rfl, walk_set_self _ _ _⟩

theorem migrateTo18_keeps (h : migrateTo18 m = .ok m') (hc : Clear 18 m) : Keeps (doc env 18) m m' := by
  obtain ⟨hnull, hempty⟩ := hc
  refine .of_move (.onSection h (by decide) named_version nofun fun dns dns' hget hdns => ?_) rfl rfl fun v hv => ?_
  · obtain ⟨_, ⟨⟩, hdns⟩ := bind_eq_ok.1 hdns
    obtain ⟨⟨o, ss⟩, hmove, hdns⟩ := bind_eq_ok.1 hdns
    rw [NotNull, walk_pair hget] at hnull
    obtain ⟨s, rfl, hs⟩ := moved_of_moveVal hmove (.inr (by rwa [get_set_ne _ (by decide)]))
    cases hdns
    -- The object is put there twice, so that the document is compared key by key.
    refine .of_get fun k w hw => ?_
    by_cases hk : k = "safesearch_enabled"
    · subst hk
      exact .inl (named_of_moved ["dns", "safesearch_enabled"] rfl)
    · right
      by_cases hk' : k = "safe_search"
      · subst hk'
        refine ⟨_, get_set_self _ _ _, ?_⟩
        rw [hempty w ((walk_pair hget).trans hw)]
        exact frames_empty
      · refine ⟨w, ?_, .refl _ _⟩
        rw [get_set_ne _ hk', hs.src k (by simpa using Ne.symm hk), get_set_ne _ hk', hw]
  · obtain ⟨dns, hget, hv⟩ := walk_two hv
    rw [NotNull, walk_pair hget] at hnull
    refine walk_of_onSection h (by decide) hget fun o ho => ?_
    obtain ⟨_, ⟨⟩, ho⟩ := bind_eq_ok.1 ho
    obtain ⟨⟨o', ss⟩, hmove, ho⟩ := bind_eq_ok.1 ho
    obtain ⟨s, rfl, hs⟩ := moved_of_moveVal hmove (.inr (by rwa [get_set_ne _ (by decide)]))
    cases ho
    refine ⟨_, rfl, (walk_set_self _ _ _).trans (walk_one.trans ?_)⟩
    exact hs.moved ⟨.bool, "safesearch_enabled", "enabled"⟩ (by simp) v ((get_set_ne _ (by decide)).trans hv)

/-- What the migration of the safe search does to a client with a flag. -/
theorem clientSafeSearch_cases {client : Fields} {o : Obj} (h : clientSafeSearch (some client) = .ok o)
    (hflag : ∀ w, Fields.get client "safesearch_enabled" = some w → ∃ b, w = .bool b) :
    ∃ s ss, o = some (Fields.set s "safe_search" (.map ss)) ∧
      Moved [⟨.bool, "safesearch_enabled", "enabled"⟩] client safeSearch s ss := by
  have hnull : Fields.get client "safesearch_enabled" ≠ some .null := by
    intro hget
    obtain ⟨b, hb⟩ := hflag _ hget
    cases hb
  obtain ⟨⟨o', ss⟩, hmove⟩ : ∃ q, moveVal .bool (some client) safeSearch "safesearch_enabled" "enabled" = .ok q :=
    moveVal_of_fieldVal (fieldVal_of_bool hflag)
  rw [clientSafeSearch, hmove] at h
  obtain ⟨s, rfl, hs⟩ := moved_of_moveVal hmove (.inr hnull)
  cases h
  exact ⟨s, ss, rfl, hs⟩

theorem migrateTo19_keeps (h : migrateTo19 m = .ok m') (hc : Clear 19 m) : Keeps (doc env 19) m m' := by
  have hflag : ∀ {i client}, Fields.walk m ["clients", "persistent", .idx i] = some (.map client) →
      ∀ w, Fields.get client "safesearch_enabled" = some w → ∃ b, w = .bool b :=
    fun hclient w hw => (hc _).1 w ((walk_key hclient).trans hw)
  refine ⟨.onSection h (by decide) named_version (by rintro _ ⟨⟩; rfl) fun clients clients' hget hclients =>
    .onArrAnyway hclients fun i a b ha hb => ?_, ?_, nofun⟩
  · have ha := (walk_of_get hget).trans ha
    refine .onElemObj hb nofun (by rintro _ _ ⟨⟩; rfl) fun client client' hclient hput => ?_
    subst hclient
    obtain ⟨s, ss, ⟨⟩, hs⟩ := clientSafeSearch_cases hput (hflag ha)
    refine (hs.frames _ fun mv hmv => ?_).trans (.set_empty fun w hw => (hc i).2 w ((walk_key ha).trans ?_))
    · rw [List.mem_singleton.1 hmv]
      exact named_of_moved ["clients", "persistent", .idx i, "safesearch_enabled"] ⟨i, rfl⟩
    · rw [← hw]
      exact (hs.src _ (by simp)).symm
  · rintro _ _ ⟨i, ⟨⟨⟩⟩⟩ v hv
    obtain ⟨clients, hget, hv⟩ := walk_section hv
    obtain ⟨l, client, hl, ha, hv⟩ := walk_element hv
    refine walk_of_onSection h (by decide) hget fun o ho => ?_
    obtain ⟨clients', b, rfl, hf, hwalk⟩ := onArrAnyway_element ho hl ha
    obtain ⟨o, ho, hb⟩ := bind_eq_ok.1 hf
    have hclient : Fields.walk m ["clients", "persistent", .idx i] = some (.map client) := by
      rw [walk_of_get hget]
      refine (walk_of_get hl).trans ?_
      rw [Val.walk, Val.child, ha]
      rfl
    obtain ⟨s, ss, rfl, hs⟩ := clientSafeSearch_cases ho (hflag hclient)
    cases hb
    refine ⟨clients', rfl, (hwalk _).trans ((walk_set_self _ _ _).trans (walk_one.trans ?_))⟩
    exact hs.moved ⟨.bool, "safesearch_enabled", "enabled"⟩ (by simp) v (walk_one.symm.trans hv)

theorem migrateTo20_keeps (h : migrateTo20 m = .ok m') (hc : Clear 20 m) : Keeps (doc env 20) m m' := by
  refine ⟨.onSection h (by decide) named_version nofun fun stats stats' hget hstats => ?_, nofun, ?_⟩
  · obtain ⟨x, -, hstats⟩ := bind_eq_ok.1 hstats
    cases hstats
    exact .set_named (named_of_converted (c := ofInt ["statistics", "interval"] _ _) rfl)
  · rintro _ rfl v hv
    obtain ⟨hne, hfits⟩ := hc v hv
    obtain ⟨stats, hget, hv⟩ := walk_two hv
    refine walk_of_onSection h (by decide) hget fun o ho => ?_
    obtain ⟨x, hx, ho⟩ := bind_eq_ok.1 ho
    have hx := intVal_cases hx
    rw [hv] at hx
    subst hx
    cases ho
    refine ⟨_, rfl, (walk_set_self _ _ _).trans ?_⟩
    dsimp only [Option.map_some, Option.getD_some]
    rw [if_neg hne, hfits]
    rfl

theorem migrateTo21_keeps (h : migrateTo21 m = .ok m') (hc : Clear 21 m) : Keeps (doc env 21) m m' := by
  have hnamed : ∀ p, (doc env 21).Named (.key "dns" :: .key "blocked_services" :: p) :=
    named_of_moved ["dns", "blocked_services"] rfl
  refine .of_move (.onSection h (by decide) named_version nofun fun dns dns' hget hdns => ?_) rfl rfl fun v hv => ?_
  · obtain ⟨⟨o, svcs⟩, hmove, hdns⟩ := bind_eq_ok.1 hdns
    obtain ⟨s, rfl, hs⟩ := moved_of_moveVal hmove (.inr (by rw [← walk_pair hget]; exact hc))
    cases hdns
    refine (hs.frames _ fun mv hmv => ?_).trans (.set_named hnamed)
    rw [List.mem_singleton.1 hmv]
    exact hnamed
  · obtain ⟨dns, hget, hv⟩ := walk_two hv
    refine walk_of_onSection h (by decide) hget fun o ho => ?_
    obtain ⟨⟨o', svcs⟩, hmove, ho⟩ := bind_eq_ok.1 ho
    obtain ⟨s, rfl, hs⟩ := moved_of_moveVal hmove (.inr (by rw [← walk_pair hget]; exact hc))
    cases ho
    refine ⟨_, rfl, (walk_set_self _ _ _).trans (walk_one.trans ?_)⟩
    exact hs.moved ⟨.arr, "blocked_services", "ids"⟩ (by simp) v hv

theorem migrateTo22_keeps (h : migrateTo22 m = .ok m') (hc : Clear 22 m) : Keeps (doc env 22) m m' := by
  refine ⟨.onSection h (by decide) named_version (by rintro _ ⟨⟩; rfl) fun clients clients' hget hclients =>
    .onArr hclients fun i a b ha hb => ?_, ?_, nofun⟩
  · have ha := (walk_of_get hget).trans ha
    refine .onElemObj hb (by rintro _ ⟨⟩; rfl) nofun fun client client' hclient hput => ?_
    subst hclient
    have hnone := (walk_key ha).symm.trans (hc i).2
    rw [clientServices, fieldVal, Option.bind_some, hnone] at hput
    cases hput
    exact .refl _ _
  · rintro _ _ ⟨i, ⟨⟨⟩⟩⟩ v hv
    cases (hc i).1.symm.trans hv

/-! ## Versions 23 to 34 -/

theorem migrateTo23_keeps (h : migrateTo23 env m = .ok m') (hc : Clear 23 m) : Keeps (doc env 23) m m' := by
  simp only [Clear, Has, EmptyAt, Absent, walk_one] at hc
  obtain ⟨hhas, habsent⟩ := hc
  have hhostNamed : ∀ p, (doc env 23).Named (.key "bind_host" :: p) :=
    named_of_converted (c := ofStr ["bind_host"] _ _) (.inl rfl)
  have hportNamed : ∀ p, (doc env 23).Named (.key "bind_port" :: p) :=
    named_of_converted (c := ofDoc ["bind_port"] _ _) (.inr (.inl rfl))
  have httlNamed : ∀ p, (doc env 23).Named (.key "web_session_ttl" :: p) :=
    named_of_converted (c := ofInt ["web_session_ttl"] _ _) (.inr (.inr rfl))
  obtain ⟨x, hx, h⟩ := bind_eq_ok.1 h
  have hx := strVal_cases hx
  rw [get_setVersion (by decide)] at hx
  cases hhost : Fields.get m "bind_host" with
  | none =>
    rw [hhost] at hx
    subst hx
    cases h
    obtain ⟨hport, httl⟩ := habsent hhost
    refine ⟨frames_setVersion named_version, nofun, ?_⟩
    rintro _ (rfl | rfl | rfl) v hv
    · cases (walk_one.symm.trans hv).symm.trans hhost
    · cases (walk_one.symm.trans hv).symm.trans hport
    · cases (walk_one.symm.trans hv).symm.trans httl
  | some host =>
    rw [hhost] at hx
    subst hx
    dsimp only [Option.map_some] at h
    split at h
    · cases h
    · rename_i addrPort haddr
      obtain ⟨bindPort, hport, h⟩ := bind_eq_ok.1 h
      obtain ⟨sessionTTL, httl, h⟩ := bind_eq_ok.1 h
      cases h
      have hport := intVal_cases hport
      have httl := intVal_cases httl
      rw [get_setVersion (by decide)] at hport httl
      obtain ⟨hempty, hlow, hhigh, hfits⟩ := hhas (by rw [hhost]; exact nofun)
      have hmod : (bindPort.getD 0 % 2 ^ 16).toNat = (numberOf m "bind_port").toNat := by
        rw [hport, ← numberOf, Int.emod_eq_of_lt hlow hhigh]
      have hmul : mul64 (sessionTTL.getD 0) hour = numberOf m "web_session_ttl" * hour := by
        rw [httl, ← numberOf, hfits]
      have haddress : httpAddress env host.toStr (numberOf m "bind_port") =
          .str (addrPort (bindPort.getD 0 % 2 ^ 16).toNat) := by
        rw [httpAddress, haddr, hmod]
        rfl
      have hwalk : ∀ (s http : Fields) (k : String), Fields.walk (Fields.del (Fields.del (Fields.del (Fields.set s
          "http" (.map http)) "bind_host") "bind_port") "web_session_ttl") ["http", .key k] = Fields.get http k := by
        intro s http k
        rw [walk_del_ne (by decide), walk_del_ne (by decide), walk_del_ne (by decide), walk_set_self]
        exact walk_one
      refine ⟨(frames_setVersion named_version).trans ((Frames.set_empty fun w hw => ?_).trans
        ((Frames.del hhostNamed).trans ((Frames.del hportNamed).trans (.del httlNamed)))), nofun, ?_⟩
      · rw [get_setVersion (by decide)] at hw
        exact hempty w hw
      · rintro _ (rfl | rfl | rfl) v hv
        · cases (walk_one.symm.trans hv).symm.trans hhost
          exact (hwalk _ _ _).trans (congrArg some haddress.symm)
        · refine (hwalk _ _ _).trans (congrArg some ?_)
          show _ = httpAddress env (((Fields.get m "bind_host").map Val.toStr).getD "") (numberOf m "bind_port")
          rw [hhost]
          exact haddress.symm
        · rw [numberOf, walk_one.symm.trans hv] at hmul
          refine (hwalk _ _ _).trans (congrArg some ?_)
          rw [hmul]
          rfl

theorem frames_setNonempty {N : Path → Prop} {obj : Fields} {k : String}
    (h : obj ≠ [] → ∀ w, Fields.get m k = some w → w = .map []) : Frames N (.map m) (.map (setNonempty m k obj)) := by
  unfold setNonempty
  split
  · exact .refl _ _
  · rename_i hobj
    exact .set_empty (h (by simpa using hobj))

theorem walk_setNonempty {obj : Fields} {k k' : String} {v : Val} (h : Fields.get obj k' = some v) :
    Fields.walk (setNonempty m k obj) [.key k, .key k'] = some v := by
  unfold setNonempty
  split
  · rename_i hobj
    rw [List.isEmpty_iff.1 hobj] at h
    cases h
  · exact (walk_set_self _ _ _).trans (walk_one.trans h)

/-- Something was moved to an object that is not empty any more. -/
theorem exists_of_moveAll {mvs : List Move} {s d' : Fields} {o : Obj} (h : moveAll mvs (some s) [] = .ok (o, d'))
    (hne : d' ≠ []) : ∃ mv ∈ mvs, Fields.get s mv.srcKey ≠ none := by
  by_contra hnone
  have hnone : ∀ mv ∈ mvs, Fields.get s mv.srcKey = none := fun mv hmv =>
    not_not.1 fun hget => hnone ⟨mv, hmv, hget⟩
  rw [moveAll_of_get_none hnone] at h
  cases h
  exact hne rfl

theorem migrateTo24_keeps (h : migrateTo24 m = .ok m') (hc : Clear 24 m) : Keeps (doc env 24) m m' := by
  simp only [Clear, NotNull, Has, EmptyAt, walk_one] at hc
  obtain ⟨hnull, hempty⟩ := hc
  have hversion : ∀ mv ∈ logMoves, mv.srcKey ≠ "schema_version" := by decide
  have hkeys : ∀ k ∈ logKeys, ∃ mv ∈ logMoves, mv.srcKey = k.1 ∧ mv.dstKey = k.2 := by decide
  have hsrc : ∀ mv ∈ logMoves, ∀ p, (doc env 24).Named (.key mv.srcKey :: p) := fun mv hmv =>
    named_of_moved [.key mv.srcKey] ⟨(mv.srcKey, mv.dstKey), by revert mv; decide, rfl⟩
  obtain ⟨⟨o, log⟩, hmove, h⟩ := bind_eq_ok.1 h
  obtain ⟨s, rfl, hs⟩ := moved_of_moveAll hmove
    (fun mv hmv => .inr (by rw [get_setVersion (hversion mv hmv)]; exact hnull mv hmv)) (by decide) (by decide)
  cases h
  refine ⟨(frames_setVersion named_version).trans ((hs.frames _ hsrc).trans (frames_setNonempty fun hne w hw => ?_)),
    ?_, nofun⟩
  · obtain ⟨mv, hmv, hget⟩ := exists_of_moveAll hmove hne
    rw [get_setVersion (hversion mv hmv)] at hget
    refine hempty ⟨mv, hmv, hget⟩ w ?_
    rw [← hw]
    exact ((hs.src _ (by decide)).trans (get_setVersion (by decide))).symm
  · rintro _ _ ⟨k, hk, ⟨⟨⟩⟩⟩ v hv
    obtain ⟨mv, hmv, hmvsrc, hmvdst⟩ := hkeys k hk
    refine walk_setNonempty ?_
    rw [← hmvdst]
    refine hs.moved mv hmv v ((get_setVersion (hversion mv hmv)).trans ?_)
    rw [hmvsrc]
    exact walk_one.symm.trans hv

theorem migrateTo25_keeps (h : migrateTo25 m = .ok m') (hc : Clear 25 m) : Keeps (doc env 25) m m' := by
  obtain ⟨hnull, hhas, hempty⟩ := hc
  rw [NotNull, walk_one] at hnull
  rw [Has, Has, walk_one, walk_one] at hhas
  obtain ⟨x, hx, h⟩ := bind_eq_ok.1 h
  rw [objVal_setVersion (by decide)] at hx
  obtain ⟨rfl, hhttp⟩ | ⟨http, rfl, hhttp⟩ | ⟨rfl, hhttp⟩ := objVal_cases hx
  · cases h
    refine .of_move (frames_setVersion named_version) rfl rfl fun v hv => ?_
    rw [walk_one] at hv
    exact absurd hhttp (hhas (by rw [hv]; exact nofun))
  · obtain ⟨⟨o, pprof⟩, hmove, h⟩ := bind_eq_ok.1 h
    obtain ⟨s, rfl, hs⟩ := moved_of_moveVal hmove (.inr (by rwa [get_setVersion (by decide)]))
    cases h
    have hs_http : Fields.get s "http" = some (.map http) :=
      (hs.src _ (by simp)).trans ((get_setVersion (by decide)).trans hhttp)
    refine .of_move ((frames_setVersion named_version).trans ((hs.frames _ fun mv hmv => ?_).trans
      (.set fun w hw => ?_))) rfl rfl fun v hv => ?_
    · rw [List.mem_singleton.1 hmv]
      exact named_of_moved ["debug_pprof"] rfl
    · cases hs_http.symm.trans hw
      exact .set_empty fun w hw => hempty w ((walk_pair hhttp).trans hw)
    · refine (walk_set_self _ _ _).trans ((walk_set_self _ _ _).trans (walk_one.trans ?_))
      rw [walk_one] at hv
      exact hs.moved ⟨.bool, "debug_pprof", "enabled"⟩ (by simp) v ((get_setVersion (by decide)).trans hv)
  · obtain ⟨⟨o, pprof⟩, hmove, h⟩ := bind_eq_ok.1 h
    cases h

theorem migrateTo26_keeps (h : migrateTo26 m = .ok m') (hc : Clear 26 m) : Keeps (doc env 26) m m' := by
  obtain ⟨hplain, hempty⟩ := hc
  have hkeys : ∀ k ∈ filteringKeys, ∃ mv ∈ filteringMoves, mv.srcKey = k ∧ mv.dstKey = k := by decide
  have hsrc : ∀ mv ∈ filteringMoves, ∀ p, (doc env 26).Named (.key "dns" :: .key mv.srcKey :: p) := fun mv hmv =>
    named_of_moved ["dns", .key mv.srcKey] ⟨mv.srcKey, by revert mv; decide, rfl⟩
  obtain ⟨x, hx, h⟩ := bind_eq_ok.1 h
  rw [objVal_setVersion (by decide)] at hx
  obtain ⟨rfl, hdns⟩ | ⟨dns, rfl, hdns⟩ | ⟨rfl, hdns⟩ := objVal_cases hx
  · cases h
    refine ⟨frames_setVersion named_version, ?_, nofun⟩
    rintro _ _ ⟨k, -, ⟨⟨⟩⟩⟩ v hv
    obtain ⟨dns, hget, -⟩ := walk_two hv
    cases hdns.symm.trans hget
  · obtain ⟨⟨o, filtering⟩, hmove, h⟩ := bind_eq_ok.1 h
    obtain ⟨s, rfl, hs⟩ := moved_of_moveAll hmove
      (fun mv hmv => (hplain mv hmv).imp_right fun hnull => by rwa [← walk_pair hdns]) (by decide) (by decide)
    cases h
    refine ⟨(frames_setVersion named_version).trans ((Frames.set fun w hw => ?_).trans
      (frames_setNonempty fun hne w hw => ?_)), ?_, nofun⟩
    · rw [get_setVersion (by decide), hdns] at hw
      cases hw
      exact hs.frames _ hsrc
    · obtain ⟨mv, hmv, hget⟩ := exists_of_moveAll hmove hne
      refine hempty ⟨mv, hmv, by rw [Has, walk_pair hdns]; exact hget⟩ w (walk_one.trans ?_)
      rw [← hw]
      exact ((get_set_ne _ (by decide)).trans (get_setVersion (by decide))).symm
    · rintro _ _ ⟨k, hk, ⟨⟨⟩⟩⟩ v hv
      obtain ⟨mv, hmv, rfl, hmvdst⟩ := hkeys k hk
      refine walk_setNonempty ?_
      rw [← hmvdst]
      exact hs.moved mv hmv v ((walk_pair hdns).symm.trans hv)
  · obtain ⟨⟨o, filtering⟩, hmove, h⟩ := bind_eq_ok.1 h
    cases hmove
    cases h
    refine ⟨frames_setVersion named_version, ?_, nofun⟩
    rintro _ _ ⟨k, -, ⟨⟨⟩⟩⟩ v hv
    obtain ⟨dns, hget, -⟩ := walk_two hv
    exact absurd hget (hdns dns)

theorem rootRule_eq (v : Val) : rootRule v = v.mapStr fun host => if host = "." then "|.^" else host := by
  cases v with
  | str s =>
    rw [rootRule, Val.mapStr]
    by_cases hs : s = "." <;> simp [hs, Ty.has, Val.toStr]
  | _ => simp [rootRule, Ty.has, Val.mapStr]

/-- The dots are replaced in one list. -/
theorem replaceDot_spec {k : String} (h : replaceDot k m = .ok m') :
    (∀ k', k' ≠ k → Fields.get m' k' = Fields.get m k') ∧
      (∀ i v, Fields.walk m [.key k, .key "ignored", .idx i] = some v →
        Fields.walk m' [.key k, .key "ignored", .idx i] =
          some (v.mapStr fun host => if host = "." then "|.^" else host)) ∧
      ∀ N : Path → Prop, (∀ i p, N (.key k :: .key "ignored" :: .idx i :: p)) → Frames N (.map m) (.map m') := by
  refine ⟨fun k' hk' => get_of_onObj h hk', fun i v hv => ?_, fun N hN => ?_⟩
  · obtain ⟨conf, hget, hv⟩ := walk_section hv
    obtain ⟨l, a, hl, ha, ⟨⟩⟩ := walk_index hv
    obtain ⟨o, ho, rfl⟩ := onObj_of_get h hget
    obtain ⟨conf', b, rfl, hb, hwalk⟩ := onArr_element ho hl ha
    cases hb
    refine (walk_set_self _ _ _).trans ((hwalk []).trans ?_)
    rw [rootRule_eq]
    rfl
  · exact .onObj h (by rintro _ ⟨⟩; rfl) fun conf conf' _ hconf =>
      .onArr hconf fun i a b _ _ => .of_named (hN i)

theorem migrateTo27_keeps (h : migrateTo27 m = .ok m') : Keeps (doc env 27) m m' := by
  have hnamed : ∀ k ∈ ["querylog", "statistics"], ∀ i p,
      (doc env 27).Named (.key k :: .key "ignored" :: .idx i :: p) := fun k hk i =>
    named_of_converted (c := inPlace [.key k, "ignored", .idx i] _) ⟨i, k, hk, rfl⟩
  obtain ⟨m₁, h₁, h⟩ := bind_eq_ok.1 h
  obtain ⟨hsame₁, hconv₁, hframes₁⟩ := replaceDot_spec h₁
  obtain ⟨hsame, hconv, hframes⟩ := replaceDot_spec h
  refine ⟨(frames_setVersion named_version).trans ((hframes₁ _ (hnamed _ (by simp))).trans
    (hframes _ (hnamed _ (by simp)))), nofun, ?_⟩
  rintro _ ⟨i, k, hk, rfl⟩ v hv
  obtain rfl | rfl : k = "querylog" ∨ k = "statistics" := by simpa using hk
  · refine (walk_congr (hsame _ (by decide))).trans (hconv₁ i v ?_)
    rw [walk_setVersion (by decide)]
    exact hv
  · refine hconv i v ((walk_congr (hsame₁ _ (by decide))).trans ?_)
    rw [walk_setVersion (by decide)]
    exact hv

theorem migrateTo28_keeps (h : migrateTo28 m = .ok m') (hc : Clear 28 m) : Keeps (doc env 28) m m' := by
  obtain ⟨hall, hfastest, hnew⟩ := hc
  have hnamed : ∀ p, (doc env 28).Named (.key "dns" :: .key "all_servers" :: p) :=
    named_of_converted (c := ofDoc ["dns", "all_servers"] _ _) (.inl rfl)
  have hnamed' : ∀ p, (doc env 28).Named (.key "dns" :: .key "fastest_addr" :: p) :=
    named_of_converted (c := ofDoc ["dns", "fastest_addr"] _ _) (.inr rfl)
  refine ⟨.onSection h (by decide) named_version nofun fun dns dns' hget hdns => ?_, nofun, ?_⟩
  · cases hdns
    exact (Frames.set_new ((walk_pair hget).symm.trans hnew)).trans ((Frames.del hnamed).trans (.del hnamed'))
  · have hmode : ∀ dns, Fields.get m "dns" = some (.map dns) → Fields.walk m' ["dns", "upstream_mode"] =
        some (modeOf m) := by
      intro dns hget
      refine walk_of_onSection h (by decide) hget fun o ho => ?_
      cases ho
      refine ⟨_, rfl, (walk_del_ne (by decide)).trans ((walk_del_ne (by decide)).trans
        ((walk_set_self _ _ _).trans ?_))⟩
      simp only [FlagAt, walk_pair hget] at hall hfastest
      simp only [modeOf, IsOn, walk_pair hget, ← flag_eq hall, ← flag_eq hfastest]
      rfl
    rintro _ (rfl | rfl) v hv <;>
    · obtain ⟨dns, hget, -⟩ := walk_two hv
      exact hmode dns hget

theorem migrateTo29_keeps (h : migrateTo29 env m = .ok m') (hc : Clear 29 m) : Keeps (doc env 29) m m' := by
  obtain ⟨x, hx, h⟩ := bind_eq_ok.1 h
  cases x with
  | none =>
    cases h
    exact .of_frames (frames_setVersion named_version) rfl rfl
  | some filters =>
    have hhas : Has m ["filters"] := by
      rw [Has, walk_one, ← get_setVersion (by decide)]
      exact ne_none_of_fieldVal_some hx
    obtain ⟨paths, -, h⟩ := bind_eq_ok.1 h
    refine .of_frames (.onSection h (by decide) named_version nofun fun flt flt' hget hflt => ?_) rfl rfl
    cases hflt
    exact .set_new ((walk_pair hget).symm.trans (hc hhas))

theorem migrateTo30_keeps (h : migrateTo30 m = .ok m') (hc : Clear 30 m) : Keeps (doc env 30) m m' := by
  refine .of_frames (.onSection h (by decide) named_version (by rintro _ ⟨⟩; rfl) fun dns dns' hget hdns => ?_) rfl rfl
  obtain ⟨x, hx, hdns⟩ := bind_eq_ok.1 hdns
  have hx := intVal_cases hx
  rw [Clear, Has, Absent, walk_pair hget, walk_pair hget] at hc
  cases hsize : Fields.get dns "cache_size" with
  | none =>
    rw [hsize] at hx
    subst hx
    cases hdns
    exact .refl _ _
  | some v =>
    rw [hsize] at hx
    subst hx
    cases hdns
    exact .set_new (hc (by rw [hsize]; exact nofun))

theorem migrateTo31_keeps (h : migrateTo31 m = .ok m') (hc : Clear 31 m) : Keeps (doc env 31) m m' := by
  refine .of_frames (.onSection h (by decide) named_version (by rintro _ ⟨⟩; rfl) fun flt flt' hget hflt =>
    .onArr hflt fun i a b ha hb => ?_) rfl rfl
  have ha := (walk_of_get hget).trans ha
  refine .onElemObj hb nofun (by rintro _ _ ⟨⟩; rfl) fun rewrite rewrite' hrewrite hput => ?_
  subst hrewrite
  cases hput
  exact .set_new ((walk_key ha).symm.trans (hc i))

theorem migrateTo32_keeps (h : migrateTo32 m = .ok m') (hc : Clear 32 m) : Keeps (doc env 32) m m' := by
  refine .of_frames (.onSection h (by decide) named_version nofun fun dns dns' hget hdns => ?_) rfl rfl
  cases hdns
  refine (Frames.set_new ((walk_pair hget).symm.trans hc.1)).trans (.set_new ?_)
  rw [get_set_ne _ (by decide)]
  exact (walk_pair hget).symm.trans hc.2

theorem setIgnoredEnabled_cases {k : String} {x : Option Fields} (h : setIgnoredEnabled k m = .ok x) :
    x = none ∨ ∃ conf b, Fields.get m k = some (.map conf) ∧ Fields.get conf "ignored" ≠ none ∧
      x = some (Fields.set m k (.map (Fields.set conf "ignored_enabled" (.bool b)))) := by
  obtain ⟨y, hy, h⟩ := bind_eq_ok.1 h
  obtain ⟨rfl, -⟩ | ⟨conf, rfl, hget⟩ | ⟨rfl, -⟩ := objVal_cases hy
  · cases h
    exact .inl rfl
  · obtain ⟨z, hz, h⟩ := bind_eq_ok.1 h
    cases z with
    | none =>
      cases h
      exact .inl rfl
    | some ignored =>
      cases h
      exact .inr ⟨conf, _, hget, ne_none_of_fieldVal_some hz, rfl⟩
  · cases h
    exact .inl rfl

theorem frames_setIgnoredEnabled {N : Path → Prop} {k : String} (h : setIgnoredEnabled k m = .ok (some m'))
    (hnew : Has m [.key k, "ignored"] → Absent m [.key k, "ignored_enabled"]) : Frames N (.map m) (.map m') := by
  obtain ⟨⟨⟩⟩ | ⟨conf, b, hget, hignored, ⟨⟩⟩ := setIgnoredEnabled_cases h
  rw [Has, Absent, walk_pair hget, walk_pair hget] at hnew
  refine .set fun w hw => ?_
  cases hget.symm.trans hw
  exact .set_new (hnew hignored)

theorem migrateTo33_keeps (h : migrateTo33 m = .ok m') (hc : Clear 33 m) : Keeps (doc env 33) m m' := by
  have hversion : Frames (doc env 33).Named (.map m) (.map (setVersion 33 m)) := frames_setVersion named_version
  obtain ⟨x, hx, h⟩ := bind_eq_ok.1 h
  cases x with
  | none =>
    cases h
    exact .of_frames hversion rfl rfl
  | some m₁ =>
    obtain ⟨y, hy, h⟩ := bind_eq_ok.1 h
    cases h
    obtain ⟨⟨⟩⟩ | ⟨qlog, b, hqlog, hignored, ⟨⟩⟩ := setIgnoredEnabled_cases hx
    rw [get_setVersion (by decide)] at hqlog
    obtain ⟨hnew, hnew'⟩ := hc (by rw [Has, walk_pair hqlog]; exact hignored)
    refine .of_frames (hversion.trans ((frames_setIgnoredEnabled hx fun _ => ?_).trans ?_)) rfl rfl
    · rw [Absent, walk_setVersion (by decide)]
      exact hnew
    · cases y with
      | none => exact .refl _ _
      | some m₂ =>
        refine frames_setIgnoredEnabled hy ?_
        rwa [Has, Absent, walk_set_ne _ (by decide), walk_set_ne _ (by decide), walk_setVersion (by decide),
          walk_setVersion (by decide)]

theorem migrateTo34_keeps (h : migrateTo34 m = .ok m') (hc : Clear 34 m) : Keeps (doc env 34) m m' := by
  obtain ⟨habsent, hempty⟩ := hc
  have hversion : Frames (doc env 34).Named (.map m) (.map (setVersion 34 m)) := frames_setVersion named_version
  refine .of_move ?_ rfl rfl fun v hv => by cases habsent.symm.trans hv
  obtain ⟨x, hx, h⟩ := bind_eq_ok.1 h
  rw [objVal_setVersion (by decide)] at hx
  cases x with
  | none =>
    cases h
    exact hversion
  | some o =>
    obtain ⟨y, hy, h⟩ := bind_eq_ok.1 h
    rw [objVal_setVersion (by decide)] at hy
    cases y with
    | none =>
      cases h
      exact hversion
    | some tls =>
      have hempty := hempty (by rw [Has, walk_one]; exact ne_none_of_objVal hy)
      have hmoved : moveVal .bool tls dohDefaults "allow_unencrypted_doh" "insecure_enabled" =
          .ok (tls, dohDefaults) := by
        obtain ⟨⟨⟩, -⟩ | ⟨tls, ⟨⟩, htls⟩ | ⟨⟨⟩, -⟩ := objVal_cases hy
        · rw [moveVal, fieldVal, Option.bind_some, (walk_pair htls).symm.trans habsent]
          rfl
        · rfl
      obtain ⟨o', hput, h⟩ := bind_eq_ok.1 h
      rw [hmoved] at h
      obtain ⟨_, ⟨⟩, h⟩ := bind_eq_ok.1 h
      obtain ⟨o'', hput', h⟩ := bind_eq_ok.1 h
      cases h
      obtain ⟨⟨⟩, -⟩ | ⟨http, ⟨⟩, hhttp⟩ | ⟨⟨⟩, -⟩ := objVal_cases hx
      · cases hput
        cases hput'
        have hdoh : Frames (doc env 34).Named (.map (setVersion 34 m)) (.map (Fields.set (setVersion 34 m) "http"
            (.map (Fields.set (Fields.set http "doh" (.map dohDefaults)) "doh" (.map dohDefaults))))) := by
          refine .set fun w hw => ?_
          rw [get_setVersion (by decide), hhttp] at hw
          cases hw
          refine (Frames.set_empty fun w hw => hempty w ((walk_pair hhttp).trans hw)).trans (.set fun w hw => ?_)
          cases (get_set_self _ _ _).symm.trans hw
          exact .refl _ _
        refine hversion.trans (hdoh.trans ?_)
        obtain ⟨⟨⟩, -⟩ | ⟨tls, ⟨⟩, htls⟩ | ⟨⟨⟩, -⟩ := objVal_cases hy
        · refine .set fun w hw => ?_
          rw [get_set_ne _ (by decide), get_setVersion (by decide), htls] at hw
          cases hw
          exact .refl _ _
        · exact .refl _ _
      · cases hput

end AdGuardHome.Configmigrate
