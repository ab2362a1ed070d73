import AdGuardHome.Dhcpsvc.Options4

/-!
# Configured options in responses

The last entry of the configuration for a code says what the responses have under it (`configured`).  A response is
made of options of its own, the implicit ones that are requested and the configured ones (`appendRequestedOptions_eq`);
it has a code twice where these overlap or where the request repeats a code.
-/

namespace AdGuardHome.Dhcpsvc

open AdGuardHome.Dhcp AdGuardHome.Lib

variable {sort : SortFunc} {conf : IPv4Config} {options opts X Y : List DHCPOption} {o : DHCPOption}

/-! ## The two tables -/

/-- The codes of the options with default values. -/
def implicitCodes : List UInt8 :=
  [1, 3, 19, 20, 22, 23, 24, 25, 27, 28, 29, 30, 31, 32, 34, 35, 36, 37, 38, 39]

/-- The data that is configured for a code: that of the last option with the code. -/
def configured (options : List DHCPOption) (code : UInt8) : Option (List UInt8) :=
  options.foldl (fun data o => if o.type = code then some o.data else data) none

theorem weakOrder_codes : WeakOrder compareV4OptionCodes where
  total a b := by
    unfold compareV4OptionCodes
    omega
  trans a b c hab hbc := by
    unfold compareV4OptionCodes at *
    omega

theorem code_inj {a b : UInt8} : a.toNat = b.toNat ↔ a = b := UInt8.toNat_inj

theorem implicitOptions_types (sort : SortFunc) (c : IPv4Config) :
    ((c.implicitOptions sort).map DHCPOption.type).Perm
      [1, 3, 19, 20, 22, 23, 24, 25, 27, 29, 30, 31, 32, 28, 34, 35, 36, 37, 38, 39] :=
  (sort.perm compareV4OptionCodes c.unsortedOptions).map DHCPOption.type

theorem mem_implicitOptions_types {c : IPv4Config} {code : UInt8} :
    (∃ o ∈ c.implicitOptions sort, o.type = code) ↔ code ∈ implicitCodes := by
  rw [← List.mem_map, (implicitOptions_types sort c).mem_iff]
  exact List.Perm.mem_iff (by decide)

theorem sorted_implicitOptions (sort : SortFunc) (c : IPv4Config) :
    SortedBy DHCPOption.code (c.implicitOptions sort) := by
  have hnodup : ((c.implicitOptions sort).map DHCPOption.type).Nodup := by
    rw [(implicitOptions_types sort c).nodup_iff]
    decide
  have hle := sort.sorted weakOrder_codes c.unsortedOptions
  refine (hle.and (List.pairwise_map.1 hnodup)).imp ?_
  rintro a b ⟨hab, hne⟩
  have hcode : a.type.toNat ≠ b.type.toNat := fun h => hne (code_inj.1 h)
  unfold compareV4OptionCodes at hab
  unfold DHCPOption.code
  omega

theorem nodup_types (h : SortedBy DHCPOption.code opts) : (opts.map DHCPOption.type).Nodup :=
  List.pairwise_map.2 (h.imp fun hab heq => by
    have := congrArg UInt8.toNat heq
    unfold DHCPOption.code at hab
    omega)

/-- A turn of the loop on sorted options. -/
theorem setOption_eq {imp exp : List DHCPOption} (himp : SortedBy DHCPOption.code imp)
    (hexp : SortedBy DHCPOption.code exp) (o : DHCPOption) :
    setOption (imp, exp) o = (imp.filter fun a => a.code ≠ o.code, upsertBy DHCPOption.code exp o) := by
  have hdelete := deleteBy_eq himp o.code
  unfold deleteBy at hdelete
  have hfound := searchBy_found hexp o.code
  unfold setOption upsertBy
  simp only [hdelete, Prod.mk.injEq, true_and]
  split
  case isTrue h =>
    -- The option that is found has the code, so that it is replaced as a whole.
    rw [if_pos h] at hfound
    obtain ⟨hget, hsome⟩ := hfound
    obtain ⟨e, he⟩ := Option.isSome_iff_exists.1 hsome
    have hcode := ((lookupBy_eq_some hexp).1 he).2
    rw [he] at hget
    have hnew : ({ e with data := o.data, length := o.length } : DHCPOption) = o := by
      cases o
      cases e
      simp_all [DHCPOption.code, code_inj]
    rw [List.modify_eq_set_getElem?, hget]
    simp [hnew]
  case isFalse => rfl

theorem configured_append (options : List DHCPOption) (o : DHCPOption) (code : UInt8) :
    configured (options ++ [o]) code = if o.type = code then some o.data else configured options code := by
  unfold configured
  rw [List.foldl_append]
  rfl

/-- The tables after the loop of `options`. -/
theorem allOptions_spec (sort : SortFunc) (conf : IPv4Config) :
    (conf.allOptions sort).1 = (conf.implicitOptions sort).filter (fun o => configured conf.options o.type = none) ∧
      SortedBy DHCPOption.code (conf.allOptions sort).2 ∧
        ∀ code : UInt8, (lookupBy DHCPOption.code (conf.allOptions sort).2 code.toNat).map DHCPOption.data =
          configured conf.options code := by
  unfold IPv4Config.allOptions
  have himp := sorted_implicitOptions sort conf
  generalize conf.implicitOptions sort = imp₀ at himp ⊢
  induction conf.options using List.reverseRecOn with
  | nil => exact ⟨by simp [configured], .nil, fun _ => rfl⟩
  | append_singleton options o ih =>
    obtain ⟨himp', hexp, hlookup⟩ := ih
    rw [List.foldl_append, List.foldl_cons, List.foldl_nil]
    generalize options.foldl setOption (imp₀, []) = opts at himp' hexp hlookup ⊢
    obtain ⟨imp, exp⟩ := opts
    dsimp only at himp' hexp hlookup
    have hsorted : SortedBy DHCPOption.code imp := by
      rw [himp']
      exact himp.filter _
    rw [setOption_eq hsorted hexp]
    refine ⟨?_, hexp.upsertBy o, fun code => ?_⟩
    · dsimp only
      rw [himp', List.filter_filter]
      refine List.filter_congr fun a _ => ?_
      rw [configured_append]
      by_cases ha : o.type = a.type
      · simp [ha, DHCPOption.code]
      · have hcode : a.code ≠ o.code := fun h => ha (code_inj.1 h).symm
        simp [ha, hcode]
    · rw [lookupBy_upsertBy hexp, configured_append, ← hlookup code]
      by_cases hcode : o.type = code
      · simp [hcode, DHCPOption.code]
      · have hne : o.code ≠ code.toNat := fun h => hcode (code_inj.1 h)
        rw [if_neg hne, if_neg hcode]

/-- The data of an explicit option is what is configured. -/
theorem mem_explicit (sort : SortFunc) (conf : IPv4Config) {o : DHCPOption} (ho : o ∈ (conf.allOptions sort).2) :
    configured conf.options o.type = some o.data := by
  obtain ⟨-, hsorted, hlookup⟩ := allOptions_spec sort conf
  have hfound : lookupBy DHCPOption.code (conf.allOptions sort).2 o.type.toNat = some o :=
    (lookupBy_eq_some hsorted).2 ⟨ho, rfl⟩
  rw [← hlookup, hfound]
  rfl

theorem exists_explicit (sort : SortFunc) {conf : IPv4Config} {code : UInt8} {data : List UInt8}
    (h : configured conf.options code = some data) :
    ∃ o ∈ (conf.allOptions sort).2, o.type = code ∧ o.data = data := by
  obtain ⟨-, hsorted, hlookup⟩ := allOptions_spec sort conf
  rw [← hlookup] at h
  obtain ⟨o, ho, hdata⟩ := Option.map_eq_some_iff.1 h
  obtain ⟨hmem, hcode⟩ := (lookupBy_eq_some hsorted).1 ho
  exact ⟨o, hmem, code_inj.1 hcode, hdata⟩

/-! ## Appended options -/

/-- The loop over the explicit options: those with data are appended, and those without remove what was there. -/
theorem foldl_appendExplicit {exp : List DHCPOption} (hnodup : (exp.map DHCPOption.type).Nodup)
    (opts : List DHCPOption) :
    exp.foldl appendExplicit opts =
      opts.filter (fun o => ∀ e ∈ exp, e.type = o.type → e.data ≠ []) ++ exp.filter fun e => e.data ≠ [] := by
  induction exp generalizing opts with
  | nil => simp
  | cons e exp ih =>
    obtain ⟨hnew, hnodup⟩ := List.nodup_cons.1 hnodup
    rw [List.foldl_cons, ih hnodup]
    unfold appendExplicit
    by_cases hdata : e.data = []
    · rw [if_neg (by simpa using hdata), List.filter_filter, List.filter_cons_of_neg (by simpa using hdata)]
      congr 1
      refine List.filter_congr fun o _ => Bool.eq_iff_iff.2 ?_
      simp only [Bool.and_eq_true, Bool.not_eq_true', decide_eq_true_eq, decide_eq_false_iff_not, List.forall_mem_cons,
        hdata, ne_eq, not_true_eq_false, imp_false]
      exact ⟨fun h => ⟨fun heq => h.2 heq.symm, h.1⟩, fun h => ⟨h.2, fun heq => h.1 heq.symm⟩⟩
    · -- No later option has the code of the one that is appended.
      have hkeep : ∀ e' ∈ exp, e'.type = e.type → e'.data ≠ [] := fun e' he' heq =>
        absurd (heq ▸ List.mem_map_of_mem he') hnew
      rw [if_pos hdata, List.filter_append, List.filter_cons_of_pos (by simpa using hkeep),
        List.filter_cons_of_pos (by simpa using hdata), List.append_assoc]
      congr 1
      refine List.filter_congr fun o _ => ?_
      simp [hdata]

/-- The implicit options for the requested codes. -/
def requestedOpts (sort : SortFunc) (conf : IPv4Config) (options : List DHCPOption) : List DHCPOption :=
  (requestedOptions4 options).filterMap fun code => lookupBy DHCPOption.code (conf.allOptions sort).1 code.toNat

/-- The requested codes that have an implicit option: those with a default value and nothing configured. -/
def impliedCodes (conf : IPv4Config) (options : List DHCPOption) : List UInt8 :=
  (requestedOptions4 options).filter fun code => code ∈ implicitCodes ∧ configured conf.options code = none

theorem lookup_implicit (sort : SortFunc) (conf : IPv4Config) (code : UInt8) :
    (lookupBy DHCPOption.code (conf.allOptions sort).1 code.toNat).map DHCPOption.type =
      if code ∈ implicitCodes ∧ configured conf.options code = none then some code else none := by
  have himp := (allOptions_spec sort conf).1
  have hsorted : SortedBy DHCPOption.code (conf.allOptions sort).1 := by
    rw [himp]
    exact (sorted_implicitOptions sort conf).filter _
  cases hlookup : lookupBy DHCPOption.code (conf.allOptions sort).1 code.toNat with
  | none =>
    rw [if_neg]
    · rfl
    · rintro ⟨hcode, hconf⟩
      obtain ⟨o, ho, rfl⟩ := mem_implicitOptions_types.2 hcode
      have hmem : o ∈ (conf.allOptions sort).1 := by
        rw [himp]
        exact List.mem_filter.2 ⟨ho, by simpa using hconf⟩
      have hfound : lookupBy DHCPOption.code (conf.allOptions sort).1 o.type.toNat = some o :=
        (lookupBy_eq_some hsorted).2 ⟨hmem, rfl⟩
      rw [hfound] at hlookup
      cases hlookup
  | some o =>
    obtain ⟨hmem, hcode⟩ := (lookupBy_eq_some hsorted).1 hlookup
    cases code_inj.1 hcode
    rw [himp] at hmem
    obtain ⟨ho, hconf⟩ := List.mem_filter.1 hmem
    rw [if_pos ⟨mem_implicitOptions_types.1 ⟨o, ho, rfl⟩, by simpa using hconf⟩]
    rfl

theorem requestedOpts_types (sort : SortFunc) (conf : IPv4Config) (options : List DHCPOption) :
    (requestedOpts sort conf options).map DHCPOption.type = impliedCodes conf options := by
  unfold requestedOpts impliedCodes
  rw [List.map_filterMap, ← List.filterMap_eq_filter]
  refine List.filterMap_congr fun code _ => ?_
  rw [lookup_implicit]
  simp [Option.guard]

theorem mem_requestedOpts (h : o ∈ requestedOpts sort conf options) :
    o.type ∈ implicitCodes ∧ configured conf.options o.type = none := by
  have hmem := List.mem_map_of_mem (f := DHCPOption.type) h
  rw [requestedOpts_types] at hmem
  simpa using (List.mem_filter.1 hmem).2

/-- A response: the options from before that are not to be removed, the requested and the configured ones. -/
theorem appendRequestedOptions_eq (sort : SortFunc) (conf : IPv4Config) (ttl : Duration) (opts options : List DHCPOption) :
    (newDHCPInterfaceV4 sort conf ttl).appendRequestedOptions opts options =
      opts.filter (fun o => configured conf.options o.type ≠ some []) ++ requestedOpts sort conf options ++
        (conf.allOptions sort).2.filter fun e => e.data ≠ [] := by
  obtain ⟨himp, hsorted, -⟩ := allOptions_spec sort conf
  have hsorted₁ : SortedBy DHCPOption.code (conf.allOptions sort).1 := by
    rw [himp]
    exact (sorted_implicitOptions sort conf).filter _
  have hrequested : ((requestedOptions4 options).filterMap fun code =>
      let found := searchBy DHCPOption.code (newDHCPInterfaceV4 sort conf ttl).implicitOpts code.toNat
      if found.2 then (newDHCPInterfaceV4 sort conf ttl).implicitOpts[found.1]? else none) =
        requestedOpts sort conf options := by
    refine List.filterMap_congr fun code _ => ?_
    have hfound := searchBy_found hsorted₁ code.toNat
    split at hfound
    case isTrue h => exact (if_pos h).trans hfound.1
    case isFalse h => exact (if_neg h).trans hfound.symm
  have hnodup := nodup_types hsorted
  unfold DhcpInterfaceV4.appendRequestedOptions
  dsimp only at hrequested ⊢
  rw [hrequested, show (newDHCPInterfaceV4 sort conf ttl).explicitOpts = (conf.allOptions sort).2 from rfl,
    foldl_appendExplicit hnodup, List.filter_append]
  have hkeep : ∀ o : DHCPOption, (∀ e ∈ (conf.allOptions sort).2, e.type = o.type → e.data ≠ []) ↔
      configured conf.options o.type ≠ some [] := by
    intro o
    constructor
    · intro h hnil
      obtain ⟨e, he, htype, hdata⟩ := exists_explicit sort hnil
      exact h e he htype hdata
    · intro h e he htype hdata
      have := mem_explicit sort conf he
      rw [htype, hdata] at this
      exact h this
  have himplied : (requestedOpts sort conf options).filter (fun o => configured conf.options o.type ≠ some []) =
      requestedOpts sort conf options := List.filter_eq_self.2 fun o ho => by simp [(mem_requestedOpts ho).2]
  simp only [hkeep, himplied]

/-! ## Responses and the configuration -/

/-- A response has no option that is to be removed, has every option that is configured with data, and has no code
twice. -/
structure Respects (options opts : List DHCPOption) : Prop where
  removed : ∀ code, configured options code = some [] → ∀ o ∈ opts, o.type ≠ code
  sent : ∀ code data, configured options code = some data → data ≠ [] → ∃ o ∈ opts, o.type = code ∧ o.data = data
  nodup : (opts.map DHCPOption.type).Nodup

theorem disjoint_types {A B : List DHCPOption} (h : ∀ a ∈ A, ∀ b ∈ B, a.type ≠ b.type) :
    List.Disjoint (A.map DHCPOption.type) (B.map DHCPOption.type) := by
  intro code hcode hcode'
  obtain ⟨a, ha, rfl⟩ := List.mem_map.1 hcode
  obtain ⟨b, hb, heq⟩ := List.mem_map.1 hcode'
  exact h a ha b hb heq.symm

theorem nodup_types_append {A B : List DHCPOption} (hA : (A.map DHCPOption.type).Nodup)
    (hB : (B.map DHCPOption.type).Nodup) (h : ∀ a ∈ A, ∀ b ∈ B, a.type ≠ b.type) :
    ((A ++ B).map DHCPOption.type).Nodup := by
  rw [List.map_append]
  exact List.nodup_append'.2 ⟨hA, hB, disjoint_types h⟩

/-- The options are of different types if those that are requested are, and no own option is configured with data. -/
theorem nodup_options (sort : SortFunc) (conf : IPv4Config) (options : List DHCPOption)
    (hnodup : ((X ++ Y).map DHCPOption.type).Nodup) (hown : ∀ o ∈ X ++ Y, o.type ∉ implicitCodes)
    (hreq : (impliedCodes conf options).Nodup)
    (hown' : ∀ o ∈ X ++ Y, ∀ data, configured conf.options o.type = some data → data = []) :
    ((X.filter (fun o => configured conf.options o.type ≠ some []) ++ requestedOpts sort conf options ++
      (conf.allOptions sort).2.filter (fun e => e.data ≠ []) ++ Y).map DHCPOption.type).Nodup := by
  have hexplicit : ∀ e ∈ (conf.allOptions sort).2.filter (fun e => e.data ≠ []),
      configured conf.options e.type = some e.data ∧ e.data ≠ [] := fun e he => by
    obtain ⟨he, hdata⟩ := List.mem_filter.1 he
    exact ⟨mem_explicit sort conf he, by simpa using hdata⟩
  have hX := List.nodup_append'.1 (List.map_append ▸ hnodup)
  have hfilter : ∀ o ∈ X.filter (fun o => configured conf.options o.type ≠ some []), o ∈ X := fun o ho =>
    (List.mem_filter.1 ho).1
  have hEown : ∀ o ∈ X ++ Y, ∀ e ∈ (conf.allOptions sort).2.filter (fun e => e.data ≠ []), o.type ≠ e.type :=
    fun o ho e he htype => (hexplicit e he).2 (hown' o ho e.data (htype ▸ (hexplicit e he).1))
  have hRown : ∀ o ∈ X ++ Y, ∀ r ∈ requestedOpts sort conf options, o.type ≠ r.type := fun o ho r hr htype =>
    hown o ho (htype ▸ (mem_requestedOpts hr).1)
  have hRE : ∀ r ∈ requestedOpts sort conf options,
      ∀ e ∈ (conf.allOptions sort).2.filter (fun e => e.data ≠ []), r.type ≠ e.type := fun r hr e he htype => by
    have := (hexplicit e he).1
    rw [← htype, (mem_requestedOpts hr).2] at this
    cases this
  have hsorted := (allOptions_spec sort conf).2.1
  have hEnodup : (((conf.allOptions sort).2.filter fun e => e.data ≠ []).map DHCPOption.type).Nodup :=
    (nodup_types hsorted).sublist (List.filter_sublist.map _)
  have hXnodup : ((X.filter fun o => configured conf.options o.type ≠ some []).map DHCPOption.type).Nodup :=
    hX.1.sublist (List.filter_sublist.map _)
  refine nodup_types_append (nodup_types_append (nodup_types_append hXnodup ?_ ?_) hEnodup ?_) hX.2.1 ?_
  · rwa [requestedOpts_types]
  · exact fun o ho => hRown o (List.mem_append_left _ (hfilter o ho))
  · intro o ho e he
    rcases List.mem_append.1 ho with ho | ho
    · exact hEown o (List.mem_append_left _ (hfilter o ho)) e he
    · exact hRE o ho e he
  · intro o ho y hy
    have hy' := List.mem_append_right X hy
    rcases List.mem_append.1 ho with ho | ho
    · rcases List.mem_append.1 ho with ho | ho
      · exact fun htype => hX.2.2 (List.mem_map_of_mem (hfilter o ho)) (htype ▸ List.mem_map_of_mem hy)
      · exact (hRown y hy' o ho).symm
    · exact (hEown y hy' o ho).symm

/-- A response with options of its own before and after the requested and the configured ones. -/
theorem respects_iff (sort : SortFunc) (conf : IPv4Config) (options : List DHCPOption)
    (hnodup : ((X ++ Y).map DHCPOption.type).Nodup) (hown : ∀ o ∈ X ++ Y, o.type ∉ implicitCodes) :
    Respects conf.options (X.filter (fun o => configured conf.options o.type ≠ some []) ++
        requestedOpts sort conf options ++ (conf.allOptions sort).2.filter (fun e => e.data ≠ []) ++ Y) ↔
      (impliedCodes conf options).Nodup ∧
        (∀ o ∈ X ++ Y, ∀ data, configured conf.options o.type = some data → data = []) ∧
          ∀ o ∈ Y, configured conf.options o.type ≠ some [] := by
  constructor
  · intro h
    have hn := h.nodup
    simp only [List.map_append, List.nodup_append', requestedOpts_types] at hn
    obtain ⟨⟨⟨-, hreq, -⟩, -, hXE⟩, -, hEY⟩ := hn
    refine ⟨hreq, fun o ho data hdata => ?_, fun o ho hnil => ?_⟩
    · -- The configured option is in the response, too.
      by_contra hne
      obtain ⟨e, he, htype, rfl⟩ := exists_explicit sort hdata
      have hmem : e.type ∈ ((conf.allOptions sort).2.filter fun e => e.data ≠ []).map DHCPOption.type :=
        List.mem_map_of_mem (List.mem_filter.2 ⟨he, by simpa using hne⟩)
      rcases List.mem_append.1 ho with ho | ho
      · refine hXE (List.mem_append_left _ ?_) hmem
        rw [htype]
        exact List.mem_map_of_mem (List.mem_filter.2 ⟨ho, by simp [hdata, hne]⟩)
      · exact hEY (List.mem_append_right _ hmem) (htype ▸ List.mem_map_of_mem ho)
    · exact h.removed o.type hnil o (List.mem_append_right _ ho) rfl
  · rintro ⟨hreq, hown', hY⟩
    refine ⟨fun code hnil o ho htype => ?_, fun code data hdata hne => ?_, ?_⟩
    · subst htype
      simp only [List.mem_append, List.mem_filter, decide_eq_true_eq] at ho
      rcases ho with ((ho | ho) | ho) | ho
      · exact ho.2 hnil
      · rw [(mem_requestedOpts ho).2] at hnil
        cases hnil
      · rw [mem_explicit sort conf ho.1, Option.some.injEq] at hnil
        exact ho.2 hnil
      · exact hY o ho hnil
    · obtain ⟨e, he, htype, rfl⟩ := exists_explicit sort hdata
      exact ⟨e, List.mem_append_left _ (List.mem_append_right _ (List.mem_filter.2 ⟨he, by simpa using hne⟩)), htype,
        rfl⟩
    · exact nodup_options sort conf options hnodup hown hreq hown'

/-- The codes of a response's own options. -/
def ownCodes (idOpt : List UInt8) (hostname : GoString) : List UInt8 :=
  [DHCPOpt.messageType, DHCPOpt.serverID] ++ (if idOpt ≠ [] then [DHCPOpt.clientID] else []) ++ [DHCPOpt.leaseTime] ++
    if hostname ≠ "" then [DHCPOpt.hostname] else []

theorem own_types (mt : UInt8) (iface : DhcpInterfaceV4) (a : RespArgs) :
    (appendHostnameOption (iface.appendTimeOptions (newRespOptions mt a.localAddr a.idOpt) a.lease a.now)
      a.lease.hostname).map DHCPOption.type = ownCodes a.idOpt a.lease.hostname := by
  unfold appendHostnameOption DhcpInterfaceV4.appendTimeOptions newRespOptions ownCodes
  by_cases hid : a.idOpt = [] <;> by_cases hhost : a.lease.hostname = "" <;> simp [hid, hhost, newDHCPOption]

theorem ownCodes_nodup (idOpt : List UInt8) (hostname : GoString) :
    (ownCodes idOpt hostname).Nodup ∧ ∀ code ∈ ownCodes idOpt hostname, code ∉ implicitCodes := by
  unfold ownCodes
  split <;> split <;> decide +kernel

theorem appendHostnameOption_eq (opts : List DHCPOption) (hostname : GoString) :
    appendHostnameOption opts hostname = opts ++ appendHostnameOption [] hostname := by
  unfold appendHostnameOption
  split <;> simp

theorem mem_appendHostnameOption {hostname : GoString} :
    o ∈ appendHostnameOption [] hostname ↔
      hostname ≠ "" ∧ o = newDHCPOption DHCPOpt.hostname hostname.bytes := by
  unfold appendHostnameOption
  split <;> simp_all

/-- Nothing is configured with data for a code of the response's own options. -/
def OwnFree (options : List DHCPOption) (a : RespArgs) : Prop :=
  ∀ code ∈ ownCodes a.idOpt a.lease.hostname, ∀ data, configured options code = some data → data = []

theorem ownFree_iff {options own : List DHCPOption} {a : RespArgs}
    (h : own.map DHCPOption.type = ownCodes a.idOpt a.lease.hostname) :
    (∀ o ∈ own, ∀ data, configured options o.type = some data → data = []) ↔ OwnFree options a := by
  unfold OwnFree
  rw [← h, List.forall_mem_map]

/-- A DHCPOFFER respects the configuration where the request repeats no implicit option and the configuration has no
data for an option of the response itself.  A DHCPACK does not remove its hostname. -/
theorem responses_respect (sort : SortFunc) (conf : IPv4Config) (ttl : Duration) (a : RespArgs) :
    (Respects conf.options ((newDHCPInterfaceV4 sort conf ttl).respondOffer a) ↔
      (impliedCodes conf a.options).Nodup ∧ OwnFree conf.options a) ∧
    (Respects conf.options ((newDHCPInterfaceV4 sort conf ttl).respondACK a) ↔
      (impliedCodes conf a.options).Nodup ∧ OwnFree conf.options a ∧
        (a.lease.hostname ≠ "" → configured conf.options DHCPOpt.hostname ≠ some [])) := by
  obtain ⟨hnodup, hown⟩ := ownCodes_nodup a.idOpt a.lease.hostname
  constructor
  · have htypes := own_types msgTypeOffer (newDHCPInterfaceV4 sort conf ttl) a
    unfold DhcpInterfaceV4.respondOffer
    dsimp only
    generalize appendHostnameOption _ _ = own at htypes ⊢
    have hiff := respects_iff (Y := []) sort conf a.options (by rwa [List.append_nil, htypes])
      (fun o ho => hown _ (htypes ▸ List.mem_map_of_mem (by simpa using ho)))
    rw [List.append_nil, List.append_nil, ownFree_iff htypes] at hiff
    rw [appendRequestedOptions_eq, hiff]
    simp
  · have htypes := own_types msgTypeAck (newDHCPInterfaceV4 sort conf ttl) a
    rw [appendHostnameOption_eq] at htypes
    unfold DhcpInterfaceV4.respondACK
    dsimp only
    generalize DhcpInterfaceV4.appendTimeOptions _ _ _ _ = own at htypes ⊢
    rw [appendHostnameOption_eq, appendRequestedOptions_eq, respects_iff sort conf a.options (by rwa [htypes])
      (fun o ho => hown _ (htypes ▸ List.mem_map_of_mem ho)), ownFree_iff htypes]
    refine and_congr_right fun _ => and_congr_right fun _ => ?_
    constructor
    · exact fun h hhost => h _ (mem_appendHostnameOption.2 ⟨hhost, rfl⟩)
    · rintro h o ho
      obtain ⟨hhost, rfl⟩ := mem_appendHostnameOption.1 ho
      exact h hhost

/-- An interface of `192.168.0.1`, whose configuration removes the hostname. -/
def removesHostname : IPv4Config := ⟨.v4 0xc0a80001, .v4 0xffffff00, [⟨DHCPOpt.hostname, 0, []⟩]⟩

/-- A request that asks for the subnet mask twice, and a lease with a hostname. -/
def asksTwice : RespArgs :=
  { options := [newDHCPOption DHCPOpt.paramsRequest [DHCPOpt.subnetMask, DHCPOpt.subnetMask]]
    localAddr := .v4 0xc0a80001
    lease := { (default : Lease) with ip := .v4 0xc0a80064, hostname := "pc", isStatic := true }
    now := 0
    idOpt := [] }

/-- The offer has the subnet mask twice, and the acknowledgement has the hostname. -/
theorem not_respects :
    ¬ Respects removesHostname.options ((newDHCPInterfaceV4 .insertion removesHostname second).respondOffer asksTwice) ∧
      ¬ Respects removesHostname.options ((newDHCPInterfaceV4 .insertion removesHostname second).respondACK asksTwice) := by
  constructor
  · intro h
    have hnodup := h.nodup
    revert hnodup
    decide
  · intro h
    have hremoved := h.removed DHCPOpt.hostname (by decide)
    revert hremoved
    decide

end AdGuardHome.Dhcpsvc
