import AdGuardHome.Ipset.Manager

/-!
# The sets of a host

A configuration that is accepted has a list of sets for every domain of its lines, in the order of the lines.  The sets
that are looked up for a host are those of its longest domain that has any, or those of the root.
-/

namespace AdGuardHome.Ipset

open AdGuardHome.Lib AdGuardHome.Aghnet

/-! ## What is configured -/

/-- The properties of the names of a line. -/
def lineSets (env : IpsetEnv) (currentlyKnown : GoMap String Props) (line place : ℕ) (names : List String) :
    List Props :=
  (names.zipIdx place).filterMap fun (n, k) => (Manager.nameProps env currentlyKnown line k n).toOption

/-- The sets that a line has for a domain. -/
def lineConfigured (env : IpsetEnv) (currentlyKnown : GoMap String Props) (line : ℕ) (confStr domain : String) :
    List Props :=
  match parseIpsetConfigLine env confStr with
  | .error _ => []
  | .ok (hosts, names) =>
    (hosts.filter (· = domain)).flatMap fun _ => lineSets env currentlyKnown line 0 names

/-- The sets that the lines from a number on have for a domain. -/
def configuredFrom (env : IpsetEnv) (currentlyKnown : GoMap String Props) (line : ℕ) (conf : List String)
    (domain : String) : List Props :=
  (conf.zipIdx line).flatMap fun (confStr, i) => lineConfigured env currentlyKnown i confStr domain

def configured (env : IpsetEnv) (conf : List String) (domain : String) : List Props :=
  match env.listAll with
  | .error _ => []
  | .ok all => configuredFrom env (Manager.known all) 0 conf domain

/-- The host is the domain or a subdomain of it. -/
def IsParent (domain host : List Char) : Prop := domain = host ∨ ∃ sub, host = sub ++ '.' :: domain

/-- The sets are those of the longest domain of the host that has any, or those of the root. -/
def Chosen (sets : String → List Props) (host : String) (chosen : List Props) : Prop :=
  (∃ domain : String, IsParent domain.toList host.toList ∧ sets domain ≠ [] ∧ chosen = sets domain ∧
    ∀ d : String, IsParent d.toList host.toList → sets d ≠ [] → d.toList.length ≤ domain.toList.length) ∨
  (∀ d : String, IsParent d.toList host.toList → sets d = []) ∧ chosen = sets ""

namespace Manager

/-! ## Reading the configuration -/

theorem family_nameProps {env : IpsetEnv} {currentlyKnown : GoMap String Props} {line place : ℕ} {n : String}
    {p : Props} (h : nameProps env currentlyKnown line place n = .ok p) :
    p.family = protoIPv4 ∨ p.family = protoIPv6 := by
  have hfamily : ∀ f : ProtoFamily, ¬ (f ≠ protoIPv4 ∧ f ≠ protoIPv6) → f = protoIPv4 ∨ f = protoIPv6 := by
    intro f hf
    by_cases h4 : f = protoIPv4
    · exact .inl h4
    · exact .inr (by_contra fun h6 => hf ⟨h4, h6⟩)
  unfold nameProps at h
  cases hget : currentlyKnown.get n with
  | none =>
    rw [hget] at h
    cases h
  | some q =>
    simp only [hget] at h
    split at h
    · unfold ipsetProps at h
      cases hheader : env.header line place n with
      | error err =>
        rw [hheader] at h
        cases h
      | ok res =>
        rw [hheader] at h
        cases res with
        | none => cases h
        | some res =>
          cases hres : res.family with
          | none =>
            simp only [hres] at h
            cases h
          | some f =>
            simp only [hres] at h
            split at h
            · cases h
            · rename_i hf
              split at hf
              · cases hf
              · rename_i hvalid
                cases hf
                cases h
                exact hfamily f hvalid
    · rename_i hvalid
      cases h
      exact hfamily _ hvalid

/-- What the names of a line give. -/
theorem ipsets_spec {env : IpsetEnv} {currentlyKnown : GoMap String Props} {line : ℕ} (names : List String) :
    ∀ {place : ℕ} {m m' : Manager} {sets : List Props},
      ipsets env currentlyKnown line m place names = .ok (sets, m') →
        sets = lineSets env currentlyKnown line place names ∧ m'.domainToIpsets = m.domainToIpsets ∧
          m'.addedIPs = m.addedIPs ∧ (names ≠ [] → sets ≠ []) ∧
          ∀ p ∈ sets, p.family = protoIPv4 ∨ p.family = protoIPv6 := by
  induction names with
  | nil =>
    intro place m m' sets h
    cases h
    exact ⟨rfl, rfl, rfl, fun hne => absurd rfl hne, fun p hp => absurd hp List.not_mem_nil⟩
  | cons n names ih =>
    intro place m m' sets h
    unfold ipsets at h
    cases hprops : nameProps env currentlyKnown line place n with
    | error err =>
      simp only [hprops] at h
      cases h
    | ok p =>
      simp only [hprops] at h
      cases hrest : ipsets env currentlyKnown line { m with nameToIpset := m.nameToIpset.set n p } (place + 1)
          names with
      | error err =>
        rw [hrest] at h
        cases h
      | ok r =>
        obtain ⟨rest, m₁⟩ := r
        rw [hrest] at h
        cases h
        obtain ⟨hsets, hdomains, hadded, _, hfamilies⟩ := ih hrest
        refine ⟨?_, hdomains, hadded, fun _ => List.cons_ne_nil _ _, ?_⟩
        · rw [hsets, lineSets, lineSets, List.zipIdx_cons, List.filterMap_cons_some (b := p)]
          simp [hprops, Except.toOption]
        · intro q hq
          rcases List.mem_cons.1 hq with rfl | hq
          · exact family_nameProps hprops
          · exact hfamilies q hq

/-- A manager has lists of sets for the domains, none of them empty, and the families of the sets are known. -/
structure Has (m : Manager) (sets : String → List Props) : Prop where
  get : ∀ d, m.domainToIpsets.get d = if sets d = [] then none else some (sets d)
  family : ∀ d, ∀ p ∈ sets d, p.family = protoIPv4 ∨ p.family = protoIPv6

theorem Has.getD {m : Manager} {sets : String → List Props} (h : m.Has sets) (d : String) :
    (m.domainToIpsets.get d).getD [] = sets d := by
  rw [h.get]
  split
  · rename_i hempty
    exact hempty.symm
  · rfl

theorem has_foldl_appendSets {m : Manager} {new : List Props} {sets : String → List Props} (hnew : new ≠ [])
    (hfamily : ∀ p ∈ new, p.family = protoIPv4 ∨ p.family = protoIPv6) (h : m.Has sets) (hosts : List String) :
    (hosts.foldl (appendSets new) m).Has fun d => sets d ++ (hosts.filter (· = d)).flatMap fun _ => new := by
  induction hosts generalizing m sets with
  | nil => simpa using h
  | cons host hosts ih =>
    have hstep : (appendSets new m host).Has fun d => if d = host then sets d ++ new else sets d := by
      constructor
      · intro d
        simp only [appendSets, GoMap.get_set, h.getD]
        by_cases hd : d = host
        · subst hd
          simp [hnew]
        · simpa [hd] using h.get d
      · intro d p hp
        split at hp
        · rcases List.mem_append.1 hp with hp | hp
          · exact h.family d p hp
          · exact hfamily p hp
        · exact h.family d p hp
    have hrest := ih hstep
    rw [List.foldl_cons]
    convert hrest using 2 with d
    by_cases hd : host = d
    · subst hd
      rw [List.filter_cons_of_pos (by simp), List.flatMap_cons, if_pos rfl, List.append_assoc]
    · rw [List.filter_cons_of_neg (by simpa using hd), if_neg (Ne.symm hd)]

theorem addedIPs_foldl_appendSets (new : List Props) (hosts : List String) (m : Manager) :
    (hosts.foldl (appendSets new) m).addedIPs = m.addedIPs := by
  induction hosts generalizing m with
  | nil => rfl
  | cons host hosts ih => exact ih _

/-- A line has at least one name. -/
theorem names_ne_nil {env : IpsetEnv} {confStr : String} {hosts names : List String}
    (h : parseIpsetConfigLine env confStr = .ok (hosts, names)) : names ≠ [] := by
  simp only [parseIpsetConfigLine] at h
  split at h
  · split at h
    · cases h
    · cases h
      rw [ne_eq, List.map_eq_nil_iff, List.map_eq_nil_iff]
      exact List.splitOn_ne_nil _ _
  · cases h

theorem parseLines_spec {env : IpsetEnv} {currentlyKnown : GoMap String Props} (conf : List String) :
    ∀ {i : ℕ} {m m' : Manager} {sets : String → List Props}, m.Has sets →
      parseLines env currentlyKnown i conf m = .ok m' →
        m'.Has (fun d => sets d ++ configuredFrom env currentlyKnown i conf d) ∧ m'.addedIPs = m.addedIPs := by
  induction conf with
  | nil =>
    intro i m m' sets hm h
    cases h
    exact ⟨by simpa [configuredFrom] using hm, rfl⟩
  | cons confStr conf ih =>
    intro i m m' sets hm h
    unfold parseLines at h
    cases hline : parseIpsetConfigLine env confStr with
    | error err =>
      rw [hline] at h
      cases h
    | ok r =>
      obtain ⟨hosts, names⟩ := r
      simp only [hline] at h
      cases hsets : ipsets env currentlyKnown i m 0 names with
      | error err =>
        rw [hsets] at h
        cases h
      | ok r =>
        obtain ⟨new, m₁⟩ := r
        simp only [hsets] at h
        obtain ⟨hnew, hdomains, hadded, hne, hfamily⟩ := ipsets_spec names hsets
        have hm₁ : m₁.Has sets := ⟨fun d => by rw [hdomains, hm.get], hm.family⟩
        have hfold := has_foldl_appendSets (hne (names_ne_nil hline)) hfamily hm₁ hosts
        obtain ⟨hhas, hadded'⟩ := ih hfold h
        refine ⟨?_, by rw [hadded', addedIPs_foldl_appendSets, hadded]⟩
        have hcons : ∀ d, configuredFrom env currentlyKnown i (confStr :: conf) d
            = ((hosts.filter (· = d)).flatMap fun _ => new) ++ configuredFrom env currentlyKnown (i + 1) conf d := by
          intro d
          simp only [configuredFrom, List.zipIdx_cons, List.flatMap_cons, lineConfigured, hline, hnew]
        simpa only [hcons, List.append_assoc] using hhas

/-- A new manager has the configured sets and an empty cache. -/
theorem newManager_spec {env : IpsetEnv} {conf : List String} {m : Manager} (h : newManager env conf = .ok (some m)) :
    m.Has (configured env conf) ∧ m.addedIPs = [] := by
  unfold newManager at h
  split at h
  · cases h
  · split at h
    · split at h <;> cases h
    · unfold parseIpsetConfig at h
      cases hall : env.listAll with
      | error err =>
        rw [hall] at h
        cases h
      | ok all =>
        simp only [hall] at h
        cases hlines : parseLines env (known all) 0 conf empty with
        | error err =>
          rw [hlines] at h
          cases h
        | ok m' =>
          rw [hlines] at h
          cases h
          have hempty : empty.Has fun _ => [] :=
            ⟨fun d => GoMap.get_empty d, fun d p hp => absurd hp List.not_mem_nil⟩
          have hspec := parseLines_spec conf hempty hlines
          have hconf : ∀ d, configured env conf d = configuredFrom env (known all) 0 conf d := by
            intro d
            rw [configured, hall]
          exact ⟨by simpa only [List.nil_append, ← hconf] using hspec.1, hspec.2⟩

end Manager

/-! ## Looking up a host -/

theorem IsParent.length_le {domain host : List Char} (h : IsParent domain host) : domain.length ≤ host.length := by
  rcases h with rfl | ⟨sub, rfl⟩
  · exact le_rfl
  · simp
    omega

theorem isParent_of_no_dot {domain host : List Char} (hdot : '.' ∉ host) (h : IsParent domain host) :
    domain = host := by
  rcases h with rfl | ⟨sub, rfl⟩
  · rfl
  · simp at hdot

/-- The domains of a host are the host and the domains of what follows its first dot. -/
theorem isParent_append_dot {label : List Char} (rest domain : List Char) (hlabel : '.' ∉ label) :
    IsParent domain (label ++ '.' :: rest) ↔ domain = label ++ '.' :: rest ∨ IsParent domain rest := by
  constructor
  · rintro (rfl | ⟨sub, hsub⟩)
    · exact .inl rfl
    · right
      rcases List.append_eq_append_iff.1 hsub with ⟨as, hlabel', hrest⟩ | ⟨bs, hlabel', hrest⟩
      · cases as with
        | nil =>
          cases hrest
          exact .inl rfl
        | cons a as =>
          cases hrest
          exact .inr ⟨as, rfl⟩
      · cases bs with
        | nil =>
          cases hrest
          exact .inl rfl
        | cons b bs =>
          cases hrest
          rw [hlabel'] at hlabel
          simp at hlabel
  · rintro (rfl | rfl | ⟨sub, rfl⟩)
    · exact .inl rfl
    · exact .inr ⟨label, rfl⟩
    · exact .inr ⟨label ++ '.' :: sub, by simp⟩

namespace Manager

/-- What the loop finds. -/
structure Found (m : Manager) (host : List Char) (sets : List Props) (domain : List Char) : Prop where
  parent : IsParent domain host
  get : m.domainToIpsets.get (String.ofList domain) = some sets
  longest : ∀ d, IsParent d host → (m.domainToIpsets.get (String.ofList d)).isSome → d.length ≤ domain.length

theorem lookupLoop_spec (m : Manager) :
    ∀ (fuel : ℕ) (host : List Char), host.length < fuel →
      match m.lookupLoop fuel host with
      | some sets => ∃ domain, m.Found host sets domain
      | none => ∀ d, IsParent d host → m.domainToIpsets.get (String.ofList d) = none := by
  intro fuel
  induction fuel with
  | zero =>
    intro host hlen
    exact absurd hlen (Nat.not_lt_zero _)
  | succ fuel ih =>
    intro host hlen
    unfold lookupLoop
    cases hget : m.domainToIpsets.get (String.ofList host) with
    | some sets => exact ⟨host, .inl rfl, hget, fun d hd _ => hd.length_le⟩
    | none =>
      cases hidx : host.idxOf? '.' with
      | none =>
        simp only
        have hdot : '.' ∉ host := by simpa [List.idxOf?_eq_none_iff] using hidx
        intro d hd
        rw [isParent_of_no_dot hdot hd]
        exact hget
      | some i =>
        simp only
        obtain ⟨hlt, hat, hbefore⟩ := List.idxOf?_eq_some_iff.1 hidx
        have hsplit : host = host.take i ++ '.' :: host.drop (i + 1) := by
          rw [← hat, ← List.drop_eq_getElem_cons hlt, List.take_append_drop]
        have hlabel : '.' ∉ host.take i := by
          intro hmem
          obtain ⟨j, hj, hjdot⟩ := List.mem_take_iff_getElem.1 hmem
          exact hbefore j (by omega) hjdot
        have hparents : ∀ d, IsParent d host ↔ d = host ∨ IsParent d (host.drop (i + 1)) := by
          intro d
          have hiff := isParent_append_dot (host.drop (i + 1)) d hlabel
          rwa [← hsplit] at hiff
        have hrest := ih (host.drop (i + 1)) (by rw [List.length_drop]; omega)
        cases hloop : m.lookupLoop fuel (host.drop (i + 1)) with
        | some sets =>
          rw [hloop] at hrest
          obtain ⟨domain, hparent, hdomain, hlongest⟩ := hrest
          refine ⟨domain, (hparents _).2 (.inr hparent), hdomain, fun d hd hsome => ?_⟩
          rcases (hparents d).1 hd with rfl | hd
          · rw [hget] at hsome
            cases hsome
          · exact hlongest d hd hsome
        | none =>
          rw [hloop] at hrest
          intro d hd
          rcases (hparents d).1 hd with rfl | hd
          · exact hget
          · exact hrest d hd

theorem lookupHost_chosen {m : Manager} {sets : String → List Props} (h : m.Has sets) (host : String) :
    Chosen sets host (m.lookupHost host) := by
  have hspec := m.lookupLoop_spec (host.toList.length + 1) host.toList (Nat.lt_succ_self _)
  have hget : ∀ d : String, m.domainToIpsets.get (String.ofList d.toList)
      = if sets d = [] then none else some (sets d) := by
    intro d
    rw [String.ofList_toList, h.get]
  unfold lookupHost
  cases hloop : m.lookupLoop (host.toList.length + 1) host.toList with
  | some found =>
    rw [hloop] at hspec
    obtain ⟨domain, hparent, hdomain, hlongest⟩ := hspec
    left
    have hdomain' := hget (String.ofList domain)
    rw [String.toList_ofList, hdomain] at hdomain'
    split at hdomain'
    · cases hdomain'
    · rename_i hne
      refine ⟨String.ofList domain, by rwa [String.toList_ofList], hne, Option.some.inj hdomain', fun d hd hsets => ?_⟩
      rw [String.toList_ofList]
      refine hlongest d.toList hd ?_
      rw [hget, if_neg hsets]
      rfl
  | none =>
    rw [hloop] at hspec
    right
    refine ⟨fun d hd => ?_, h.getD ""⟩
    have hnone := hspec d.toList hd
    rw [hget] at hnone
    by_contra hne
    rw [if_neg hne] at hnone
    cases hnone

end Manager

end AdGuardHome.Ipset
