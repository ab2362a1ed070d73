import AdGuardHome.Lib.GoMap
import AdGuardHome.Rulelist.Parser

/-!
# WHOIS responses (`internal/whois/whois.go`)

The lines of a response are folded into a map of few keys, where four keys of lines share one.  The organisation in hand
after some of the lines is the last value of an organisation, trimmed, or the first description or name of a network, as
it is; the latter is not cut to the maximum length (`whoisParse_iff`).
-/

namespace AdGuardHome.Whois

open AdGuardHome.Lib AdGuardHome.Rulelist

abbrev Bytes := List UInt8

def text (s : String) : Bytes := utf8 s.toList

/-- `trimValue`, `max` is greater than 3. -/
def trimValue (s : Bytes) (max : ℕ) : Bytes := if s.length ≤ max then s else s.take (max - 3) ++ text "..."

def isWHOISComment (data : Bytes) : Bool :=
  match data with
  | [] => true
  | b :: _ => b = 35 || b = 37

/-- `bytes.Cut` at the colon. -/
def cut (l : Bytes) : Option (Bytes × Bytes) :=
  match l.drop (l.takeWhile (· ≠ 58)).length with
  | [] => none
  | _ :: after => some (l.takeWhile (· ≠ 58), after)

section Parse

-- `strings.ToLower`
variable (toLower : Bytes → Bytes)

/-- The key and the value of a line, unless it is skipped. -/
def field (l : Bytes) : Option (Bytes × Bytes) :=
  if isWHOISComment l then none
  else
    (cut l).bind fun (before, after) =>
      let val := trimSpace after
      if val = [] then none else some (toLower before, val)

/-- The map and the organisation. -/
abbrev State := GoMap Bytes Bytes × Bytes

/-- What the loop of `whoisParse` does with a key and a value. -/
def assign (maxLen : ℕ) (s : State) (f : Bytes × Bytes) : State :=
  let (info, orgname) := s
  let (key, val) := f
  if key = text "orgname" ∨ key = text "org-name" then
    let val := trimValue val maxLen
    (info.set (text "orgname") val, val)
  else if key = text "city" ∨ key = text "country" then (info.set key (trimValue val maxLen), orgname)
  else if key = text "descr" ∨ key = text "netname" then
    let val := if orgname ≠ [] then orgname else val
    (info.set (text "orgname") val, val)
  else if key = text "whois" then (info.set key val, orgname)
  else if key = text "referralserver" then
    let server := if (text "whois://").isPrefixOf val then val.drop (text "whois://").length else val
    (info.set (text "whois") server, orgname)
  else s

def whoisParse (data : Bytes) (maxLen : ℕ) : GoMap Bytes Bytes :=
  ((data.splitOn 10).foldl (fun s l => (field toLower l).elim s (assign maxLen s)) (.empty, [])).1

/-- The keys and the values of the lines that are not skipped. -/
def fields (data : Bytes) : List (Bytes × Bytes) := (data.splitOn 10).filterMap (field toLower)

end Parse

/-! ## What is expected -/

/-- The values of the fields with one of two keys. -/
def valuesOf (k k' : String) (fs : List (Bytes × Bytes)) : List Bytes :=
  (fs.filter fun f => f.1 = text k ∨ f.1 = text k').map (·.2)

def orgValues (fs : List (Bytes × Bytes)) : List Bytes := valuesOf "orgname" "org-name" fs

def descrValues (fs : List (Bytes × Bytes)) : List Bytes := valuesOf "descr" "netname" fs

/-- The last value of an organisation, or the first description or name of a network, is trimmed. -/
def expectedOrg (maxLen : ℕ) (fs : List (Bytes × Bytes)) : Option Bytes :=
  ((orgValues fs).getLast? <|> (descrValues fs).head?).map (trimValue · maxLen)

/-- The values are bounded, and the organisation is the expected one. -/
structure Trimmed (maxLen : ℕ) (fs : List (Bytes × Bytes)) (info : GoMap Bytes Bytes) : Prop where
  bounded : ∀ k ∈ ["city", "country", "orgname"], ∀ v, info.get (text k) = some v → v.length ≤ maxLen
  org : info.get (text "orgname") = expectedOrg maxLen fs

/-- There is a value of an organisation, or the first description or name of a network is not too long. -/
def Short (maxLen : ℕ) (fs : List (Bytes × Bytes)) : Prop :=
  orgValues fs ≠ [] ∨ ∀ v, (descrValues fs).head? = some v → v.length ≤ maxLen

/-! ## Values -/

theorem length_trimValue {max : ℕ} (h : 3 < max) (s : Bytes) : (trimValue s max).length ≤ max := by
  have hdots : (text "...").length = 3 := by decide
  unfold trimValue
  split
  · assumption
  · rw [List.length_append, List.length_take, hdots]
    omega

theorem trimValue_of_le {max : ℕ} {s : Bytes} (h : s.length ≤ max) : trimValue s max = s := if_pos h

theorem trimValue_ne_nil {s : Bytes} (h : s ≠ []) (max : ℕ) : trimValue s max ≠ [] := by
  have hdots : text "..." ≠ [] := by decide
  unfold trimValue
  split
  · exact h
  · exact fun hnil => hdots (List.append_eq_nil_iff.1 hnil).2

theorem value_ne_nil {toLower : Bytes → Bytes} {l : Bytes} {f : Bytes × Bytes} (h : field toLower l = some f) :
    f.2 ≠ [] := by
  unfold field at h
  split at h
  · cases h
  · obtain ⟨⟨before, after⟩, -, h⟩ := Option.bind_eq_some_iff.1 h
    simp only at h
    split at h
    · cases h
    · cases h
      assumption

theorem valuesOf_concat (k k' : String) (fs : List (Bytes × Bytes)) (f : Bytes × Bytes) :
    valuesOf k k' (fs ++ [f]) = valuesOf k k' fs ++ if f.1 = text k ∨ f.1 = text k' then [f.2] else [] := by
  unfold valuesOf
  rw [List.filter_append, List.map_append]
  congr 1
  by_cases h : f.1 = text k ∨ f.1 = text k'
  · rw [if_pos h, List.filter_cons_of_pos (by simpa using h)]
    rfl
  · rw [if_neg h, List.filter_cons_of_neg (by simpa using h)]
    rfl

theorem valuesOf_ne_nil {k k' : String} {fs : List (Bytes × Bytes)} (h : ∀ f ∈ fs, f.2 ≠ []) :
    ∀ v ∈ valuesOf k k' fs, v ≠ [] := by
  intro v hv
  obtain ⟨f, hf, rfl⟩ := List.mem_map.1 hv
  exact h f (List.mem_filter.1 hf).1

/-! ## The organisation -/

section Loop

variable (maxLen : ℕ) (fs : List (Bytes × Bytes))

/-- The organisation after some fields. -/
def actualOrg : Option Bytes :=
  match (orgValues fs).getLast? with
  | some v => some (trimValue v maxLen)
  | none => (descrValues fs).head?

variable {maxLen fs} {f : Bytes × Bytes}

theorem actualOrg_ne_nil (h : ∀ f ∈ fs, f.2 ≠ []) {v : Bytes} (hv : actualOrg maxLen fs = some v) : v ≠ [] := by
  unfold actualOrg at hv
  cases hlast : (orgValues fs).getLast? with
  | some w =>
    rw [hlast] at hv
    cases hv
    exact trimValue_ne_nil (valuesOf_ne_nil h w (List.mem_of_getLast? hlast)) maxLen
  | none =>
    rw [hlast] at hv
    exact valuesOf_ne_nil h v (List.mem_of_head? hv)

theorem actualOrg_orgname (h : f.1 = text "orgname" ∨ f.1 = text "org-name") :
    actualOrg maxLen (fs ++ [f]) = some (trimValue f.2 maxLen) := by
  have hlast : (orgValues (fs ++ [f])).getLast? = some f.2 := by
    rw [orgValues, valuesOf_concat, if_pos h, List.getLast?_concat]
  rw [actualOrg, hlast]

/-- A description only counts if there is nothing before it. -/
theorem actualOrg_descr (horg : ¬ (f.1 = text "orgname" ∨ f.1 = text "org-name"))
    (h : f.1 = text "descr" ∨ f.1 = text "netname") :
    actualOrg maxLen (fs ++ [f]) = some ((actualOrg maxLen fs).getD f.2) := by
  have horgs : orgValues (fs ++ [f]) = orgValues fs := by
    rw [orgValues, valuesOf_concat, if_neg horg, List.append_nil]
    rfl
  have hdescrs : descrValues (fs ++ [f]) = descrValues fs ++ [f.2] := by
    rw [descrValues, valuesOf_concat, if_pos h]
    rfl
  unfold actualOrg
  rw [horgs, hdescrs]
  cases (orgValues fs).getLast? with
  | some v => rfl
  | none => cases descrValues fs <;> rfl

theorem actualOrg_other (horg : ¬ (f.1 = text "orgname" ∨ f.1 = text "org-name"))
    (hdescr : ¬ (f.1 = text "descr" ∨ f.1 = text "netname")) :
    actualOrg maxLen (fs ++ [f]) = actualOrg maxLen fs := by
  have horgs : orgValues (fs ++ [f]) = orgValues fs := by
    rw [orgValues, valuesOf_concat, if_neg horg, List.append_nil]
    rfl
  have hdescrs : descrValues (fs ++ [f]) = descrValues fs := by
    rw [descrValues, valuesOf_concat, if_neg hdescr, List.append_nil]
    rfl
  unfold actualOrg
  rw [horgs, hdescrs]

/-- What the loop of `whoisParse` keeps. -/
structure Inv (maxLen : ℕ) (fs : List (Bytes × Bytes)) (s : State) : Prop where
  info : s.1.get (text "orgname") = actualOrg maxLen fs
  orgname : s.2 = (actualOrg maxLen fs).getD []
  places : ∀ k ∈ ["city", "country"], ∀ v, s.1.get (text k) = some v → v.length ≤ maxLen

theorem text_city_ne : ∀ k ∈ ["city", "country"], text k ≠ text "orgname" ∧ text k ≠ text "whois" := by decide

theorem inv_assign_orgname {s : State} (hinv : Inv maxLen fs s) {val : Bytes}
    (hval : actualOrg maxLen (fs ++ [f]) = some val) : Inv maxLen (fs ++ [f]) (s.1.set (text "orgname") val, val) where
  info := by rw [hval, GoMap.get_set_self]
  orgname := by rw [hval, Option.getD_some]
  places := by
    intro k hk v hv
    rw [GoMap.get_set_ne _ (text_city_ne k hk).1] at hv
    exact hinv.places k hk v hv

/-- A key that is not that of an organisation is set to a value that is short, if it is a city or a country. -/
theorem inv_assign_other {s : State} (hinv : Inv maxLen fs s)
    (hsame : actualOrg maxLen (fs ++ [f]) = actualOrg maxLen fs) {key val : Bytes} (hkey : text "orgname" ≠ key)
    (hval : ∀ k ∈ ["city", "country"], text k = key → val.length ≤ maxLen) :
    Inv maxLen (fs ++ [f]) (s.1.set key val, s.2) where
  info := by rw [hsame, GoMap.get_set_ne _ hkey, hinv.info]
  orgname := by rw [hsame, hinv.orgname]
  places := by
    intro k hk v hv
    rw [GoMap.get_set] at hv
    split at hv
    · cases hv
      exact hval k hk (by assumption)
    · exact hinv.places k hk v hv

theorem inv_assign (hmax : 3 < maxLen) (hvals : ∀ f ∈ fs, f.2 ≠ []) {s : State} (hinv : Inv maxLen fs s) :
    Inv maxLen (fs ++ [f]) (assign maxLen s f) := by
  obtain ⟨info, orgname⟩ := s
  obtain ⟨key, val⟩ := f
  unfold assign
  simp only
  have hwhoisOrg : text "orgname" ≠ text "whois" := by decide
  have hwhoisPlace : ∀ v : Bytes, ∀ k ∈ ["city", "country"], text k = text "whois" → v.length ≤ maxLen :=
    fun _ k hk heq => absurd heq (text_city_ne k hk).2
  split_ifs with horg hplace hdescr hname hwhois hserver
  · exact inv_assign_orgname hinv (actualOrg_orgname horg)
  · have hnotDescr : ¬ (key = text "descr" ∨ key = text "netname") := by
      rcases hplace with rfl | rfl <;> decide
    refine inv_assign_other hinv (actualOrg_other horg hnotDescr) ?_ fun _ _ _ => length_trimValue hmax val
    rcases hplace with rfl | rfl <;> decide
  · -- There is an organisation already.
    cases hactual : actualOrg maxLen fs with
    | none =>
      have hempty : orgname = (actualOrg maxLen fs).getD [] := hinv.orgname
      rw [hactual] at hempty
      exact absurd hempty hname
    | some v =>
      have hv : orgname = v := hinv.orgname.trans (by rw [hactual]; rfl)
      rw [hv]
      exact inv_assign_orgname hinv ((actualOrg_descr horg hdescr).trans (by rw [hactual]; rfl))
  · have hnone : actualOrg maxLen fs = none := by
      cases hactual : actualOrg maxLen fs with
      | none => rfl
      | some v =>
        have hv : orgname = v := hinv.orgname.trans (by rw [hactual]; rfl)
        rw [hv] at hname
        exact absurd (actualOrg_ne_nil hvals hactual) hname
    exact inv_assign_orgname hinv ((actualOrg_descr horg hdescr).trans (by rw [hnone]; rfl))
  · rw [hwhois]
    exact inv_assign_other hinv (hwhois ▸ actualOrg_other horg hdescr) hwhoisOrg (hwhoisPlace val)
  · exact inv_assign_other hinv (actualOrg_other horg hdescr) hwhoisOrg (hwhoisPlace _)
  · exact inv_assign_other hinv (actualOrg_other horg hdescr) hwhoisOrg (hwhoisPlace val)
  · have hsame : actualOrg maxLen (fs ++ [(key, val)]) = actualOrg maxLen fs := actualOrg_other horg hdescr
    exact ⟨hinv.info.trans hsame.symm, by rw [hsame]; exact hinv.orgname, hinv.places⟩

end Loop

/-! ## Responses -/

/-- By induction on the fields from the last one. -/
theorem inv_foldl {maxLen : ℕ} (hmax : 3 < maxLen) (fs : List (Bytes × Bytes)) :
    (∀ f ∈ fs, f.2 ≠ []) → Inv maxLen fs (fs.foldl (assign maxLen) (.empty, [])) := by
  induction fs using List.reverseRecOn with
  | nil =>
    intro _
    refine ⟨rfl, rfl, fun k _ v hv => ?_⟩
    rw [List.foldl_nil, GoMap.get_empty] at hv
    cases hv
  | append_singleton fs f ih =>
    intro hvals
    have hinit : ∀ f ∈ fs, f.2 ≠ [] := fun g hg => hvals g (List.mem_append_left _ hg)
    rw [List.foldl_append]
    exact inv_assign hmax hinit (ih hinit)

theorem inv_whoisParse (toLower : Bytes → Bytes) (data : Bytes) {maxLen : ℕ} (hmax : 3 < maxLen) :
    ∃ orgname, Inv maxLen (fields toLower data) (whoisParse toLower data maxLen, orgname) := by
  have hvals : ∀ f ∈ fields toLower data, f.2 ≠ [] := by
    intro f hf
    obtain ⟨l, -, hl⟩ := List.mem_filterMap.1 hf
    exact value_ne_nil hl
  have hinv := inv_foldl hmax (fields toLower data) hvals
  refine ⟨((fields toLower data).foldl (assign maxLen) (.empty, [])).2, ?_⟩
  have hfold : whoisParse toLower data maxLen
      = ((fields toLower data).foldl (assign maxLen) (.empty, [])).1 := by
    rw [fields, List.foldl_filterMap, whoisParse]
    congr 2
    funext s l
    cases field toLower l <;> rfl
  rw [hfold]
  exact hinv

/-- The values are trimmed and prefer the organisation exactly if there is an organisation, or the first description or
name of a network is short. -/
theorem whoisParse_iff (toLower : Bytes → Bytes) (data : Bytes) (maxLen : ℕ) (hmax : 3 < maxLen) :
    Trimmed maxLen (fields toLower data) (whoisParse toLower data maxLen) ↔ Short maxLen (fields toLower data) := by
  obtain ⟨orgname, hinv⟩ := inv_whoisParse toLower data hmax
  have hinfo := hinv.info
  unfold actualOrg at hinfo
  unfold Short
  constructor
  · intro htrimmed
    by_cases horgs : orgValues (fields toLower data) = []
    · right
      intro v hv
      rw [horgs, List.getLast?_nil] at hinfo
      exact htrimmed.bounded "orgname" (by decide) v (hinfo.trans hv)
    · exact .inl horgs
  · intro hshort
    have horg : (whoisParse toLower data maxLen).get (text "orgname") = expectedOrg maxLen (fields toLower data) := by
      unfold expectedOrg
      refine hinfo.trans ?_
      cases hlast : (orgValues (fields toLower data)).getLast? with
      | some v => rfl
      | none =>
        cases hhead : (descrValues (fields toLower data)).head? with
        | none => rfl
        | some v =>
          have hv := hshort.resolve_left (not_not.2 (List.getLast?_eq_none_iff.1 hlast)) v hhead
          exact congrArg some (trimValue_of_le hv).symm
    refine ⟨fun k hk v hv => ?_, horg⟩
    by_cases hplace : k ∈ ["city", "country"]
    · exact hinv.places k hplace v hv
    · have hk' : k = "orgname" := by
        simp only [List.mem_cons, List.not_mem_nil, or_false, not_or] at hk hplace
        exact (hk.resolve_left hplace.1).resolve_left hplace.2
      rw [hk', horg] at hv
      obtain ⟨w, -, rfl⟩ := Option.map_eq_some_iff.1 hv
      exact length_trimValue hmax w

/-- The lower case of an ASCII text. -/
def asciiLower (s : Bytes) : Bytes := s.map fun b => if 65 ≤ b ∧ b ≤ 90 then b + 32 else b

theorem whoisParse_iff_sample :
    Trimmed 8 (fields asciiLower (text "descr: A long description\nOrgName: Organisation\nCity: Athens"))
      (whoisParse asciiLower (text "descr: A long description\nOrgName: Organisation\nCity: Athens") 8) :=
  (whoisParse_iff asciiLower (text "descr: A long description\nOrgName: Organisation\nCity: Athens") 8 (by decide)).2
    (.inl (by decide +kernel))

/-- A description that is too long is not trimmed. -/
theorem whoisParse_descr_long :
    (whoisParse asciiLower (text "descr: A long description") 8).get (text "orgname")
      = some (text "A long description") ∧
    (text "A long description").length = 18 ∧
    expectedOrg 8 (fields asciiLower (text "descr: A long description")) = some (text "A lon...") := by
  decide +kernel

end AdGuardHome.Whois
