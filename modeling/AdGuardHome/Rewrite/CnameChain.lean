import AdGuardHome.Rewrite.Storage

/-!
# Chains of canonical names in the rule engine

A request ends unless its host starts an endless chain (`terminates_iff`).  At a name that the engine has nothing for,
the rules of the name before it are looked at again, with a canonical name that has been visited: this is taken for a
loop, unless the rule is a wildcard (`chains_follow_iff`).
-/

namespace AdGuardHome.Rewrite

open AdGuardHome.Lib
open AdGuardHome.Filtering (RRValue typeA typeAAAA typeCNAME)

variable {engine : Engine} {dReq : DNSRequest} {rule : NetworkRule} {names : List String} {last : String} {turns : ℕ}

/-! ## The results of the loop -/

/-- What `MatchRequest` makes of the result of the loop. -/
def outcome (dReq : DNSRequest) : Option (List NetworkRule) × Option DNSRewrite → List DNSRewrite
  | (_, some wildcardRewrite) => [wildcardRewrite]
  | (none, none) => []
  | (some resolvedRules, none) => collectDNSRewrites resolvedRules dReq.dnsType

theorem matchRequest_eq (h : (engine dReq).getD [] ≠ []) :
    matchRequest engine turns dReq =
      (resolveCNAMEChain engine dReq turns [] dReq.hostname (engine dReq)).map (outcome dReq) := by
  unfold matchRequest rewriteRulesForReq
  dsimp only
  rw [if_neg h]
  rcases resolveCNAMEChain engine dReq turns [] dReq.hostname (engine dReq) with _ | ⟨_ | rules, _ | rewrite⟩ <;> rfl

theorem rules_ne_nil_of_firstCNAME (h : firstCNAME (engine dReq) = some rule) : (engine dReq).getD [] ≠ [] := by
  obtain ⟨⟨rest, hrules⟩, -⟩ := firstCNAME_eq_some h
  simp [hrules]

theorem returns_of_resolve {n : ℕ} {out : Option (List NetworkRule) × Option DNSRewrite}
    (hrules : (engine dReq).getD [] ≠ [])
    (h : resolveCNAMEChain engine dReq n [] dReq.hostname (engine dReq) = some out) :
    Returns engine dReq (outcome dReq out) := by
  refine ⟨n, fun turns hle => ?_⟩
  have hturns : resolveCNAMEChain engine dReq turns [] dReq.hostname (engine dReq) = some out := by
    induction hle with
    | refl => exact h
    | step _ ih => exact resolve_mono ih
  rw [matchRequest_eq hrules, hturns, Option.map_some]

theorem Returns.unique {rws rws' : List DNSRewrite} (h : Returns engine dReq rws) (h' : Returns engine dReq rws') :
    rws = rws' := by
  obtain ⟨n, hn⟩ := h
  obtain ⟨n', hn'⟩ := h'
  exact Option.some.inj ((hn (max n n') (le_max_left n n')).symm.trans (hn' (max n n') (le_max_right n n')))

/-! ## Requests end -/

/-- A loop that does not end has followed a name in each turn. -/
theorem follows_of_resolve_eq_none {cnames : List String} {host : String}
    (hhost : dReq.hostname = host ∨ host ∈ cnames)
    (h : resolveCNAMEChain engine dReq turns cnames host (engine ⟨host, dReq.dnsType⟩) = none) :
    ∃ bs : List String, bs.length = turns ∧ Follows (nextName engine dReq.dnsType) host bs ∧ bs.Nodup ∧
      ∀ b ∈ bs, dReq.hostname ≠ b ∧ b ∉ cnames := by
  induction turns generalizing cnames host with
  | zero => exact ⟨[], rfl, trivial, List.nodup_nil, by simp⟩
  | succ turns ih =>
    cases hfirst : firstCNAME (engine ⟨host, dReq.dnsType⟩) with
    | none =>
      rw [resolve_end hfirst] at h
      cases h
    | some rule =>
      rw [resolve_turn hfirst] at h
      split at h
      case isTrue => cases h
      case isFalse horig =>
        split at h
        case isTrue => cases h
        case isFalse =>
          split at h
          case isTrue => cases h
          case isFalse hnew =>
            have hnext : nextName engine dReq.dnsType host = some rule.dnsRewrite.newCNAME := by
              rw [nextName, hfirst, Option.map_some]
            cases hrules : engine ⟨rule.dnsRewrite.newCNAME, dReq.dnsType⟩ with
            | none =>
              -- The next turn is the last one.
              rw [hrules, Option.none_or] at h
              cases turns with
              | zero => exact ⟨[rule.dnsRewrite.newCNAME], rfl, ⟨hnext, trivial⟩, by simp, by simp [horig, hnew]⟩
              | succ turns =>
                rw [resolve_last hfirst horig List.mem_cons_self] at h
                split at h <;> cases h
            | some rules =>
              rw [hrules, Option.some_or, ← hrules] at h
              obtain ⟨bs, hlength, hfollows, hnodup, hbs⟩ := ih (.inr List.mem_cons_self) h
              refine ⟨rule.dnsRewrite.newCNAME :: bs, by rw [List.length_cons, hlength], ⟨hnext, hfollows⟩,
                List.nodup_cons.2 ⟨fun hmem => (hbs _ hmem).2 List.mem_cons_self, hnodup⟩,
                List.forall_mem_cons.2 ⟨⟨horig, hnew⟩, fun b hb => ⟨(hbs b hb).1, fun hmem => ?_⟩⟩⟩
              exact (hbs b hb).2 (List.mem_cons_of_mem _ hmem)

/-- The loop at a chain that visits no name twice, from the host of the request on. -/
theorem resolve_chain (hfollows : Follows (nextName engine dReq.dnsType) dReq.hostname (names ++ [last]))
    (hnodup : (dReq.hostname :: (names ++ [last])).Nodup) :
    ∃ rule, firstCNAME (engine ⟨names.getLastD dReq.hostname, dReq.dnsType⟩) = some rule ∧
      rule.dnsRewrite.newCNAME = last ∧ ∃ visited, last ∈ visited ∧ ∀ turns,
        resolveCNAMEChain engine dReq (names.length + 1 + turns) [] dReq.hostname (engine dReq) =
          resolveCNAMEChain engine dReq turns visited last
            ((engine ⟨last, dReq.dnsType⟩).or (engine ⟨names.getLastD dReq.hostname, dReq.dnsType⟩)) :=
  resolve_follows hfollows hnodup (List.nodup_cons.1 hnodup).1 (by simp)

theorem rules_ne_nil_of_follows
    (hfollows : Follows (nextName engine dReq.dnsType) dReq.hostname (names ++ [last])) :
    (engine dReq).getD [] ≠ [] := by
  have hfirst : ∃ next, nextName engine dReq.dnsType dReq.hostname = some next := by
    cases names with
    | nil => exact ⟨_, hfollows.1⟩
    | cons b bs => exact ⟨_, hfollows.1⟩
  obtain ⟨next, hnext⟩ := hfirst
  obtain ⟨rule, hrule, -⟩ := nextName_eq_some hnext
  exact rules_ne_nil_of_firstCNAME hrule

theorem terminates_iff :
    (∃ rws, Returns engine dReq rws) ↔ ¬ Endless (nextName engine dReq.dnsType) dReq.hostname := by
  constructor
  · rintro ⟨rws, n, hn⟩ hendless
    -- With a chain that is longer than the bound, the bound does not suffice.
    obtain ⟨bs, hlength, hfollows, hnodup⟩ := hendless (n + 1)
    obtain ⟨names, last, rfl⟩ : ∃ names last, bs = names ++ [last] := by
      rcases List.eq_nil_or_concat bs with rfl | ⟨names, last, rfl⟩
      · simp at hlength
      · exact ⟨names, last, by simp⟩
    obtain ⟨rule, -, -, visited, -, hturns⟩ := resolve_chain hfollows hnodup
    have hbound := hn (names.length + 1 + 0) (by simp at hlength; omega)
    rw [matchRequest_eq (rules_ne_nil_of_follows hfollows), hturns 0] at hbound
    cases hbound
  · intro hends
    by_cases hrules : (engine dReq).getD [] = []
    · exact ⟨[], 0, fun turns _ => by simp [matchRequest, rewriteRulesForReq, hrules]⟩
    · by_contra hnot
      apply hends
      intro n
      cases hresolve : resolveCNAMEChain engine dReq n [] dReq.hostname (engine dReq) with
      | some out => exact absurd ⟨_, returns_of_resolve hrules hresolve⟩ hnot
      | none =>
        obtain ⟨bs, hlength, hfollows, hnodup, hbs⟩ := follows_of_resolve_eq_none (.inl rfl) hresolve
        exact ⟨bs, hlength, hfollows, List.nodup_cons.2 ⟨fun hmem => (hbs _ hmem).1 rfl, hnodup⟩⟩

/-! ## The end of a chain -/

/-- At a name without rules. -/
theorem returns_unruled (hfollows : Follows (nextName engine dReq.dnsType) dReq.hostname (names ++ [last]))
    (hnodup : (dReq.hostname :: (names ++ [last])).Nodup) (hlast : (engine ⟨last, dReq.dnsType⟩).getD [] = []) :
    ∃ rule, firstCNAME (engine ⟨names.getLastD dReq.hostname, dReq.dnsType⟩) = some rule ∧
      rule.dnsRewrite.newCNAME = last ∧
      Returns engine dReq
        (if engine ⟨last, dReq.dnsType⟩ = none ∧ isWildcard rule.text then [rule.dnsRewrite] else []) := by
  obtain ⟨rule, hfirst, rfl, visited, hmem, hturns⟩ := resolve_chain hfollows hnodup
  refine ⟨rule, hfirst, rfl, ?_⟩
  have hrules := rules_ne_nil_of_follows hfollows
  have horig : dReq.hostname ≠ rule.dnsRewrite.newCNAME := fun h => (List.nodup_cons.1 hnodup).1 (by simp [h])
  have hone := hturns 1
  cases hengine : engine ⟨rule.dnsRewrite.newCNAME, dReq.dnsType⟩ with
  | none =>
    rw [hengine, Option.none_or, resolve_last hfirst horig hmem] at hone
    by_cases hwild : isWildcard rule.text = true
    · rw [if_pos hwild] at hone
      rw [if_pos ⟨rfl, hwild⟩]
      exact returns_of_resolve hrules hone
    · rw [if_neg hwild] at hone
      rw [if_neg fun h => hwild h.2]
      exact returns_of_resolve hrules hone
  | some rules =>
    rw [hengine, Option.getD_some] at hlast
    subst hlast
    have hfirst' : firstCNAME (some []) = none := rfl
    rw [hengine, Option.some_or, resolve_end hfirst'] at hone
    rw [if_neg (by simp)]
    exact returns_of_resolve hrules hone

/-- At a name whose first rule has no canonical name. -/
theorem returns_ruled {rules : List NetworkRule}
    (hfollows : Follows (nextName engine dReq.dnsType) dReq.hostname names) (hnodup : (dReq.hostname :: names).Nodup)
    (hrules : engine ⟨names.getLastD dReq.hostname, dReq.dnsType⟩ = some rules) (hne : rules ≠ [])
    (hfirst : firstCNAME (some rules) = none) :
    Returns engine dReq (collectDNSRewrites rules dReq.dnsType) := by
  rcases List.eq_nil_or_concat names with rfl | ⟨names, last, rfl⟩
  · have hengine : engine dReq = some rules := hrules
    have hone : resolveCNAMEChain engine dReq 1 [] dReq.hostname (engine dReq) = some (some rules, none) := by
      rw [hengine]
      exact resolve_end hfirst
    exact returns_of_resolve (by simpa [hengine] using hne) hone
  · rw [List.concat_eq_append] at hfollows hnodup hrules
    rw [List.getLastD_eq_getLast?, List.getLast?_concat, Option.getD_some] at hrules
    obtain ⟨rule, -, -, visited, -, hturns⟩ := resolve_chain hfollows hnodup
    have hone := hturns 1
    rw [hrules, Option.some_or, resolve_end hfirst] at hone
    exact returns_of_resolve (rules_ne_nil_of_follows hfollows) hone

/-- A list of rules for addresses: the first of them has no canonical name, and none is of the type of one. -/
def AddressRules (rules : List NetworkRule) : Prop :=
  rules ≠ [] ∧ firstCNAME (some rules) = none ∧ ∀ rule ∈ rules, rule.dnsRewrite.rrType ≠ typeCNAME

/-- The rewrites to addresses of a type. -/
def addressRewrites (qtype : UInt16) (rules : List NetworkRule) : List DNSRewrite :=
  (rules.map NetworkRule.dnsRewrite).filter fun rw => rw.rrType = qtype ∧ (qtype = typeA ∨ qtype = typeAAAA)

theorem collectDNSRewrites_eq {qtype : UInt16} {rules : List NetworkRule} (h : AddressRules rules) :
    collectDNSRewrites rules qtype = addressRewrites qtype rules := by
  unfold collectDNSRewrites addressRewrites
  refine List.filter_congr fun rw hrw => ?_
  obtain ⟨rule, hmem, rfl⟩ := List.mem_map.1 hrw
  simp only [matchesQType, if_neg (h.2.2 rule hmem)]
  by_cases hA : qtype = typeA
  · simp [hA]
  · by_cases hAAAA : qtype = typeAAAA
    · simp [hAAAA, typeA, typeAAAA]
    · simp [hA, hAAAA]

/-! ## Chains are followed -/

/-- The result for a chain that ends at a name without rules is the canonical name. -/
def EndsInCNAME (engine : Engine) (dReq : DNSRequest) : Prop :=
  ∀ names last, Follows (nextName engine dReq.dnsType) dReq.hostname (names ++ [last]) →
    (dReq.hostname :: (names ++ [last])).Nodup → (engine ⟨last, dReq.dnsType⟩).getD [] = [] →
      ∃ rw rest, Returns engine dReq (rw :: rest) ∧ rw.newCNAME = last

/-- The result for a chain that ends at a name with addresses is those of the type of the question. -/
def EndsInAddresses (engine : Engine) (dReq : DNSRequest) : Prop :=
  ∀ names rules, Follows (nextName engine dReq.dnsType) dReq.hostname names → (dReq.hostname :: names).Nodup →
    engine ⟨names.getLastD dReq.hostname, dReq.dnsType⟩ = some rules → AddressRules rules →
      Returns engine dReq (addressRewrites dReq.dnsType rules)

/-- Requests end, and give what is at the end of the chain from their host. -/
def ChainsFollowed (engine : Engine) (dReq : DNSRequest) : Prop :=
  (∃ rws, Returns engine dReq rws) ∧ EndsInCNAME engine dReq ∧ EndsInAddresses engine dReq

/-- Where a chain ends at a name without rules, the engine gives nil for it, and the rule that leads there is one for
a wildcard. -/
def LastIsWildcard (engine : Engine) (dReq : DNSRequest) : Prop :=
  ∀ names last, Follows (nextName engine dReq.dnsType) dReq.hostname (names ++ [last]) →
    (dReq.hostname :: (names ++ [last])).Nodup → (engine ⟨last, dReq.dnsType⟩).getD [] = [] →
      engine ⟨last, dReq.dnsType⟩ = none ∧
        ∃ rule, firstCNAME (engine ⟨names.getLastD dReq.hostname, dReq.dnsType⟩) = some rule ∧
          isWildcard rule.text = true

theorem endsInCNAME_iff : EndsInCNAME engine dReq ↔ LastIsWildcard engine dReq := by
  constructor
  · intro h names last hfollows hnodup hlast
    obtain ⟨rw, rest, hreturns, -⟩ := h names last hfollows hnodup hlast
    obtain ⟨rule, hfirst, -, hactual⟩ := returns_unruled hfollows hnodup hlast
    have heq := hreturns.unique hactual
    by_cases hwild : engine ⟨last, dReq.dnsType⟩ = none ∧ isWildcard rule.text = true
    · exact ⟨hwild.1, rule, hfirst, hwild.2⟩
    · rw [if_neg hwild] at heq
      cases heq
  · intro h names last hfollows hnodup hlast
    obtain ⟨hnone, rule, hfirst, hwild⟩ := h names last hfollows hnodup hlast
    obtain ⟨rule', hfirst', rfl, hactual⟩ := returns_unruled hfollows hnodup hlast
    cases hfirst.symm.trans hfirst'
    rw [if_pos ⟨hnone, hwild⟩] at hactual
    exact ⟨rule.dnsRewrite, [], hactual, rfl⟩

theorem endsInAddresses : EndsInAddresses engine dReq := by
  intro names rules hfollows hnodup hrules haddress
  rw [← collectDNSRewrites_eq haddress]
  exact returns_ruled hfollows hnodup hrules haddress.1 haddress.2.1

/-- A request ends wherever the rules have finitely many canonical names.  A chain is followed as it should be exactly
if it is not endless, and no rule but one for a wildcard leads to a name without rules. -/
theorem chains_follow_iff (engine : Engine) (dReq : DNSRequest) :
    (∀ values : List String, (∀ a b, nextName engine dReq.dnsType a = some b → b ∈ values) →
      ∃ rws, Returns engine dReq rws) ∧
    EndsInAddresses engine dReq ∧
    (ChainsFollowed engine dReq ↔
      ¬ Endless (nextName engine dReq.dnsType) dReq.hostname ∧ LastIsWildcard engine dReq) := by
  refine ⟨fun values hvalues => terminates_iff.2 (not_endless_of_values hvalues _), endsInAddresses, ?_⟩
  rw [ChainsFollowed, terminates_iff, endsInCNAME_iff]
  exact and_congr_right fun _ => and_iff_left endsInAddresses

/-- The rule of the rewrite of `a` to `b`. -/
def plainRule : NetworkRule := ⟨"|a^$dnsrewrite=NOERROR;CNAME;b", ⟨.nil, "b", 0, 0⟩⟩

/-- An engine with this rule only. -/
def plainEngine : Engine := fun dReq => if dReq.hostname = "a" then some [plainRule] else none

/-- A plain rewrite to a name without rules gives nothing. -/
theorem plain_not_followed : ¬ ChainsFollowed plainEngine ⟨"a", typeA⟩ := by
  rintro ⟨-, hends, -⟩
  obtain ⟨rw, rest, ⟨n, hn⟩, -⟩ := hends [] "b" (by decide) (by decide) rfl
  have hempty : matchRequest plainEngine (n + 2) ⟨"a", typeA⟩ = some [] := rfl
  cases (hn (n + 2) (by omega)).symm.trans hempty

end AdGuardHome.Rewrite
