import AdGuardHome.Filtering.Rewrites
import AdGuardHome.Lib.Chain

/-!
# Rewrites by rules

The rewrite storage asks an engine of filtering rules for the rules of a host, and follows the canonical name of the
first one.  The end of a chain is a name that the engine has nothing for (`resolve_chain`): there the loop goes round
once more, with the rules of the name before it.
-/

namespace AdGuardHome.Rewrite

open AdGuardHome.Lib
open AdGuardHome.Filtering (RRValue typeA typeAAAA typeCNAME)

/-! ## Requests and rules -/

/-- `urlfilter.DNSRequest`, without the data of the client, for which the storage has no rules. -/
structure DNSRequest where
  hostname : String
  dnsType : UInt16

/-- `rules.DNSRewrite` -/
structure DNSRewrite where
  value : RRValue
  newCNAME : String
  rCode : ℕ
  rrType : UInt16
deriving DecidableEq

/-- `rules.NetworkRule`, one of those with a rewrite: the engine gives no others for a rewrite. -/
structure NetworkRule where
  text : String
  dnsRewrite : DNSRewrite
deriving DecidableEq

/-- The rewrite rules that an engine has for a request, `none` for a nil slice. -/
abbrev Engine := DNSRequest → Option (List NetworkRule)

/-! ## The storage -/

/-- Whether a text is that of a rule for a wildcard domain pattern. -/
def isWildcard (pat : String) : Bool := "|*.".toList.isPrefixOf pat.toList

def isSelfMatchingWildcard (host rwAns ruleText : String) : Bool := host = rwAns && isWildcard ruleText

def matchesQType (dnsrr : DNSRewrite) (qt : UInt16) : Bool :=
  if dnsrr.rrType = typeCNAME then true
  else if qt ≠ typeA ∧ qt ≠ typeAAAA then false
  else dnsrr.rrType = qt

def collectDNSRewrites (rewrites : List NetworkRule) (qtyp : UInt16) : List DNSRewrite :=
  (rewrites.map NetworkRule.dnsRewrite).filter (matchesQType · qtyp)

section Storage

variable (engine : Engine)

def rewriteRulesForReq (dReq : DNSRequest) : Option (List NetworkRule) := engine dReq

/-- The loop over the chain, with a bound on its turns; `none` when they do not suffice. -/
def resolveCNAMEChain (dReq : DNSRequest) :
    ℕ → List String → String → Option (List NetworkRule) → Option (Option (List NetworkRule) × Option DNSRewrite)
  | 0, _, _, _ => none
  | turns + 1, cnames, host, rewriteRules =>
    match rewriteRules with
    | some (rule :: _) =>
      let rwAns := rule.dnsRewrite.newCNAME
      if rwAns = "" then some (rewriteRules, none)
      -- An exception: the request is for the name itself.
      else if dReq.hostname = rwAns then some (none, none)
      else if isSelfMatchingWildcard host rwAns rule.text then some (none, some rule.dnsRewrite)
      else if rwAns ∈ cnames then some (none, none)
      else
        resolveCNAMEChain dReq turns (rwAns :: cnames) rwAns
          ((rewriteRulesForReq engine ⟨rwAns, dReq.dnsType⟩).or rewriteRules)
    | _ => some (rewriteRules, none)

/-- `DefaultStorage.MatchRequest`, with a bound on the turns of its loop. -/
def matchRequest (turns : ℕ) (dReq : DNSRequest) : Option (List DNSRewrite) :=
  let rewriteRules := rewriteRulesForReq engine dReq
  if rewriteRules.getD [] = [] then some []
  else
    match resolveCNAMEChain engine dReq turns [] dReq.hostname rewriteRules with
    | none => none
    | some (_, some wildcardRewrite) => some [wildcardRewrite]
    | some (none, none) => some []
    | some (some resolvedRules, none) => some (collectDNSRewrites resolvedRules dReq.dnsType)

/-- The rewrites, for every bound on the turns that is large enough. -/
def Returns (dReq : DNSRequest) (rws : List DNSRewrite) : Prop :=
  ∃ n, ∀ turns, n ≤ turns → matchRequest engine turns dReq = some rws

end Storage

/-! ## One turn -/

/-- The first of the rules, if it has a canonical name. -/
def firstCNAME (rewriteRules : Option (List NetworkRule)) : Option NetworkRule :=
  (rewriteRules.getD []).head?.filter fun rule => rule.dnsRewrite.newCNAME ≠ ""

/-- The name that is followed from a host. -/
def nextName (engine : Engine) (qtype : UInt16) (host : String) : Option String :=
  (firstCNAME (engine ⟨host, qtype⟩)).map fun rule => rule.dnsRewrite.newCNAME

variable {engine : Engine} {dReq : DNSRequest} {rewriteRules : Option (List NetworkRule)} {rule : NetworkRule}
  {cnames names : List String} {host last : String} {turns : ℕ}

theorem firstCNAME_eq_some (h : firstCNAME rewriteRules = some rule) :
    (∃ rest, rewriteRules = some (rule :: rest)) ∧ rule.dnsRewrite.newCNAME ≠ "" := by
  obtain ⟨hhead, hname⟩ := Option.filter_eq_some_iff.1 h
  refine ⟨?_, by simpa using hname⟩
  rcases rewriteRules with _ | _ | ⟨first, rest⟩
  · cases hhead
  · cases hhead
  · cases hhead
    exact ⟨rest, rfl⟩

theorem resolve_end (h : firstCNAME rewriteRules = none) :
    resolveCNAMEChain engine dReq (turns + 1) cnames host rewriteRules = some (rewriteRules, none) := by
  rcases rewriteRules with _ | _ | ⟨rule, rest⟩
  · rfl
  · rfl
  · have hname : rule.dnsRewrite.newCNAME = "" := by simpa [firstCNAME] using h
    simp [resolveCNAMEChain, hname]

theorem resolve_turn (h : firstCNAME rewriteRules = some rule) :
    resolveCNAMEChain engine dReq (turns + 1) cnames host rewriteRules =
      if dReq.hostname = rule.dnsRewrite.newCNAME then some (none, none)
      else if isSelfMatchingWildcard host rule.dnsRewrite.newCNAME rule.text then some (none, some rule.dnsRewrite)
      else if rule.dnsRewrite.newCNAME ∈ cnames then some (none, none)
      else
        resolveCNAMEChain engine dReq turns (rule.dnsRewrite.newCNAME :: cnames) rule.dnsRewrite.newCNAME
          ((engine ⟨rule.dnsRewrite.newCNAME, dReq.dnsType⟩).or rewriteRules) := by
  obtain ⟨⟨rest, rfl⟩, hname⟩ := firstCNAME_eq_some h
  simp [resolveCNAMEChain, hname, rewriteRulesForReq]

/-- A turn to a name that is new. -/
theorem resolve_new (h : firstCNAME rewriteRules = some rule) (horig : dReq.hostname ≠ rule.dnsRewrite.newCNAME)
    (hhost : host ≠ rule.dnsRewrite.newCNAME) (hnew : rule.dnsRewrite.newCNAME ∉ cnames) :
    resolveCNAMEChain engine dReq (turns + 1) cnames host rewriteRules =
      resolveCNAMEChain engine dReq turns (rule.dnsRewrite.newCNAME :: cnames) rule.dnsRewrite.newCNAME
        ((engine ⟨rule.dnsRewrite.newCNAME, dReq.dnsType⟩).or rewriteRules) := by
  have hself : ¬ isSelfMatchingWildcard host rule.dnsRewrite.newCNAME rule.text = true := by
    simp [isSelfMatchingWildcard, hhost]
  rw [resolve_turn h, if_neg horig, if_neg hself, if_neg hnew]

/-- The turn at the end of a chain, with the rules of the name before it. -/
theorem resolve_last (h : firstCNAME rewriteRules = some rule) (horig : dReq.hostname ≠ rule.dnsRewrite.newCNAME)
    (hmem : rule.dnsRewrite.newCNAME ∈ cnames) :
    resolveCNAMEChain engine dReq (turns + 1) cnames rule.dnsRewrite.newCNAME rewriteRules =
      if isWildcard rule.text then some (none, some rule.dnsRewrite) else some (none, none) := by
  simp [resolve_turn h, horig, hmem, isSelfMatchingWildcard]

theorem resolve_mono {out : Option (List NetworkRule) × Option DNSRewrite}
    (h : resolveCNAMEChain engine dReq turns cnames host rewriteRules = some out) :
    resolveCNAMEChain engine dReq (turns + 1) cnames host rewriteRules = some out := by
  induction turns generalizing cnames host rewriteRules with
  | zero => cases h
  | succ turns ih =>
    cases hfirst : firstCNAME rewriteRules with
    | none =>
      rw [resolve_end hfirst] at h ⊢
      exact h
    | some rule =>
      rw [resolve_turn hfirst] at h ⊢
      split at h
      case isTrue horig => rw [if_pos horig, h]
      case isFalse horig =>
        rw [if_neg horig]
        split at h
        case isTrue hself => rw [if_pos hself, h]
        case isFalse hself =>
          rw [if_neg hself]
          split at h
          case isTrue hmem => rw [if_pos hmem, h]
          case isFalse hmem =>
            rw [if_neg hmem]
            exact ih h

/-! ## Along a chain -/

theorem nextName_eq_some {qtype : UInt16} {next : String} (h : nextName engine qtype host = some next) :
    ∃ rule, firstCNAME (engine ⟨host, qtype⟩) = some rule ∧ rule.dnsRewrite.newCNAME = next :=
  Option.map_eq_some_iff.1 h

/-- A name that is followed has rules of its own, so that those before it are given up. -/
theorem or_of_nextName {next : String} (h : nextName engine dReq.dnsType host = some next) :
    (engine ⟨host, dReq.dnsType⟩).or rewriteRules = engine ⟨host, dReq.dnsType⟩ := by
  obtain ⟨rule, hfirst, -⟩ := nextName_eq_some h
  obtain ⟨⟨rest, hrules⟩, -⟩ := firstCNAME_eq_some hfirst
  rw [hrules, Option.some_or]

/-- The loop at a chain of names that are new. -/
theorem resolve_follows (hfollows : Follows (nextName engine dReq.dnsType) host (names ++ [last]))
    (hnodup : (host :: (names ++ [last])).Nodup) (horig : dReq.hostname ∉ names ++ [last])
    (hcnames : ∀ c ∈ cnames, c ∉ names ++ [last]) :
    ∃ rule, firstCNAME (engine ⟨names.getLastD host, dReq.dnsType⟩) = some rule ∧ rule.dnsRewrite.newCNAME = last ∧
      ∃ visited, last ∈ visited ∧ ∀ turns,
        resolveCNAMEChain engine dReq (names.length + 1 + turns) cnames host (engine ⟨host, dReq.dnsType⟩) =
          resolveCNAMEChain engine dReq turns visited last
            ((engine ⟨last, dReq.dnsType⟩).or (engine ⟨names.getLastD host, dReq.dnsType⟩)) := by
  induction names generalizing host cnames with
  | nil =>
    obtain ⟨rule, hfirst, rfl⟩ := nextName_eq_some hfollows.1
    refine ⟨rule, hfirst, rfl, rule.dnsRewrite.newCNAME :: cnames, List.mem_cons_self, fun turns => ?_⟩
    have hhost : host ≠ rule.dnsRewrite.newCNAME := fun h => (List.nodup_cons.1 hnodup).1 (by simp [h])
    rw [List.length_nil, show 0 + 1 + turns = turns + 1 by omega]
    exact resolve_new hfirst (fun h => horig (by simp [h])) hhost fun h => hcnames _ h (by simp)
  | cons b bs ih =>
    obtain ⟨hnext, hrest⟩ := hfollows
    obtain ⟨hhost, hnodup⟩ := List.nodup_cons.1 hnodup
    have hcnames' : ∀ c ∈ b :: cnames, c ∉ bs ++ [last] :=
      List.forall_mem_cons.2 ⟨(List.nodup_cons.1 hnodup).1, fun c hc h => hcnames c hc (List.mem_cons_of_mem _ h)⟩
    obtain ⟨rule, hfirst, hlast, visited, hmem, hturns⟩ :=
      ih hrest hnodup (fun h => horig (List.mem_cons_of_mem _ h)) hcnames'
    rw [List.getLastD_cons]
    refine ⟨rule, hfirst, hlast, visited, hmem, fun turns => ?_⟩
    -- The next name is followed in its turn.
    obtain ⟨c, hc⟩ : ∃ c, nextName engine dReq.dnsType b = some c := by
      cases bs with
      | nil => exact ⟨last, hrest.1⟩
      | cons c cs => exact ⟨c, hrest.1⟩
    obtain ⟨rule', hfirst', rfl⟩ := nextName_eq_some hnext
    rw [← hturns turns, List.length_cons, show bs.length + 1 + 1 + turns = (bs.length + 1 + turns) + 1 by omega,
      resolve_new hfirst' (fun h => horig (by simp [h])) (fun h => hhost (by simp [h]))
        (fun h => hcnames _ h (by simp)), or_of_nextName hc]

end AdGuardHome.Rewrite
