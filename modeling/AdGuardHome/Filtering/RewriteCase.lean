import Mathlib.Data.List.Forall2
import AdGuardHome.Filtering.RewriteChain

/-!
# Letter case in rewrites

Domains are put into lower case, but the answers are not.  Two lists of rewrites that differ in letter case only are
compared along the chains that they give: they part at a canonical name that is spelled differently, and that makes no
difference where no spelling of it is rewritten (`Silent`).
-/

namespace AdGuardHome.Filtering

open AdGuardHome.Lib AdGuardHome.Net

variable {env : RewriteEnv} {es es' : List LegacyRewrite} {e e' : LegacyRewrite} {origHost host a : String}
  {qtype : UInt16} {cnames : List String} {res res' : Result} {turns : ℕ}

/-! ## Entries that differ in letter case -/

/-- An answer that `normalize` takes for a canonical name. -/
def ReadsCNAME (env : RewriteEnv) (answer : String) : Prop :=
  answer ≠ "AAAA" ∧ answer ≠ "A" ∧ parseAddr answer = none ∧ env.validateDomainName answer = none

instance (env : RewriteEnv) (answer : String) : Decidable (ReadsCNAME env answer) := by
  unfold ReadsCNAME
  infer_instance

/-- Entries that are not yet normalised. -/
structure SameButCase (env : RewriteEnv) (e e' : LegacyRewrite) : Prop where
  domain : env.toLower e.domain = env.toLower e'.domain
  answer : e.answer = e'.answer ∨
    ReadsCNAME env e.answer ∧ ReadsCNAME env e'.answer ∧ env.toLower e.answer = env.toLower e'.answer
  ip : e.ip = e'.ip
  enabled : e.enabled = e'.enabled

/-- Normalised entries that differ in the spelling of a canonical name. -/
structure Recased (env : RewriteEnv) (e e' : LegacyRewrite) : Prop where
  domain : e.domain = e'.domain
  answer : e.answer = e'.answer ∨ ReadsCNAME env e'.answer ∧ env.toLower e.answer = env.toLower e'.answer
  ip : e.ip = e'.ip
  type : e.type = e'.type
  enabled : e.enabled = e'.enabled

theorem Recased.matchesHost (h : Recased env e e') (host : String) : e.matchesHost host = e'.matchesHost host := by
  simp only [LegacyRewrite.matchesHost, h.domain]

theorem Recased.refl (e : LegacyRewrite) : Recased env e e := ⟨rfl, .inl rfl, rfl, rfl, rfl⟩

theorem normalize_readsCNAME (h : ReadsCNAME env e.answer) :
    e.normalize env = .ok { e with domain := env.toLower e.domain, type := typeCNAME } := by
  obtain ⟨haaaa, ha, hparse, hvalid⟩ := h
  simp [LegacyRewrite.normalize, haaaa, ha, hparse, hvalid]

/-- What is made of an entry depends on its domain in lower case. -/
theorem normalize_congr (hdomain : env.toLower e.domain = env.toLower e'.domain) (hanswer : e.answer = e'.answer)
    (hip : e.ip = e'.ip) (henabled : e.enabled = e'.enabled) : e.normalize env = e'.normalize env := by
  obtain ⟨d, a, ip, t, en⟩ := e
  obtain ⟨d', a', ip', t', en'⟩ := e'
  cases hanswer
  cases hip
  cases henabled
  simp only [LegacyRewrite.normalize, show env.toLower d = env.toLower d' from hdomain]

theorem SameButCase.recased {n n' : LegacyRewrite} (h : SameButCase env e e') (hn : e.normalize env = .ok n)
    (hn' : e'.normalize env = .ok n') : Recased env n n' := by
  rcases h.answer with heq | ⟨hreads, hreads', hlower⟩
  · rw [normalize_congr h.domain heq h.ip h.enabled, hn'] at hn
    cases hn
    exact .refl n
  · rw [normalize_readsCNAME hreads] at hn
    rw [normalize_readsCNAME hreads'] at hn'
    cases hn
    cases hn'
    exact ⟨h.domain, .inr ⟨hreads', hlower⟩, h.ip, rfl, h.enabled⟩

/-- The entries are normalised one by one. -/
theorem prepareRewrites_ok {l : List LegacyRewrite} {i : ℕ} :
    prepareRewrites env i l = .ok es ↔ List.Forall₂ (fun r e => r.normalize env = .ok e) l es := by
  induction l generalizing i es with
  | nil => simp [prepareRewrites, eq_comm]
  | cons r l ih =>
    rw [List.forall₂_cons_left_iff]
    unfold prepareRewrites
    cases hr : r.normalize env with
    | error err => simp
    | ok n =>
      cases hl : prepareRewrites env (i + 1) l with
      | error err =>
        constructor
        · intro h
          cases h
        · rintro ⟨n', ns', -, hrest, -⟩
          rw [ih.2 hrest] at hl
          cases hl
      | ok ns =>
        constructor
        · intro h
          cases h
          exact ⟨n, ns, rfl, ih.1 hl, rfl⟩
        · rintro ⟨n', ns', hn, hrest, rfl⟩
          rw [ih.2 hrest] at hl
          cases hn
          cases hl
          rfl

theorem recased_of_sameButCase {l l' : List LegacyRewrite} (h : List.Forall₂ (SameButCase env) l l')
    (hes : prepareRewrites env 0 l = .ok es) (hes' : prepareRewrites env 0 l' = .ok es') :
    List.Forall₂ (Recased env) es es' := by
  rw [prepareRewrites_ok] at hes hes'
  induction h generalizing es es' with
  | nil =>
    cases hes
    cases hes'
    exact .nil
  | cons hhead _ ih =>
    obtain _ | ⟨hn, hrest⟩ := hes
    obtain _ | ⟨hn', hrest'⟩ := hes'
    exact .cons (hhead.recased hn hn') (ih hrest hrest')

/-! ## What is found in both lists -/

theorem matching_recased (h : List.Forall₂ (Recased env) es es') (host : String) (qtype : UInt16) :
    List.Forall₂ (Recased env) (matching es host qtype) (matching es' host qtype) := by
  refine List.rel_filter (fun e e' hee' => ?_) h
  simp only [hee'.matchesHost, LegacyRewrite.matchesQType, hee'.ip, hee'.type, hee'.enabled]

theorem truncate_recased (h : List.Forall₂ (Recased env) es es') :
    List.Forall₂ (Recased env) (truncate es) (truncate es') := by
  have hdomains : es.map LegacyRewrite.domain = es'.map LegacyRewrite.domain := by
    induction h with
    | nil => rfl
    | cons hhead _ ih => rw [List.map_cons, List.map_cons, hhead.domain, ih]
  have hidx : ∀ l : List LegacyRewrite, (l.findIdx? fun r => isWildcard r.domain) =
      (l.map LegacyRewrite.domain).findIdx? isWildcard := fun l => by
    rw [List.findIdx?_map]
    rfl
  unfold truncate
  rw [hidx es, hidx es', hdomains]
  split
  · exact List.forall₂_take _ h
  · exact h

theorem found_recased (h : List.Forall₂ (Recased env) es es') (host : String) (qtype : UInt16) :
    List.Forall₂ (Recased env) (findRewrites env es host qtype).1 (findRewrites env es' host qtype).1 := by
  rw [findRewrites_fst, findRewrites_fst]
  refine truncate_recased (env.sortFunc.forall₂ (fun hab hcd => ?_) (matching_recased h host qtype))
  simp only [LegacyRewrite.compare, hab.domain, hab.type, hcd.domain, hcd.type]

theorem matched_recased (h : List.Forall₂ (Recased env) es es') (host : String) (qtype : UInt16) :
    (findRewrites env es host qtype).2 = (findRewrites env es' host qtype).2 := by
  rw [Bool.eq_iff_iff, findRewrites_snd, findRewrites_snd]
  induction h with
  | nil => simp
  | cons hhead _ ih =>
    simp only [List.mem_cons, exists_eq_or_imp, ih, hhead.matchesHost, hhead.enabled]

theorem firstCNAME_recased (h : List.Forall₂ (Recased env) es es') (qtype : UInt16) (host : String) :
    (firstCNAME env es qtype host = none ∧ firstCNAME env es' qtype host = none) ∨
      ∃ rw rw', firstCNAME env es qtype host = some rw ∧ firstCNAME env es' qtype host = some rw' ∧
        Recased env rw rw' := by
  have hfound := found_recased h host qtype
  unfold firstCNAME
  cases hl : (findRewrites env es host qtype).1 with
  | nil =>
    rw [hl] at hfound
    rw [List.forall₂_nil_left_iff.1 hfound]
    exact .inl ⟨rfl, rfl⟩
  | cons rw rws =>
    rw [hl] at hfound
    obtain ⟨rw', rws', hhead, -, hl'⟩ := List.forall₂_cons_left_iff.1 hfound
    rw [hl']
    by_cases htype : rw.type = typeCNAME
    · exact .inr ⟨rw, rw', by simp [htype], by simp [← hhead.type, htype], hhead⟩
    · exact .inl ⟨by simp [htype], by simp [← hhead.type, htype]⟩

theorem setRewriteResult_recased (h : List.Forall₂ (Recased env) es es') (res : Result) :
    setRewriteResult qtype res es = setRewriteResult qtype res es' := by
  induction h generalizing res with
  | nil => rfl
  | cons hhead _ ih => simp only [setRewriteResult, hhead.ip, hhead.type, ih]

/-! ## Names that are not rewritten -/

/-- Neither a canonical name nor an address is found. -/
def Silent (env : RewriteEnv) (es : List LegacyRewrite) (qtype : UInt16) (host : String) : Prop :=
  firstCNAME env es qtype host = none ∧ addressEntries qtype (findRewrites env es host qtype).1 = []

instance (env : RewriteEnv) (es : List LegacyRewrite) (qtype : UInt16) (host : String) :
    Decidable (Silent env es qtype host) := by
  unfold Silent
  infer_instance

theorem silent_of_unmatched (h : ∀ e ∈ es, e.matchesHost host = false) : Silent env es qtype host := by
  have hfound : (findRewrites env es host qtype).1 = [] := by
    refine List.eq_nil_iff_forall_not_mem.2 fun e he => ?_
    obtain ⟨hes, ⟨-, hmatch⟩, -⟩ := mem_matching.1 (mem_of_mem_found he)
    simp [h e hes] at hmatch
  simp [Silent, firstCNAME, addressEntries, hfound]

theorem setRewriteResult_nil {rws : List LegacyRewrite} (h : addressEntries qtype rws = []) (res : Result) :
    setRewriteResult qtype res rws = res := by
  induction rws with
  | nil => rfl
  | cons rw rws ih =>
    unfold addressEntries at h
    obtain ⟨hhead, hrest⟩ := List.filter_eq_nil_iff.1 h |> List.forall_mem_cons.1
    rw [setRewriteResult, if_neg (by simpa using hhead)]
    exact ih (List.filter_eq_nil_iff.2 hrest)

theorem addressEntries_recased (h : List.Forall₂ (Recased env) es es') :
    addressEntries qtype es = [] ↔ addressEntries qtype es' = [] := by
  have hlength := (List.rel_filter (p := fun rw => rw.type = qtype ∧ (qtype = typeA ∨ qtype = typeAAAA))
    (q := fun rw => rw.type = qtype ∧ (qtype = typeA ∨ qtype = typeAAAA)) (fun e e' hee' => by simp [hee'.type]) h)
  unfold addressEntries
  rw [← List.length_eq_zero_iff, ← List.length_eq_zero_iff, hlength.length_eq]

theorem silent_recased (h : List.Forall₂ (Recased env) es es') (qtype : UInt16) (host : String) :
    Silent env es qtype host ↔ Silent env es' qtype host := by
  unfold Silent
  rw [addressEntries_recased (found_recased h host qtype)]
  rcases firstCNAME_recased h qtype host with ⟨hnone, hnone'⟩ | ⟨rw, rw', hsome, hsome', -⟩
  · rw [hnone, hnone']
  · rw [hsome, hsome']
    simp

variable (env) in
/-- A canonical name among the entries that match comes first. -/
theorem firstCNAME_isSome (he : e ∈ matching es host qtype) (htype : e.type = typeCNAME) :
    (firstCNAME env es qtype host).isSome = true := by
  obtain ⟨first, rest, hs, -, hle⟩ := exists_sorted env (List.ne_nil_of_mem he)
  have hfirst := LegacyRewrite.rank_le_one.1 ((hle e he).1.trans (LegacyRewrite.rank_le_one.2 htype))
  unfold firstCNAME
  rw [findRewrites_fst, hs]
  cases hw : isWildcard first.domain with
  | true => simp [truncate_wildcard hw, hfirst]
  | false => simp [truncate_exact hw, hw, hfirst]

/-- A pattern is itself rewritten by an entry for it. -/
theorem domain_not_silent (h : firstCNAME env es qtype host = some e) : ¬ Silent env es qtype e.domain := by
  obtain ⟨hmem, htype, -⟩ := firstCNAME_eq_some h
  obtain ⟨hes, ⟨henabled, -⟩, hqtype⟩ := mem_matching.1 hmem
  have hself : e ∈ matching es e.domain qtype :=
    mem_matching.2 ⟨hes, ⟨henabled, by simp [LegacyRewrite.matchesHost]⟩, hqtype⟩
  intro hsilent
  have := firstCNAME_isSome env hself htype
  simp [hsilent.1] at this

theorem not_silent_of_firstCNAME (h : firstCNAME env es qtype host = some e) :
    ¬ Silent env es qtype host := fun hsilent => by
  simp [hsilent.1] at h

/-! ## Two runs -/

/-- Results that differ in the letter case of the canonical name only. -/
structure Alike (env : RewriteEnv) (res res' : Result) : Prop where
  reason : res.reason = res'.reason
  ipList : res.ipList = res'.ipList
  canonName : env.toLower res.canonName = env.toLower res'.canonName

theorem Alike.refl (res : Result) : Alike env res res := ⟨rfl, rfl, rfl⟩

/-- Where an answer that is followed can be spelled otherwise, neither spelling is rewritten. -/
def Tolerant (env : RewriteEnv) (es : List LegacyRewrite) : Prop :=
  ∀ host qtype rw a, firstCNAME env es qtype host = some rw → ReadsCNAME env a →
    env.toLower a = env.toLower rw.answer → a ≠ rw.answer → Silent env es qtype rw.answer ∧ Silent env es qtype a

/-- Where the answers are spelled differently, the chain ends in both runs.  The names that were followed are not silent,
so that these answers are none of them. -/
theorem loop_alike (h : List.Forall₂ (Recased env) es es') (htolerant : Tolerant env es)
    (horig : origHost = host ∨ ¬ Silent env es qtype origHost)
    (hcnames : ∀ c ∈ cnames, c = host ∨ ¬ Silent env es qtype c) {out : Result}
    (hrun : handleRewriteLoop env ⟨es, true⟩ origHost qtype turns cnames host (findRewrites env es host qtype) res =
      some out) :
    ∃ out', handleRewriteLoop env ⟨es', true⟩ origHost qtype turns cnames host (findRewrites env es' host qtype) res =
      some out' ∧ Alike env out out' := by
  induction turns generalizing cnames host res with
  | zero => cases hrun
  | succ turns ih =>
    rcases firstCNAME_recased h qtype host with ⟨hnone, hnone'⟩ | ⟨rw, rw', hsome, hsome', hrw⟩
    · rw [loop_end ⟨es, true⟩ hnone] at hrun
      rw [loop_end ⟨es', true⟩ hnone', ← setRewriteResult_recased (found_recased h host qtype)]
      exact ⟨out, hrun, .refl out⟩
    · have hhost := not_silent_of_firstCNAME hsome
      have horig : ¬ Silent env es qtype origHost := horig.elim (· ▸ hhost) id
      have hcnames : ∀ c ∈ cnames, ¬ Silent env es qtype c := fun c hc => (hcnames c hc).elim (· ▸ hhost) id
      rw [loop_turn ⟨es, true⟩ hsome] at hrun
      rw [loop_turn ⟨es', true⟩ hsome', ← hrw.domain]
      by_cases heq : rw.answer = rw'.answer
      · rw [← heq, ← setRewriteResult_recased (found_recased h host qtype)]
        split at hrun
        case isTrue htest => exact ⟨out, by rw [if_pos htest, hrun], .refl out⟩
        case isFalse htest =>
          rw [if_neg htest]
          split at hrun
          case isTrue hself => exact ⟨out, by rw [if_pos hself, hrun], .refl out⟩
          case isFalse hself =>
            rw [if_neg hself]
            split at hrun
            case isTrue hseen => exact ⟨out, by rw [if_pos hseen, hrun], .refl out⟩
            case isFalse hseen =>
              rw [if_neg hseen]
              refine ih (.inr horig) (fun c hc => ?_) hrun
              exact (List.mem_cons.1 hc).imp_right (hcnames c)
      · -- Both spellings are silent: no test of the loop succeeds, and nothing is found in the next turn.
        obtain ⟨hreads, hlower⟩ := hrw.answer.resolve_left heq
        obtain ⟨hsilent, hsilent'⟩ := htolerant host qtype rw rw'.answer hsome hreads hlower.symm (Ne.symm heq)
        have hne : ∀ {n : String}, ¬ Silent env es qtype n → n ≠ rw.answer ∧ n ≠ rw'.answer := fun hn =>
          ⟨fun h => hn (h ▸ hsilent), fun h => hn (h ▸ hsilent')⟩
        have hdomain := hne (domain_not_silent hsome)
        rw [if_neg (not_or.2 ⟨(hne horig).1, hdomain.1⟩), if_neg (fun h => (hne hhost).1 h.1),
          if_neg (fun h => (hne (hcnames _ h)).1 rfl)] at hrun
        rw [if_neg (not_or.2 ⟨(hne horig).2, hdomain.2⟩), if_neg (fun h => (hne hhost).2 h.1),
          if_neg (fun h => (hne (hcnames _ h)).2 rfl)]
        have hend' := (silent_recased h qtype rw'.answer).1 hsilent'
        cases turns with
        | zero => cases hrun
        | succ turns =>
          rw [loop_end ⟨es, true⟩ hsilent.1, setRewriteResult_nil hsilent.2] at hrun
          rw [loop_end ⟨es', true⟩ hend'.1, setRewriteResult_nil hend'.2]
          cases hrun
          exact ⟨_, rfl, rfl, rfl, hlower⟩

theorem Returns.unique {conf : RewriteConf} (h : Returns env conf host qtype res)
    (h' : Returns env conf host qtype res') :
    res = res' := by
  obtain ⟨n, hn⟩ := h
  obtain ⟨n', hn'⟩ := h'
  exact Option.some.inj ((hn _ (Nat.le_max_left n n')).symm.trans (hn' _ (Nat.le_max_right n n')))

theorem returns_alike (h : List.Forall₂ (Recased env) es es') (htolerant : Tolerant env es)
    (hres : Returns env ⟨es, true⟩ host qtype res) (hres' : Returns env ⟨es', true⟩ host qtype res') :
    Alike env res res' := by
  obtain ⟨n, hn⟩ := hres
  obtain ⟨n', hn'⟩ := hres'
  have hrun := hn _ (Nat.le_max_left n n')
  have hrun' := hn' _ (Nat.le_max_right n n')
  by_cases hmatched : (findRewrites env es host qtype).2 = true
  · rw [processRewrites_matched hmatched] at hrun
    rw [processRewrites_matched (matched_recased h host qtype ▸ hmatched)] at hrun'
    obtain ⟨out', hout', halike⟩ := loop_alike h htolerant (.inl rfl) (by simp) hrun
    rw [hout'] at hrun'
    cases hrun'
    exact halike
  · rw [processRewrites_unmatched hmatched] at hrun
    rw [processRewrites_unmatched (matched_recased h host qtype ▸ hmatched)] at hrun'
    cases hrun
    cases hrun'
    exact .refl _

end AdGuardHome.Filtering
