import AdGuardHome.Lib.Each
import AdGuardHome.Filtering.RewriteCase

/-!
# Rewrites spelled in another way

All answers that are one canonical name up to letter case can be given one spelling.  With a spelling that is not
rewritten, the chains that come to the name end there; with one that is, they have other results.
-/

namespace AdGuardHome.Filtering

open AdGuardHome.Lib AdGuardHome.Net

variable {env : RewriteEnv} {l es es' : List LegacyRewrite} {e n rw : LegacyRewrite} {origHost host a a' : String}
  {qtype : UInt16} {cnames : List String} {res : Result} {turns : ℕ}

/-! ## One spelling for a name -/

/-- An answer that is the name `a` up to letter case becomes `a`. -/
def respell (env : RewriteEnv) (a : String) (e : LegacyRewrite) : LegacyRewrite :=
  if ReadsCNAME env e.answer ∧ env.toLower e.answer = env.toLower a then { e with answer := a } else e

/-- The answer says whether an entry is one for a canonical name. -/
theorem readsCNAME_of_normalize (h : e.normalize env = .ok n) :
    n.answer = e.answer ∧ (n.type = typeCNAME → ReadsCNAME env n.answer) := by
  simp only [LegacyRewrite.normalize] at h
  split at h
  case isTrue =>
    cases h
    exact ⟨rfl, fun h => absurd h (by decide : typeAAAA ≠ typeCNAME)⟩
  case isFalse haaaa =>
    split at h
    case isTrue =>
      cases h
      exact ⟨rfl, fun h => absurd h (by decide : typeA ≠ typeCNAME)⟩
    case isFalse ha =>
      cases hparse : parseAddr e.answer with
      | none =>
        cases hvalid : env.validateDomainName e.answer with
        | some err => simp [hparse, hvalid] at h
        | none =>
          simp only [hparse, hvalid, Except.ok.injEq] at h
          subst h
          exact ⟨rfl, fun _ => ⟨haaaa, ha, hparse, hvalid⟩⟩
      | some ip =>
        simp only [hparse, Except.ok.injEq] at h
        subst h
        refine ⟨rfl, fun h => ?_⟩
        cases hip : ip.is4 <;> simp [hip, typeA, typeAAAA, typeCNAME] at h

theorem respell_normalize (ha : ReadsCNAME env a) (h : e.normalize env = .ok n) :
    (respell env a e).normalize env = .ok (respell env a n) := by
  unfold respell
  rw [(readsCNAME_of_normalize h).1]
  by_cases hname : ReadsCNAME env e.answer ∧ env.toLower e.answer = env.toLower a
  · rw [if_pos hname, if_pos hname, normalize_readsCNAME ha]
    rw [normalize_readsCNAME hname.1] at h
    cases h
    rfl
  · rw [if_neg hname, if_neg hname, h]

theorem prepareRewrites_respell (ha : ReadsCNAME env a) (h : prepareRewrites env 0 l = .ok es) :
    prepareRewrites env 0 (l.map (respell env a)) = .ok (es.map (respell env a)) := by
  rw [prepareRewrites_ok] at h ⊢
  rw [List.forall₂_map_left_iff, List.forall₂_map_right_iff]
  exact h.imp fun _ _ hn => respell_normalize ha hn

theorem sameButCase_respell (ha : ReadsCNAME env a) (l : List LegacyRewrite) :
    List.Forall₂ (SameButCase env) l (l.map (respell env a)) := by
  rw [List.forall₂_map_right_iff, List.forall₂_same]
  intro e _
  unfold respell
  split
  case isTrue h => exact ⟨rfl, .inr ⟨h.1, ha, h.2⟩, rfl, rfl⟩
  case isFalse => exact ⟨rfl, .inl rfl, rfl, rfl⟩

theorem recased_respell (ha : ReadsCNAME env a) (h : prepareRewrites env 0 l = .ok es) :
    List.Forall₂ (Recased env) es (es.map (respell env a)) :=
  recased_of_sameButCase (sameButCase_respell ha l) h (prepareRewrites_respell ha h)

/-- After `a` is respelled, an answer that is `a` up to letter case is `a`. -/
theorem answer_respelled (hes : prepareRewrites env 0 l = .ok es)
    (hfirst : firstCNAME env (es.map (respell env a)) qtype host = some rw)
    (hlower : env.toLower rw.answer = env.toLower a) : rw.answer = a := by
  obtain ⟨hmem, htype, -⟩ := firstCNAME_eq_some hfirst
  obtain ⟨e, he, rfl⟩ := List.mem_map.1 (mem_matching.1 hmem).1
  unfold respell at htype hlower ⊢
  split
  case isTrue => rfl
  case isFalse hname =>
    rw [if_neg hname] at htype hlower
    obtain ⟨r, -, hr⟩ := exists_left_of_forall₂ (prepareRewrites_ok.1 hes) he
    exact absurd ⟨(readsCNAME_of_normalize hr).2 htype, hlower⟩ hname

theorem next_respelled (hes : prepareRewrites env 0 l = .ok es) {n : String}
    (hnext : nextName env (es.map (respell env a)) qtype host = some n) (hlower : env.toLower n = env.toLower a) :
    n = a := by
  obtain ⟨rw, hfirst, rfl⟩ := Option.map_eq_some_iff.1 hnext
  exact answer_respelled hes hfirst hlower

/-! ## Results that tell a name from a silent one -/

/-- Where addresses are found, the result has addresses or is not a rewrite. -/
theorem setRewriteResult_addresses {rws : List LegacyRewrite} (h : addressEntries qtype rws ≠ [] ∨ res.ipList ≠ []) :
    (setRewriteResult qtype res rws).reason = .notFilteredNotFound ∨ (setRewriteResult qtype res rws).ipList ≠ [] := by
  induction rws generalizing res with
  | nil => exact .inr (h.resolve_left fun h => h rfl)
  | cons rw rws ih =>
    unfold setRewriteResult
    by_cases htype : rw.type = qtype ∧ (qtype = typeA ∨ qtype = typeAAAA)
    · rw [if_pos htype]
      split
      · exact .inl rfl
      · exact ih (.inr (by simp))
    · rw [if_neg htype]
      refine ih (h.imp_left fun hne hnil => hne ?_)
      unfold addressEntries at hnil ⊢
      rw [List.filter_cons_of_neg (by simpa using htype), hnil]

/-- A chain that does not come to the name `a`, in any spelling, does not give it. -/
theorem loop_avoids {out : Result} (hcanon : res.canonName = host) (hhost : env.toLower host ≠ env.toLower a)
    (havoids : ∀ names, Follows (nextName env es qtype) host names → ∀ n ∈ names, env.toLower n ≠ env.toLower a)
    (hrun : handleRewriteLoop env ⟨es, true⟩ origHost qtype turns cnames host (findRewrites env es host qtype) res =
      some out) :
    out.reason = .notFilteredNotFound ∨ env.toLower out.canonName ≠ env.toLower a := by
  induction turns generalizing cnames host res with
  | zero => cases hrun
  | succ turns ih =>
    cases hfirst : firstCNAME env es qtype host with
    | none =>
      rw [loop_end ⟨es, true⟩ hfirst] at hrun
      cases hrun
      rw [setRewriteResult_canonName, hcanon]
      exact .inr hhost
    | some rw =>
      have hnext : nextName env es qtype host = some rw.answer := by simp [nextName, hfirst]
      rw [loop_turn ⟨es, true⟩ hfirst] at hrun
      split at hrun
      · cases hrun
        exact .inl rfl
      · split at hrun
        · cases hrun
          rw [setRewriteResult_canonName]
          exact .inr hhost
        · split at hrun
          · cases hrun
            rw [hcanon]
            exact .inr hhost
          · have hanswer := havoids [rw.answer] ⟨hnext, trivial⟩ _ (List.mem_singleton_self _)
            refine ih ?_ hanswer (fun names hnames n hn => ?_) hrun
            · rfl
            · exact havoids (rw.answer :: names) ⟨hnext, hnames⟩ n (List.mem_cons_of_mem _ hn)

/-- A host with a canonical name that is not rewritten has it as the result. -/
theorem returns_silent (hfirst : firstCNAME env es qtype host = some rw) (hsilent : Silent env es qtype rw.answer) :
    Returns env ⟨es, true⟩ host qtype { reason := .rewritten, canonName := rw.answer } := by
  obtain ⟨-, -, rest, hrest⟩ := firstCNAME_eq_some hfirst
  have hne : host ≠ rw.answer := fun h => not_silent_of_firstCNAME hfirst (h ▸ hsilent)
  have hdomain : rw.domain ≠ rw.answer := fun h => domain_not_silent hfirst (h ▸ hsilent)
  have hfollows : Follows (nextName env es qtype) host [rw.answer] := ⟨by simp [nextName, hfirst], trivial⟩
  have hreturns := returns_follows (found_matched (hrest ▸ List.mem_cons_self)) hfollows
    (by simp [nextName, hsilent.1]) (by simpa using hne) (by
      simp only [List.forall_mem_cons, hfirst, hsilent.1]
      simpa using hdomain)
  rwa [setRewriteResult_nil (by simpa using hsilent.2)] at hreturns

/-- What the two lists that spell a name as `a` and as `a'` have in common where results ignore letter case. -/
structure TwoSpellings (env : RewriteEnv) (l es : List LegacyRewrite) (a a' : String) : Prop where
  prepared : prepareRewrites env 0 l = .ok es
  reads : ReadsCNAME env a
  reads' : ReadsCNAME env a'
  lower : env.toLower a = env.toLower a'
  alike : ∀ host qtype res res', Returns env ⟨es.map (respell env a), true⟩ host qtype res →
    Returns env ⟨es.map (respell env a'), true⟩ host qtype res' → Alike env res res'

theorem TwoSpellings.next (h : TwoSpellings env l es a a') (hfirst : firstCNAME env es qtype host = some rw)
    (hlower : env.toLower rw.answer = env.toLower a) :
    nextName env (es.map (respell env a)) qtype host = some a := by
  rcases firstCNAME_recased (recased_respell h.reads h.prepared) qtype host with ⟨hnone, -⟩ | ⟨rw₀, rw₁, h₀, h₁, hrw⟩
  · rw [hnone] at hfirst
    cases hfirst
  · rw [h₀] at hfirst
    cases hfirst
    have hanswer : env.toLower rw₁.answer = env.toLower a :=
      (hrw.answer.elim (congrArg env.toLower) And.right).symm.trans hlower
    simp [nextName, h₁, answer_respelled h.prepared h₁ hanswer]

theorem TwoSpellings.symm (h : TwoSpellings env l es a a') : TwoSpellings env l es a' a where
  prepared := h.prepared
  reads := h.reads'
  reads' := h.reads
  lower := h.lower.symm
  alike host qtype _ _ hres hres' :=
    have halike := h.alike host qtype _ _ hres' hres
    ⟨halike.reason.symm, halike.ipList.symm, halike.canonName.symm⟩

/-- Where the name is followed, the result is that of a host that is not rewritten further. -/
theorem TwoSpellings.result (h : TwoSpellings env l es a a') (hsilent : Silent env es qtype a')
    (hfirst : firstCNAME env es qtype host = some rw) (hlower : env.toLower rw.answer = env.toLower a)
    (hreturns : Returns env ⟨es.map (respell env a), true⟩ host qtype res) :
    res.reason = .rewritten ∧ res.ipList = [] ∧ env.toLower res.canonName = env.toLower a := by
  obtain ⟨rw', hfirst', rfl⟩ := Option.map_eq_some_iff.1 (h.symm.next hfirst (hlower.trans h.lower))
  have hsilent' := (silent_recased (recased_respell h.reads' h.prepared) qtype rw'.answer).1 hsilent
  have halike := h.alike host qtype _ _ hreturns (returns_silent hfirst' hsilent')
  exact ⟨halike.reason, halike.ipList, halike.canonName.trans h.lower.symm⟩

/-- The name is not followed from itself. -/
theorem TwoSpellings.not_cycle (h : TwoSpellings env l es a a') (hsilent : Silent env es qtype a')
    {names : List String} (hfollows : Follows (nextName env (es.map (respell env a)) qtype) a names) :
    ∀ n ∈ names, env.toLower n ≠ env.toLower a := by
  intro n hn hlower
  obtain ⟨c, hc⟩ := hfollows.exists_next hn
  cases next_respelled h.prepared hc hlower
  obtain ⟨c, cs, hc, hcycle, hmem⟩ := hfollows.cycle hn
  -- The host `c` comes back to itself through the name.
  obtain ⟨rw₁, hfirst₁, hanswer⟩ := Option.map_eq_some_iff.1 hc
  rcases firstCNAME_recased (recased_respell h.reads h.prepared) qtype c with ⟨-, hnone⟩ | ⟨rw₀, rw₁', h₀, h₁, hrw⟩
  · rw [hnone] at hfirst₁
    cases hfirst₁
  · rw [h₁] at hfirst₁
    cases hfirst₁
    have hlower₀ : env.toLower rw₀.answer = env.toLower a :=
      (hrw.answer.elim (congrArg env.toLower) And.right).trans (congrArg env.toLower hanswer)
    have hreason := (h.result hsilent h₀ hlower₀ (returns_empty hcycle hmem)).1
    cases hreason

/-- If one spelling of a name that is followed is not rewritten, then no other is. -/
theorem TwoSpellings.silent (h : TwoSpellings env l es a a') (hsilent : Silent env es qtype a')
    (hfirst : firstCNAME env es qtype host = some rw) (hlower : env.toLower rw.answer = env.toLower a) :
    Silent env es qtype a := by
  rw [silent_recased (recased_respell h.reads h.prepared)]
  by_contra hloud
  obtain ⟨res, hres⟩ := exists_returns env ⟨es.map (respell env a), true⟩ host qtype
  obtain ⟨hreason, hips, hcanon⟩ := h.result hsilent hfirst hlower hres
  obtain ⟨rw₁, hfirst₁, rfl⟩ := Option.map_eq_some_iff.1 (h.next hfirst hlower)
  obtain ⟨n, hn⟩ := hres
  have hrun := hn (n + 2) (by omega)
  obtain ⟨-, -, rest, hrest⟩ := firstCNAME_eq_some hfirst₁
  rw [processRewrites_matched (found_matched (hrest ▸ List.mem_cons_self)),
    loop_turn ⟨es.map (respell env rw₁.answer), true⟩ hfirst₁] at hrun
  split at hrun
  case isTrue =>
    cases hrun
    cases hreason
  case isFalse htest =>
    -- The name is not the host, which would follow it from itself.
    have hhost : host ≠ rw₁.answer := fun h => htest (.inl h)
    rw [if_neg fun h => hhost h.1, if_neg (List.not_mem_nil)] at hrun
    have hcycle : ∀ names, Follows (nextName env (es.map (respell env rw₁.answer)) qtype) rw₁.answer names →
        ∀ n ∈ names, env.toLower n ≠ env.toLower rw₁.answer := fun names => h.not_cycle hsilent
    cases hnext : firstCNAME env (es.map (respell env rw₁.answer)) qtype rw₁.answer with
    | none =>
      rw [loop_end ⟨es.map (respell env rw₁.answer), true⟩ hnext] at hrun
      cases hrun
      rcases setRewriteResult_addresses (.inl fun hnil => hloud ⟨hnext, hnil⟩) with hreason' | hips'
      · rw [hreason] at hreason'
        cases hreason'
      · exact hips' hips
    | some rw₂ =>
      have hanswer₂ : nextName env (es.map (respell env rw₁.answer)) qtype rw₁.answer = some rw₂.answer := by
        simp [nextName, hnext]
      have hne₂ := hcycle [rw₂.answer] ⟨hanswer₂, trivial⟩ _ (List.mem_singleton_self _)
      have hne : rw₂.answer ≠ rw₁.answer := fun h => hne₂ (congrArg env.toLower h)
      rw [loop_turn ⟨es.map (respell env rw₁.answer), true⟩ hnext] at hrun
      split at hrun
      · cases hrun
        cases hreason
      · rw [if_neg fun h => hne h.1.symm, if_neg fun h => hne (by simpa using h)] at hrun
        have havoids : ∀ names, Follows (nextName env (es.map (respell env rw₁.answer)) qtype) rw₂.answer names →
            ∀ n ∈ names, env.toLower n ≠ env.toLower rw₁.answer := fun names hnames n hn =>
          hcycle (rw₂.answer :: names) ⟨hanswer₂, hnames⟩ n (List.mem_cons_of_mem _ hn)
        rcases loop_avoids (by rfl) hne₂ havoids hrun with hreason' | hcanon'
        · rw [hreason] at hreason'
          cases hreason'
        · exact hcanon' hcanon

/-! ## Letter case is ignored -/

/-- Every list that differs from the given one in letter case only has the same results, up to the letter case of
canonical names. -/
def IgnoresCase (env : RewriteEnv) (l : List LegacyRewrite) : Prop :=
  ∀ l' es es', List.Forall₂ (SameButCase env) l l' → prepareRewrites env 0 l = .ok es →
    prepareRewrites env 0 l' = .ok es' → ∀ host qtype res res', Returns env ⟨es, true⟩ host qtype res →
      Returns env ⟨es', true⟩ host qtype res' → Alike env res res'

theorem IgnoresCase.twoSpellings (h : IgnoresCase env l) (hes : prepareRewrites env 0 l = .ok es)
    (ha : ReadsCNAME env a) (ha' : ReadsCNAME env a') (hlower : env.toLower a = env.toLower a') :
    TwoSpellings env l es a a' where
  prepared := hes
  reads := ha
  reads' := ha'
  lower := hlower
  alike host qtype res res' hres hres' := by
    obtain ⟨res₀, hres₀⟩ := exists_returns env ⟨es, true⟩ host qtype
    have halike := h _ _ _ (sameButCase_respell ha l) hes (prepareRewrites_respell ha hes) host qtype _ _ hres₀ hres
    have halike' := h _ _ _ (sameButCase_respell ha' l) hes (prepareRewrites_respell ha' hes) host qtype _ _ hres₀ hres'
    exact ⟨halike.reason.symm.trans halike'.reason, halike.ipList.symm.trans halike'.ipList,
      halike.canonName.symm.trans halike'.canonName⟩

/-- Letter case is ignored where no spelling of an answer that is followed, and that can be spelled otherwise, is
rewritten; and nowhere else, but where there is such an answer of which all spellings are. -/
theorem ignoresCase (env : RewriteEnv) (l es : List LegacyRewrite) (hes : prepareRewrites env 0 l = .ok es) :
    (Tolerant env es → IgnoresCase env l) ∧
      ((∀ host qtype rw a, firstCNAME env es qtype host = some rw → ReadsCNAME env a →
          env.toLower a = env.toLower rw.answer → a ≠ rw.answer →
            ∃ a', ReadsCNAME env a' ∧ env.toLower a' = env.toLower rw.answer ∧ Silent env es qtype a') →
        (IgnoresCase env l ↔ Tolerant env es)) := by
  have henough : Tolerant env es → IgnoresCase env l := by
    intro htolerant l' es₁ es' hsame hes₁ hes' host qtype res res' hres hres'
    rw [hes] at hes₁
    cases hes₁
    exact returns_alike (recased_of_sameButCase hsame hes hes') htolerant hres hres'
  refine ⟨henough, fun hsep => ⟨fun h host qtype rw a hfirst ha hlower hne => ?_, henough⟩⟩
  obtain ⟨a', ha', hlower', hsilent⟩ := hsep host qtype rw a hfirst ha hlower hne
  obtain ⟨hmem, htype, -⟩ := firstCNAME_eq_some hfirst
  obtain ⟨r, -, hr⟩ := exists_left_of_forall₂ (prepareRewrites_ok.1 hes) (mem_matching.1 hmem).1
  have hreads := (readsCNAME_of_normalize hr).2 htype
  exact ⟨(h.twoSpellings hes hreads ha' hlower'.symm).silent hsilent hfirst rfl,
    (h.twoSpellings hes ha ha' (hlower.trans hlower'.symm)).silent hsilent hfirst hlower.symm⟩

/-- One entry, for a name that is not rewritten. -/
theorem ignoresCase_alone : IgnoresCase asciiEnv [rawRewrite "a.com" "b.com"] := by
  refine (ignoresCase asciiEnv _ [⟨"a.com", "b.com", .invalid, typeCNAME, true⟩] (by decide)).1 ?_
  intro host qtype rw a hfirst _ hlower _
  have hrw := (mem_matching.1 (firstCNAME_eq_some hfirst).1).1
  cases List.mem_singleton.1 hrw
  have hne : "a.com" ≠ a := by
    rintro rfl
    revert hlower
    decide
  refine ⟨by apply silent_of_unmatched; decide, silent_of_unmatched fun e he => ?_⟩
  cases List.mem_singleton.1 he
  simp [LegacyRewrite.matchesHost, hne, matchDomainWildcard, show isWildcard "a.com" = false by decide]

/-- `a.com` is the name given, and `b.com` is at `1.2.3.4`. -/
def toAddress (answer : String) : List LegacyRewrite :=
  [⟨"a.com", answer, .invalid, typeCNAME, true⟩, ⟨"b.com", "1.2.3.4", .v4 0x01020304, typeA, true⟩]

/-- The answer `B.com` is not found among the domains, `b.com` is. -/
theorem not_ignoresCase : ¬ IgnoresCase asciiEnv [rawRewrite "a.com" "B.com", rawRewrite "b.com" "1.2.3.4"] := by
  intro h
  have hsame : List.Forall₂ (SameButCase asciiEnv) [rawRewrite "a.com" "B.com", rawRewrite "b.com" "1.2.3.4"]
      [rawRewrite "a.com" "b.com", rawRewrite "b.com" "1.2.3.4"] :=
    .cons ⟨rfl, .inr (by decide), rfl, rfl⟩ (.cons ⟨rfl, .inl rfl, rfl, rfl⟩ .nil)
  have hfirst : firstCNAME asciiEnv (toAddress "B.com") typeA "a.com" =
      some ⟨"a.com", "B.com", .invalid, typeCNAME, true⟩ := by decide
  have hfollows : Follows (nextName asciiEnv (toAddress "b.com") typeA) "a.com" ["b.com"] := by decide
  have halike := h _ (toAddress "B.com") (toAddress "b.com") hsame (by decide) (by decide) "a.com" typeA _ _
    (returns_silent hfirst (by decide)) (returns_follows (by decide) hfollows (by decide) (by decide) (by decide))
  have hips := halike.ipList
  revert hips
  decide

end AdGuardHome.Filtering
