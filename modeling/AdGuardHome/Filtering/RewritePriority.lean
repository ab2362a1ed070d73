import Mathlib.Data.List.TakeWhile
import AdGuardHome.Filtering.Rewrites

/-!
# Which rewrites are found

The order of the entries is by their kind first (`LegacyRewrite.rank`) and by the length of the pattern then.  A wildcard
for a canonical name comes before an exact entry for an address, and is then what is left of both (`priority_iff`).
-/

namespace AdGuardHome.Filtering

open AdGuardHome.Lib

namespace LegacyRewrite

/-- The place of the kind of an entry in the order: canonical names first, and then exact patterns. -/
def rank (rw : LegacyRewrite) : ℕ :=
  (if rw.type = typeCNAME then 0 else 2) + if isWildcard rw.domain then 1 else 0

theorem not_compare_neg {a b : LegacyRewrite} :
    ¬ compare b a < 0 ↔
      a.rank ≤ b.rank ∧ (a.rank = b.rank → b.domain.utf8ByteSize ≤ a.domain.utf8ByteSize) := by
  unfold compare rank
  by_cases ha : a.type = typeCNAME <;> by_cases hb : b.type = typeCNAME <;> cases isWildcard a.domain <;>
    cases isWildcard b.domain <;> simp [ha, hb]

theorem weakOrder_compare : WeakOrder compare where
  total a b := by
    rw [not_compare_neg, not_compare_neg]
    omega
  trans a b c hab hbc := by
    rw [not_compare_neg] at hab hbc ⊢
    omega

theorem rank_eq_zero {rw : LegacyRewrite} : rw.rank = 0 ↔ rw.type = typeCNAME ∧ isWildcard rw.domain = false := by
  unfold rank
  split <;> cases isWildcard rw.domain <;> simp_all

theorem rank_eq_one {rw : LegacyRewrite} : rw.rank = 1 ↔ rw.type = typeCNAME ∧ isWildcard rw.domain = true := by
  unfold rank
  split <;> cases isWildcard rw.domain <;> simp_all

theorem rank_le_one {rw : LegacyRewrite} : rw.rank ≤ 1 ↔ rw.type = typeCNAME := by
  unfold rank
  split <;> cases isWildcard rw.domain <;> simp_all

theorem isWildcard_of_rank_le {a b : LegacyRewrite} (h : a.rank ≤ b.rank) (htwo : 2 ≤ a.rank)
    (ha : isWildcard a.domain = true) : isWildcard b.domain = true := by
  unfold rank at h htwo
  cases hb : isWildcard b.domain with
  | true => rfl
  | false =>
    rw [if_pos ha] at h htwo
    rw [hb] at h
    split at h <;> split at h <;> simp_all

end LegacyRewrite

open LegacyRewrite

variable {env : RewriteEnv} {entries : List LegacyRewrite} {host : String} {qtype : UInt16} {e : LegacyRewrite}

/-! ## Truncation -/

theorem truncate_wildcard {l : List LegacyRewrite} (h : isWildcard e.domain = true) : truncate (e :: l) = [e] := by
  simp [truncate, List.findIdx?_cons, h]

theorem truncate_exact {l : List LegacyRewrite} (h : isWildcard e.domain = false) :
    truncate (e :: l) = (e :: l).takeWhile fun r => !isWildcard r.domain := by
  unfold truncate
  cases hidx : (e :: l).findIdx? fun r => isWildcard r.domain with
  | none =>
    have hall := List.findIdx?_eq_none_iff.1 hidx
    exact (List.takeWhile_eq_self_iff.2 fun r hr => by simp [hall r hr]).symm
  | some i =>
    have hi : (e :: l).findIdx (fun r => isWildcard r.domain) = i := (List.findIdx?_eq_some_iff_findIdx_eq.1 hidx).2
    have hpos : 1 ≤ i := by
      rw [List.findIdx_cons, h] at hi
      simp at hi
      omega
    simp only [List.takeWhile_eq_take_findIdx_not, Bool.not_not]
    rw [hi, max_eq_right hpos]

/-- Where no element that fails comes before one that does not, the first elements are all that pass. -/
theorem takeWhile_eq_filter {α : Type} {p : α → Bool} {l : List α}
    (h : l.Pairwise fun a b => p b = true → p a = true) : l.takeWhile p = l.filter p := by
  induction l with
  | nil => rfl
  | cons a l ih =>
    have ⟨ha, hl⟩ := List.pairwise_cons.1 h
    by_cases hp : p a = true
    · rw [List.takeWhile_cons_of_pos hp, List.filter_cons_of_pos hp, ih hl]
    · rw [List.takeWhile_cons_of_neg hp, List.filter_cons_of_neg hp, eq_comm, List.filter_eq_nil_iff]
      exact fun b hb hpb => hp (ha b hb hpb)

/-! ## What is found -/

theorem findRewrites_snd :
    (findRewrites env entries host qtype).2 = true ↔ ∃ e ∈ entries, e.enabled = true ∧ e.matchesHost host = true := by
  by_cases h : matching entries host qtype = [] <;> simp [findRewrites, h]

theorem findRewrites_fst :
    (findRewrites env entries host qtype).1 =
      truncate (env.sortFunc.sort LegacyRewrite.compare (matching entries host qtype)) := by
  by_cases h : matching entries host qtype = []
  · rw [h, (env.sortFunc.perm _ []).eq_nil]
    simp [findRewrites, h, truncate]
  · simp [findRewrites, h, finalizeRewrites]

theorem mem_matching : e ∈ matching entries host qtype ↔
    e ∈ entries ∧ (e.enabled = true ∧ e.matchesHost host = true) ∧ e.matchesQType qtype = true := by
  simp [matching, and_assoc]

/-- An entry for the host itself is one that is no wildcard. -/
theorem domain_eq_iff (hhost : isWildcard host = false) (he : e ∈ matching entries host qtype) :
    e.domain = host ↔ isWildcard e.domain = false := by
  have hmatch := (mem_matching.1 he).2.1.2
  constructor
  · rintro rfl
    exact hhost
  · intro hwild
    simpa [matchesHost, matchDomainWildcard, hwild] using hmatch

/-- The sorted entries: the first one, if there are any, is not after any other. -/
theorem exists_sorted (env : RewriteEnv) {l : List LegacyRewrite} (hne : l ≠ []) :
    ∃ e rest, env.sortFunc.sort LegacyRewrite.compare l = e :: rest ∧ e ∈ l ∧
      ∀ e' ∈ l, e.rank ≤ e'.rank ∧ (e.rank = e'.rank → e'.domain.utf8ByteSize ≤ e.domain.utf8ByteSize) := by
  have hperm := env.sortFunc.perm LegacyRewrite.compare l
  have hsorted := env.sortFunc.sorted weakOrder_compare l
  cases hs : env.sortFunc.sort LegacyRewrite.compare l with
  | nil =>
    rw [hs] at hperm
    exact absurd hperm.symm.eq_nil hne
  | cons e rest =>
    rw [hs] at hperm hsorted
    refine ⟨e, rest, rfl, hperm.subset List.mem_cons_self, fun e' he' => ?_⟩
    rcases List.mem_cons.1 (hperm.symm.subset he') with rfl | hrest
    · exact ⟨le_rfl, fun _ => le_rfl⟩
    · exact not_compare_neg.1 ((List.pairwise_cons.1 hsorted).1 e' hrest)

/-- Entries that are no canonical names, with an exact one among them: the exact ones are left. -/
theorem truncate_sorted_perm (env : RewriteEnv) {l : List LegacyRewrite}
    (hcname : ∀ e ∈ l, e.type ≠ typeCNAME) (hexact : ∃ e ∈ l, isWildcard e.domain = false) :
    (truncate (env.sortFunc.sort LegacyRewrite.compare l)).Perm (l.filter fun r => !isWildcard r.domain) := by
  obtain ⟨x, hx, hxw⟩ := hexact
  obtain ⟨e, rest, hs, he, hle⟩ := exists_sorted env (List.ne_nil_of_mem hx)
  have htwo : ∀ r ∈ l, 2 ≤ r.rank := fun r hr => by
    have := mt rank_le_one.1 (hcname r hr)
    omega
  have hew : isWildcard e.domain = false := by
    by_contra h
    have := isWildcard_of_rank_le (hle x hx).1 (htwo e he) (by simpa using h)
    simp [hxw] at this
  have hperm := env.sortFunc.perm LegacyRewrite.compare l
  have hsorted := env.sortFunc.sorted weakOrder_compare l
  rw [hs] at hperm hsorted ⊢
  rw [truncate_exact hew, takeWhile_eq_filter]
  · exact hperm.filter _
  · refine hsorted.imp_of_mem fun ha _ hab hb => ?_
    have hle := (not_compare_neg.1 hab).1
    cases haw : isWildcard _ with
    | false => rfl
    | true => simp [isWildcard_of_rank_le hle (htwo _ (hperm.subset ha)) haw] at hb

/-! ## The priority of the entries -/

/-- The canonical names among the entries, if there are any, and all entries otherwise. -/
def preferred (l : List LegacyRewrite) : List LegacyRewrite :=
  if ∃ e ∈ l, e.type = typeCNAME then l.filter fun e => e.type = typeCNAME else l

/-- What the comment of `findRewrites` says of its results. -/
structure Priority (entries : List LegacyRewrite) (host : String) (qtype : UInt16)
    (found : List LegacyRewrite × Bool) : Prop where
  matched : found.2 = true ↔ ∃ e ∈ entries, e.enabled = true ∧ e.matchesHost host = true
  exact : (∃ e ∈ matching entries host qtype, e.domain = host) →
    (∀ e ∈ found.1, isWildcard e.domain = false) ∧
      (found.1.Perm ((matching entries host qtype).filter fun e => !isWildcard e.domain) ∨
        ∃ e ∈ matching entries host qtype, isWildcard e.domain = false ∧ e.type = typeCNAME ∧
          found.1.head? = some e)
  wildcard : matching entries host qtype ≠ [] →
    (∀ e ∈ matching entries host qtype, isWildcard e.domain = true) →
      ∃ e ∈ preferred (matching entries host qtype), found.1 = [e] ∧
        ∀ e' ∈ preferred (matching entries host qtype), e'.domain.utf8ByteSize ≤ e.domain.utf8ByteSize

/-- The first of some wildcards is the longest one of those that are preferred. -/
theorem mem_preferred_of_le {l : List LegacyRewrite} (hwild : ∀ r ∈ l, isWildcard r.domain = true) (he : e ∈ l)
    (hle : ∀ e' ∈ l, e.rank ≤ e'.rank ∧ (e.rank = e'.rank → e'.domain.utf8ByteSize ≤ e.domain.utf8ByteSize)) :
    e ∈ preferred l ∧ ∀ e' ∈ preferred l, e'.domain.utf8ByteSize ≤ e.domain.utf8ByteSize := by
  have hrank : ∀ r ∈ l, r.rank = if r.type = typeCNAME then 1 else 3 := fun r hr => by
    rw [rank, if_pos (hwild r hr)]
    split <;> rfl
  unfold preferred
  split
  case isTrue hcname =>
    obtain ⟨c, hc, hct⟩ := hcname
    have het : e.type = typeCNAME := by
      have := (hle c hc).1
      rw [hrank c hc, if_pos hct] at this
      exact rank_le_one.1 this
    refine ⟨List.mem_filter.2 ⟨he, by simpa using het⟩, fun e' he' => ?_⟩
    obtain ⟨he', ht'⟩ := List.mem_filter.1 he'
    refine (hle e' he').2 ?_
    rw [hrank e he, hrank e' he', if_pos het, if_pos (by simpa using ht')]
  case isFalse hcname =>
    refine ⟨he, fun e' he' => (hle e' he').2 ?_⟩
    rw [hrank e he, hrank e' he', if_neg fun h => hcname ⟨e, he, h⟩, if_neg fun h => hcname ⟨e', he', h⟩]

/-- The priorities hold but where a host has an exact entry for an address, a wildcard one for a canonical name, and
no exact one for a canonical name. -/
theorem priority_iff (env : RewriteEnv) (entries : List LegacyRewrite) {host : String} (qtype : UInt16)
    (hhost : isWildcard host = false) :
    Priority entries host qtype (findRewrites env entries host qtype) ↔
      ((∃ e ∈ matching entries host qtype, e.domain = host) →
        (∃ e ∈ matching entries host qtype, isWildcard e.domain = true ∧ e.type = typeCNAME) →
          ∃ e ∈ matching entries host qtype, e.domain = host ∧ e.type = typeCNAME) := by
  constructor
  · rintro h ⟨x, hx, hxhost⟩ ⟨w, hw, hww, hwt⟩
    by_contra hno
    -- The first entry is the wildcard, and no exact one.
    obtain ⟨e, rest, hs, he, hle⟩ := exists_sorted env (List.ne_nil_of_mem hx)
    have het : e.type = typeCNAME := rank_le_one.1 ((hle w hw).1.trans (rank_eq_one.2 ⟨hwt, hww⟩).le)
    have hew : isWildcard e.domain = true := by
      by_contra hex
      exact hno ⟨e, he, (domain_eq_iff hhost he).2 (by simpa using hex), het⟩
    have hfound := (h.exact ⟨x, hx, hxhost⟩).1 e (by
      rw [findRewrites_fst, hs, truncate_wildcard hew]
      exact List.mem_singleton_self e)
    rw [hew] at hfound
    cases hfound
  · intro hcond
    refine ⟨findRewrites_snd, ?_, ?_⟩
    · rintro ⟨x, hx, hxhost⟩
      have hxw := (domain_eq_iff hhost hx).1 hxhost
      rw [findRewrites_fst]
      by_cases hcname : ∃ c ∈ matching entries host qtype, c.type = typeCNAME
      · -- The first entry is an exact one for a canonical name.
        obtain ⟨c, hc, hcw, hct⟩ : ∃ c ∈ matching entries host qtype, isWildcard c.domain = false ∧
            c.type = typeCNAME := by
          obtain ⟨c, hc, hct⟩ := hcname
          cases hcw : isWildcard c.domain with
          | false => exact ⟨c, hc, hcw, hct⟩
          | true =>
            obtain ⟨d, hd, hdhost, hdt⟩ := hcond ⟨x, hx, hxhost⟩ ⟨c, hc, hcw, hct⟩
            exact ⟨d, hd, (domain_eq_iff hhost hd).1 hdhost, hdt⟩
        obtain ⟨e, rest, hs, he, hle⟩ := exists_sorted env (List.ne_nil_of_mem hx)
        have hzero := Nat.le_zero.1 ((hle c hc).1.trans (rank_eq_zero.2 ⟨hct, hcw⟩).le)
        obtain ⟨het, hew⟩ := rank_eq_zero.1 hzero
        rw [hs, truncate_exact hew]
        refine ⟨fun r hr => by simpa using List.mem_takeWhile_imp hr, .inr ⟨e, he, hew, het, ?_⟩⟩
        rw [List.takeWhile_cons_of_pos (by simp [hew])]
        rfl
      · have hperm := truncate_sorted_perm env (fun e he h => hcname ⟨e, he, h⟩) ⟨x, hx, hxw⟩
        refine ⟨fun r hr => ?_, .inl hperm⟩
        simpa using (List.mem_filter.1 (hperm.subset hr)).2
    · intro hne hwild
      obtain ⟨e, rest, hs, he, hle⟩ := exists_sorted env hne
      obtain ⟨hmem, hlen⟩ := mem_preferred_of_le hwild he hle
      refine ⟨e, hmem, ?_, hlen⟩
      rw [findRewrites_fst, hs, truncate_wildcard (hwild e he)]

/-- Libraries that sort by insertion and know the letters of ASCII. -/
def asciiEnv : RewriteEnv where
  sortFunc := .insertion
  lower := Char.toLower
  validateDomainName _ := none
  quote s := "\"" ++ s ++ "\""

/-- An entry that is not yet normalised. -/
def rawRewrite (domain answer : String) : LegacyRewrite := ⟨domain, answer, .invalid, 0, true⟩

/-- An exact entry beside a wildcard one, both for canonical names. -/
def bothNames : List LegacyRewrite :=
  [⟨"*.b.com", "c.com", .invalid, typeCNAME, true⟩, ⟨"a.b.com", "d.com", .invalid, typeCNAME, true⟩]

theorem priority_iff_bothNames :
    Priority bothNames "a.b.com" typeA (findRewrites asciiEnv bothNames "a.b.com" typeA) ∧
      (findRewrites asciiEnv bothNames "a.b.com" typeA).1.map (·.answer) = ["d.com"] :=
  ⟨(priority_iff asciiEnv bothNames typeA (by decide)).2 (by decide), by decide⟩

/-- The address of `a.b.com` is not found, as `*.b.com` has a canonical name. -/
theorem wildcard_beats_exact : ∃ entries,
    prepareRewrites asciiEnv 0 [rawRewrite "*.b.com" "c.com", rawRewrite "a.b.com" "1.2.3.4"] = .ok entries ∧
      ¬ Priority entries "a.b.com" typeA (findRewrites asciiEnv entries "a.b.com" typeA) := by
  refine ⟨[⟨"*.b.com", "c.com", .invalid, typeCNAME, true⟩, ⟨"a.b.com", "1.2.3.4", .v4 0x01020304, typeA, true⟩],
    by decide, fun h => ?_⟩
  have hno := (h.exact (by decide)).1
  revert hno
  decide

end AdGuardHome.Filtering
