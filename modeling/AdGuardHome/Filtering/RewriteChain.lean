import AdGuardHome.Lib.Chain
import AdGuardHome.Filtering.RewritePriority

/-!
# Chains of canonical names

The loop of `handleRewriteLoop` follows the first canonical name of each host (`nextName`).  As it never takes one
twice, it ends in one turn more than there are entries at most.
-/

namespace AdGuardHome.Filtering

open AdGuardHome.Lib

variable {env : RewriteEnv} {entries : List LegacyRewrite} {conf : RewriteConf} {origHost host : String} {qtype : UInt16}
  {cnames names : List String} {res : Result} {turns : ℕ} {rw : LegacyRewrite}

/-! ## One turn -/

/-- The first entry for a host, if it has a canonical name. -/
def firstCNAME (env : RewriteEnv) (entries : List LegacyRewrite) (qtype : UInt16) (host : String) :
    Option LegacyRewrite :=
  (findRewrites env entries host qtype).1.head?.filter fun rw => rw.type = typeCNAME

/-- The name that is followed from a host. -/
def nextName (env : RewriteEnv) (entries : List LegacyRewrite) (qtype : UInt16) (host : String) : Option String :=
  (firstCNAME env entries qtype host).map LegacyRewrite.answer

theorem mem_of_mem_found {e : LegacyRewrite} (he : e ∈ (findRewrites env entries host qtype).1) :
    e ∈ matching entries host qtype := by
  rw [findRewrites_fst] at he
  refine (env.sortFunc.perm LegacyRewrite.compare _).subset ?_
  unfold truncate at he
  split at he
  · exact List.mem_of_mem_take he
  · exact he

theorem found_matched {e : LegacyRewrite} (he : e ∈ (findRewrites env entries host qtype).1) :
    (findRewrites env entries host qtype).2 = true := by
  have hmem := mem_matching.1 (mem_of_mem_found he)
  exact findRewrites_snd.2 ⟨e, hmem.1, hmem.2.1⟩

theorem firstCNAME_eq_some (h : firstCNAME env entries qtype host = some rw) :
    rw ∈ matching entries host qtype ∧ rw.type = typeCNAME ∧
      ∃ rest, (findRewrites env entries host qtype).1 = rw :: rest := by
  obtain ⟨hhead, htype⟩ := Option.filter_eq_some_iff.1 h
  obtain ⟨rest, hrest⟩ := List.head?_eq_some_iff.1 hhead
  exact ⟨mem_of_mem_found (hrest ▸ List.mem_cons_self), by simpa using htype, rest, hrest⟩

variable (conf) in
/-- The loop where the first entry for the host is no canonical name. -/
theorem loop_end (h : firstCNAME env conf.rewrites qtype host = none) :
    handleRewriteLoop env conf origHost qtype (turns + 1) cnames host (findRewrites env conf.rewrites host qtype) res =
      some (setRewriteResult qtype res (findRewrites env conf.rewrites host qtype).1) := by
  rcases hfound : findRewrites env conf.rewrites host qtype with ⟨_ | ⟨rw, rest⟩, matched⟩
  · rfl
  · rw [firstCNAME, hfound] at h
    have htype : ¬ rw.type = typeCNAME := by simpa using h
    simp [handleRewriteLoop, htype]

variable (conf) in
/-- A turn of the loop. -/
theorem loop_turn (h : firstCNAME env conf.rewrites qtype host = some rw) :
    handleRewriteLoop env conf origHost qtype (turns + 1) cnames host (findRewrites env conf.rewrites host qtype) res =
      if origHost = rw.answer ∨ rw.domain = rw.answer then some {}
      else if host = rw.answer ∧ isWildcard rw.domain = true then
        some (setRewriteResult qtype { res with canonName := host } (findRewrites env conf.rewrites host qtype).1)
      else if rw.answer ∈ cnames then some res
      else
        handleRewriteLoop env conf origHost qtype turns (rw.answer :: cnames) rw.answer
          (findRewrites env conf.rewrites rw.answer qtype) { res with canonName := rw.answer } := by
  obtain ⟨-, htype, rest, hrest⟩ := firstCNAME_eq_some h
  have hmatched : (findRewrites env conf.rewrites host qtype).2 = true := found_matched (hrest ▸ List.mem_cons_self)
  rcases hfound : findRewrites env conf.rewrites host qtype with ⟨found, matched⟩
  rw [hfound] at hrest hmatched
  subst hrest
  subst hmatched
  simp [handleRewriteLoop, htype]

/-! ## The loop ends -/

/-- The loop ends in as many turns as there are answers that are not followed yet, and one more. -/
theorem loop_terminates
    (hturns : (conf.rewrites.map LegacyRewrite.answer).countP (fun name => name ∉ cnames) < turns) :
    ∃ out, ∀ more, handleRewriteLoop env conf origHost qtype (turns + more) cnames host
      (findRewrites env conf.rewrites host qtype) res = some out := by
  induction turns generalizing cnames host res with
  | zero => omega
  | succ turns ih =>
    simp only [Nat.succ_add]
    cases hfirst : firstCNAME env conf.rewrites qtype host with
    | none => exact ⟨_, fun _ => loop_end _ hfirst⟩
    | some rw =>
      simp only [loop_turn _ hfirst]
      split
      case isTrue => exact ⟨_, fun _ => rfl⟩
      case isFalse =>
        split
        case isTrue => exact ⟨_, fun _ => rfl⟩
        case isFalse =>
          split
          case isTrue => exact ⟨_, fun _ => rfl⟩
          case isFalse hnew =>
            have hmem := (mem_matching.1 (firstCNAME_eq_some hfirst).1).1
            have := countP_unvisited_lt (List.mem_map_of_mem (f := LegacyRewrite.answer) hmem) hnew
            exact ih (by omega)

/-- The result, for every bound on the turns that is large enough. -/
def Returns (env : RewriteEnv) (conf : RewriteConf) (host : String) (qtype : UInt16) (res : Result) : Prop :=
  ∃ n, ∀ turns, n ≤ turns → processRewrites env conf turns host qtype = some res

theorem exists_returns (env : RewriteEnv) (conf : RewriteConf) (host : String) (qtype : UInt16) :
    ∃ res, Returns env conf host qtype res := by
  by_cases henabled : conf.rewritesEnabled = true
  · by_cases hmatched : (findRewrites env conf.rewrites host qtype).2 = true
    · have hends : ∃ out, ∀ more, handleRewriteLoop env conf host qtype (conf.rewrites.length + 1 + more) [] host
          (findRewrites env conf.rewrites host qtype) { reason := .rewritten } = some out := loop_terminates (by simp)
      obtain ⟨out, hout⟩ := hends
      refine ⟨out, conf.rewrites.length + 1, fun turns hle => ?_⟩
      obtain ⟨more, rfl⟩ := Nat.exists_eq_add_of_le hle
      simp [processRewrites, henabled, hmatched, hout more]
    · exact ⟨{}, 0, fun _ _ => by simp [processRewrites, henabled, hmatched]⟩
  · exact ⟨{}, 0, fun _ _ => by simp [processRewrites, henabled]⟩

/-! ## The result at the end of a chain -/

/-- The entries with addresses for a question. -/
def addressEntries (qtype : UInt16) (rws : List LegacyRewrite) : List LegacyRewrite :=
  rws.filter fun rw => rw.type = qtype ∧ (qtype = typeA ∨ qtype = typeAAAA)

/-- Only the addresses and the reason are set. -/
theorem setRewriteResult_canonName (rws : List LegacyRewrite) (res : Result) :
    (setRewriteResult qtype res rws).canonName = res.canonName := by
  induction rws generalizing res with
  | nil => rfl
  | cons rw rws ih =>
    unfold setRewriteResult
    split
    · split
      · rfl
      · rw [ih]
    · exact ih res

theorem setRewriteResult_ipList {rws : List LegacyRewrite} (h : ∀ rw ∈ addressEntries qtype rws, rw.ip ≠ .invalid)
    (res : Result) :
    (setRewriteResult qtype res rws).ipList = res.ipList ++ (addressEntries qtype rws).map LegacyRewrite.ip := by
  induction rws generalizing res with
  | nil => exact (List.append_nil _).symm
  | cons rw rws ih =>
    unfold setRewriteResult
    unfold addressEntries at h ⊢
    by_cases htype : rw.type = qtype ∧ (qtype = typeA ∨ qtype = typeAAAA)
    · rw [List.filter_cons_of_pos (by simpa using htype)] at h ⊢
      obtain ⟨hip, hrest⟩ := List.forall_mem_cons.1 h
      rw [if_pos htype, if_neg hip, ih hrest, List.map_cons, List.append_assoc]
      rfl
    · rw [List.filter_cons_of_neg (by simpa using htype)] at h ⊢
      rw [if_neg htype]
      exact ih h res

/-- The loop at a chain of names that ends, with no name taken twice and no pattern rewritten onto itself. -/
theorem loop_follows (hfollows : Follows (nextName env conf.rewrites qtype) host names)
    (hend : nextName env conf.rewrites qtype (names.getLastD host) = none) (hnodup : (host :: names).Nodup)
    (horig : origHost ∉ names) (hcnames : ∀ c ∈ cnames, c ∉ names)
    (hself : ∀ h ∈ host :: names, ∀ rw, firstCNAME env conf.rewrites qtype h = some rw → rw.domain ≠ rw.answer)
    (res : Result) (more : ℕ) :
    handleRewriteLoop env conf origHost qtype (names.length + 1 + more) cnames host
        (findRewrites env conf.rewrites host qtype) res =
      some (setRewriteResult qtype { res with canonName := names.getLastD res.canonName }
        (findRewrites env conf.rewrites (names.getLastD host) qtype).1) := by
  induction names generalizing cnames host res with
  | nil =>
    have hnone : firstCNAME env conf.rewrites qtype host = none := by simpa [nextName] using hend
    simp only [List.length_nil, Nat.zero_add, Nat.add_comm 1 more]
    exact loop_end _ hnone
  | cons b bs ih =>
    obtain ⟨hnext, hrest⟩ := hfollows
    obtain ⟨rw, hfirst, hanswer⟩ := Option.map_eq_some_iff.1 hnext
    subst hanswer
    obtain ⟨hhost, hnodup⟩ := List.nodup_cons.1 hnodup
    have hne : ¬ host = rw.answer := fun h => hhost (h ▸ List.mem_cons_self)
    have horig' : ¬ origHost = rw.answer := fun h => horig (h ▸ List.mem_cons_self)
    have hnew : rw.answer ∉ cnames := fun h => hcnames _ h List.mem_cons_self
    have hdomain := hself host List.mem_cons_self rw hfirst
    rw [List.getLastD_cons] at hend
    have hcnames' : ∀ c ∈ rw.answer :: cnames, c ∉ bs :=
      List.forall_mem_cons.2 ⟨(List.nodup_cons.1 hnodup).1, fun c hc h => hcnames c hc (List.mem_cons_of_mem _ h)⟩
    have hturn := ih hrest hend hnodup (fun h => horig (List.mem_cons_of_mem _ h)) hcnames'
      (fun h hh => hself h (List.mem_cons_of_mem _ hh)) { res with canonName := rw.answer }
    rw [List.length_cons, show bs.length + 1 + 1 + more = (bs.length + 1 + more) + 1 by omega, loop_turn _ hfirst,
      if_neg (not_or.2 ⟨horig', hdomain⟩), if_neg (fun h => hne h.1), if_neg hnew, hturn]
    simp only [List.getLastD_cons]

/-! ## A chain that comes back -/

/-- The names that were followed are ones from which the chain comes to the host, and on from it to where it started. -/
def Behind (next : String → Option String) (origHost : String) (cnames names : List String) : Prop :=
  ∀ c ∈ cnames, ∃ before, FirstReach next origHost c (before ++ names)

/-- The loop at a chain that comes back to the name that it started from. -/
theorem loop_returns (hreach : FirstReach (nextName env conf.rewrites qtype) origHost host names)
    (hbehind : Behind (nextName env conf.rewrites qtype) origHost cnames names) (more : ℕ) :
    handleRewriteLoop env conf origHost qtype (names.length + more) cnames host
      (findRewrites env conf.rewrites host qtype) res = some {} := by
  induction hreach generalizing cnames res with
  | last hnext =>
    obtain ⟨rw, hfirst, rfl⟩ := Option.map_eq_some_iff.1 hnext
    rw [List.length_singleton, Nat.add_comm 1 more, loop_turn _ hfirst, if_pos (.inl rfl)]
  | @step host b bs hnext hne hrest ih =>
    have hhost := FirstReach.step hnext hne hrest
    obtain ⟨rw, hfirst, rfl⟩ := Option.map_eq_some_iff.1 hnext
    rw [List.length_cons, show bs.length + 1 + more = (bs.length + more) + 1 by omega, loop_turn _ hfirst]
    split
    case isTrue => rfl
    case isFalse =>
      rw [if_neg, if_neg]
      · refine ih fun c hc => ?_
        rcases List.mem_cons.1 hc with rfl | hc
        · exact ⟨[], hrest⟩
        · obtain ⟨before, hc⟩ := hbehind c hc
          exact ⟨before ++ [rw.answer], by simpa using hc⟩
      · -- A name that was followed is further from the end.
        intro hc
        obtain ⟨before, hc⟩ := hbehind _ hc
        have hlength := congrArg List.length (hc.unique hrest)
        simp at hlength
        omega
      · rintro ⟨rfl, -⟩
        have hlength := congrArg List.length (hhost.unique hrest)
        simp at hlength

/-! ## Chains resolve -/

theorem processRewrites_matched (hmatched : (findRewrites env entries host qtype).2 = true) :
    processRewrites env ⟨entries, true⟩ turns host qtype =
      handleRewriteLoop env ⟨entries, true⟩ host qtype turns [] host (findRewrites env entries host qtype)
        { reason := .rewritten } := by
  simp [processRewrites, hmatched]

theorem processRewrites_unmatched (hmatched : ¬ (findRewrites env entries host qtype).2 = true) :
    processRewrites env ⟨entries, true⟩ turns host qtype = some {} := by
  simp [processRewrites, hmatched]

theorem returns_loop {n : ℕ} (hmatched : (findRewrites env entries host qtype).2 = true)
    (h : ∀ more, handleRewriteLoop env ⟨entries, true⟩ host qtype (n + more) [] host
      (findRewrites env entries host qtype) { reason := .rewritten } = some res) :
    Returns env ⟨entries, true⟩ host qtype res := by
  refine ⟨n, fun turns hle => ?_⟩
  obtain ⟨more, rfl⟩ := Nat.exists_eq_add_of_le hle
  rw [processRewrites_matched hmatched, h more]

/-- The result at a chain that ends. -/
theorem returns_follows (hmatched : (findRewrites env entries host qtype).2 = true)
    (hfollows : Follows (nextName env entries qtype) host names)
    (hend : nextName env entries qtype (names.getLastD host) = none) (hnodup : (host :: names).Nodup)
    (hself : ∀ h ∈ host :: names, ∀ rw, firstCNAME env entries qtype h = some rw → rw.domain ≠ rw.answer) :
    Returns env ⟨entries, true⟩ host qtype
      (setRewriteResult qtype { reason := .rewritten, canonName := names.getLastD "" }
        (findRewrites env entries (names.getLastD host) qtype).1) :=
  returns_loop hmatched (loop_follows hfollows hend hnodup (List.nodup_cons.1 hnodup).1 (by simp) hself
    { reason := .rewritten })

/-- Nothing is rewritten at a chain that comes back. -/
theorem returns_empty (hfollows : Follows (nextName env entries qtype) host names) (hmem : host ∈ names) :
    Returns env ⟨entries, true⟩ host qtype {} := by
  obtain ⟨cs, hreach⟩ := hfollows.firstReach hmem
  by_cases hmatched : (findRewrites env entries host qtype).2 = true
  · exact returns_loop hmatched (loop_returns hreach (by simp [Behind]))
  · exact ⟨0, fun _ _ => processRewrites_unmatched hmatched⟩

/-- The rewrites of a host end.  A chain that ends gives its last name, and the addresses found for it; one that comes
back to the host gives nothing. -/
theorem chains_resolve (env : RewriteEnv) (entries : List LegacyRewrite) (host : String) (qtype : UInt16) :
    (∀ enabled, ∃ res, Returns env ⟨entries, enabled⟩ host qtype res) ∧
    (∀ names, Follows (nextName env entries qtype) host names →
      nextName env entries qtype (names.getLastD host) = none → (host :: names).Nodup →
        (∀ h ∈ host :: names, ∀ rw, firstCNAME env entries qtype h = some rw → rw.domain ≠ rw.answer) →
          ∃ res, Returns env ⟨entries, true⟩ host qtype res ∧ res.canonName = names.getLastD "" ∧
            ((∀ rw ∈ addressEntries qtype (findRewrites env entries (names.getLastD host) qtype).1, rw.ip ≠ .invalid) →
              res.ipList =
                (addressEntries qtype (findRewrites env entries (names.getLastD host) qtype).1).map LegacyRewrite.ip)) ∧
    (∀ names, Follows (nextName env entries qtype) host names → host ∈ names →
      Returns env ⟨entries, true⟩ host qtype {}) := by
  refine ⟨fun enabled => exists_returns env _ host qtype, fun names hfollows hend hnodup hself => ?_,
    fun names hfollows hmem => ?_⟩
  · by_cases hmatched : (findRewrites env entries host qtype).2 = true
    · refine ⟨_, returns_follows hmatched hfollows hend hnodup hself, setRewriteResult_canonName _ _, fun hips => ?_⟩
      rw [setRewriteResult_ipList hips]
      rfl
    · -- Nothing is found, so that there is no name to follow.
      have hnil : (findRewrites env entries host qtype).1 = [] :=
        List.eq_nil_iff_forall_not_mem.2 fun e he => hmatched (found_matched he)
      cases names with
      | cons b bs => simp [Follows, nextName, firstCNAME, hnil] at hfollows
      | nil =>
        refine ⟨{}, ⟨0, fun _ _ => processRewrites_unmatched hmatched⟩, rfl, fun _ => ?_⟩
        simp [hnil, addressEntries]
  · exact returns_empty hfollows hmem

/-- `a` is `b`, and `b` is at `1.2.3.4`. -/
def twoEntries : List LegacyRewrite :=
  [⟨"a", "b", .invalid, typeCNAME, true⟩, ⟨"b", "1.2.3.4", .v4 0x01020304, typeA, true⟩]

theorem chains_resolve_two : ∃ res, Returns asciiEnv ⟨twoEntries, true⟩ "a" typeA res ∧ res.canonName = "b" ∧
    res.ipList = [.v4 0x01020304] := by
  obtain ⟨res, hreturns, hcanon, hips⟩ := (chains_resolve asciiEnv twoEntries "a" typeA).2.1 ["b"] (by decide) (by decide)
    (by decide) (by decide)
  exact ⟨res, hreturns, hcanon, hips (by decide)⟩

end AdGuardHome.Filtering
