import AdGuardHome.Dhcpd.Replace

/-!
# Static-lease changes that fail

A call that fails leaves the state as it was exactly if it fails before it changes anything: `AddStaticLease` if its
loop meets no dynamic lease to take out or to clear the hostname of before it stops, `UpdateStaticLease` if the
argument or the stored lease is refused before the removal.
-/

namespace AdGuardHome.Dhcpd.V4Server

open AdGuardHome.Net AdGuardHome.Lib AdGuardHome.Dhcp

variable {env : HostEnv} {conf : V4ServerConf} {s : V4Server} {p : Ref}

/-- The lists, the indexes, the bit set and every record are as before. -/
structure Unchanged (s s' : V4Server) : Prop where
  leases : s'.leases = s.leases
  ipIndex : s'.ipIndex = s.ipIndex
  hostsIndex : s'.hostsIndex = s.hostsIndex
  leasedOffsets : s'.leasedOffsets = s.leasedOffsets
  records : ∀ r < s.heap.next, s'.lease r = s.lease r

theorem Unchanged.refl (s : V4Server) : Unchanged s s := ⟨rfl, rfl, rfl, rfl, fun _ _ => rfl⟩

/-- The loop for `l` over these entries stops at a static lease before it takes out an entry or clears a
hostname, or goes through without doing either. -/
def Undisturbed (s : V4Server) (l : Lease) : List Ref → Prop
  | [] => True
  | r :: rest =>
    if sameProps l (s.lease r) then (s.lease r).isStatic = true
    else ((s.lease r).isStatic = false → l.hostname ≠ "" → (s.lease r).hostname ≠ l.hostname) ∧ Undisturbed s l rest

instance Undisturbed.decidable (s : V4Server) (l : Lease) : ∀ rs, Decidable (Undisturbed s l rs)
  | [] => inferInstanceAs (Decidable True)
  | r :: rest =>
    have := Undisturbed.decidable s l rest
    inferInstanceAs (Decidable (if sameProps l (s.lease r) then _ else _ ∧ _))

/-- The first lease on the address of `r` has its hardware address and its hostname: `rmLease` accepts it. -/
def FirstOnAddress (s : V4Server) (r : Ref) : Prop :=
  ∃ r', s.leases.find? (fun x => (s.lease x).ip == (s.lease r).ip) = some r' ∧
    (s.lease r').hwAddr = (s.lease r).hwAddr ∧ (s.lease r').hostname = (s.lease r).hostname

/-! ## Adding -/

/-- The loop has removed an entry or emptied the hostname of one. -/
def Disturbed (s t : V4Server) : Prop :=
  t.leases.length < s.leases.length ∨ ∃ r ∈ s.leases, (s.lease r).hostname ≠ "" ∧ (t.lease r).hostname = ""

theorem Disturbed.not_unchanged {t t' : V4Server} (hf : Formed conf s) (h : Disturbed s t)
    (hleases : t'.leases = t.leases) (hlease : ∀ r, t'.lease r = t.lease r) : ¬ Unchanged s t' := by
  intro hun
  rcases h with hlt | ⟨r, hr, hne, hempty⟩
  · rw [← hleases, hun.leases] at hlt
    exact Nat.lt_irrefl _ hlt
  · rw [← hlease, hun.records r (hf.allocated r hr)] at hempty
    exact hne hempty

theorem Disturbed.rmLeaseByIndex {t : V4Server} (h : Disturbed s t) (i : ℕ) : Disturbed s (t.rmLeaseByIndex conf i) := by
  rcases h with hlt | ⟨r, hr, hne, hempty⟩
  · left
    rw [leases_rmLeaseByIndex]
    exact Nat.lt_of_le_of_lt (List.eraseIdx_sublist _ _).length_le hlt
  · exact .inr ⟨r, hr, hne, by rwa [lease_rmLeaseByIndex]⟩

theorem Disturbed.clearHostname {t : V4Server} (h : Disturbed s t) (r : Ref) : Disturbed s (t.clearHostname p r) := by
  rcases h with hlt | ⟨x, hx, hne, hempty⟩
  · left
    rwa [leases_clearHostname]
  · refine .inr ⟨x, hx, hne, ?_⟩
    rw [hostname_clearHostname]
    split
    · rfl
    · exact hempty

theorem undisturbed_cons_same {l : Lease} {r : Ref} {rest : List Ref} (h : sameProps l (s.lease r) = true) :
    Undisturbed s l (r :: rest) ↔ (s.lease r).isStatic = true := by
  rw [Undisturbed, if_pos h]

theorem undisturbed_cons_pass {l : Lease} {r : Ref} {rest : List Ref} (h : sameProps l (s.lease r) = false) :
    Undisturbed s l (r :: rest) ↔
      ((s.lease r).isStatic = false → l.hostname ≠ "" → (s.lease r).hostname ≠ l.hostname) ∧ Undisturbed s l rest := by
  rw [Undisturbed, if_neg (Bool.eq_false_iff.1 h)]

/-- The loop changes nothing, or it has disturbed an entry. -/
theorem rmDynamicLease_disturbs (s : V4Server) (p : Ref) :
    (Undisturbed s (s.lease p) s.leases → (s.rmDynamicLease conf p).1 = s) ∧
      (¬ Undisturbed s (s.lease p) s.leases → Disturbed s (s.rmDynamicLease conf p).1) := by
  have hshort : ∀ {pre rest : List Ref} {r : Ref}, s.leases = pre ++ r :: rest →
      Disturbed s (s.rmLeaseByIndex conf pre.length) := by
    intro pre rest r hl
    left
    rw [leases_rmLeaseByIndex, List.length_eraseIdx, if_pos (by rw [hl]; simp)]
    have hpos : s.leases.length = pre.length + (rest.length + 1) := by
      rw [hl, List.length_append, List.length_cons]
    omega
  refine rmDynamicLease_rule
    (M := fun _ post t => t = s ∧ (Undisturbed s (s.lease p) s.leases ↔ Undisturbed s (s.lease p) post) ∨
      Disturbed s t ∧ ¬ Undisturbed s (s.lease p) s.leases)
    (Q := fun t _ => (Undisturbed s (s.lease p) s.leases → t = s) ∧
      (¬ Undisturbed s (s.lease p) s.leases → Disturbed s t)) ?_ ?_ ?_ ?_ ?_ (.inl ⟨rfl, Iff.rfl⟩)
  · rintro pre r rest t - (⟨rfl, hiff⟩ | ⟨hdis, hnot⟩) hsame hst
    · rw [hiff, undisturbed_cons_same hsame]
      exact ⟨fun _ => rfl, fun h => absurd hst h⟩
    · exact ⟨fun h => absurd h hnot, fun _ => hdis⟩
  · rintro pre r t hl (⟨rfl, hiff⟩ | ⟨hdis, hnot⟩) hsame hst
    · rw [hiff, undisturbed_cons_same hsame, hst]
      exact ⟨fun h => absurd h Bool.false_ne_true, fun _ => hshort hl⟩
    · exact ⟨fun h => absurd h hnot, fun _ => hdis.rmLeaseByIndex _⟩
  · rintro pre r r' rest t hl (⟨rfl, hiff⟩ | ⟨hdis, hnot⟩) hsame hst
    · refine .inr ⟨(hshort hl).clearHostname r', ?_⟩
      rw [hiff, undisturbed_cons_same hsame, hst]
      exact Bool.false_ne_true
    · exact .inr ⟨(hdis.rmLeaseByIndex _).clearHostname r', hnot⟩
  · rintro pre r rest t hl (⟨rfl, hiff⟩ | ⟨hdis, hnot⟩) hsame
    · by_cases hkeep : (t.lease r).isStatic = false → (t.lease p).hostname ≠ "" →
          (t.lease r).hostname ≠ (t.lease p).hostname
      · left
        constructor
        · split
          · rfl
          · rename_i hst
            apply clearHostname_eq_self
            intro heq
            by_contra hempty
            exact hkeep (by simpa using hst) (heq ▸ hempty) heq
        · rw [hiff, undisturbed_cons_pass hsame]
          exact ⟨fun h => h.2, fun h => ⟨hkeep, h⟩⟩
      · -- the hostname is cleared
        right
        push Not at hkeep
        obtain ⟨hst, hne, heq⟩ := hkeep
        rw [hst, if_neg Bool.false_ne_true]
        constructor
        · refine .inr ⟨r, by rw [hl]; simp, by rwa [heq], ?_⟩
          rw [hostname_clearHostname, if_pos ⟨rfl, heq⟩]
        · rw [hiff, undisturbed_cons_pass hsame]
          exact fun h => h.1 hst hne heq
    · right
      refine ⟨?_, hnot⟩
      split
      · exact hdis
      · exact hdis.clearHostname r
  · rintro t res (⟨rfl, hiff⟩ | ⟨hdis, hnot⟩) -
    · exact ⟨fun _ => rfl, fun h => absurd (hiff.2 trivial) h⟩
    · exact ⟨fun h => absurd h hnot, fun _ => hdis⟩

theorem undisturbed_congr {s' : V4Server} {l : Lease} {rs : List Ref} (h : ∀ r ∈ rs, s'.lease r = s.lease r) :
    Undisturbed s' l rs ↔ Undisturbed s l rs := by
  induction rs with
  | nil => exact Iff.rfl
  | cons r rs ih =>
    rw [Undisturbed, Undisturbed, h r List.mem_cons_self, ih fun x hx => h x (List.mem_cons_of_mem r hx)]

/-- An addition that fails leaves what its loop has left. -/
theorem addStaticLease_error {l l' : Lease} {e : Err} (hl : prepareStatic env conf l = .ok l')
    (h : (s.addStaticLease env conf l).2 = .error e) :
    (s.addStaticLease env conf l).1 = ((s.alloc l').rmDynamicLease conf s.heap.next).1 := by
  unfold addStaticLease at h ⊢
  rw [hl] at h ⊢
  dsimp only at h ⊢
  unfold updateStaticLease at h ⊢
  generalize (s.alloc l').rmDynamicLease conf s.heap.next = res at h ⊢
  obtain ⟨t, stale, e' | ⟨⟨⟩⟩⟩ := res
  · rfl
  · dsimp only at h ⊢
    rcases addLease_cases t s.heap.next with ⟨e', heq⟩ | ⟨heq, -⟩
    · rw [heq]
    · rw [heq] at h
      cases h

theorem addStaticLease_unchanged_iff (hf : Formed conf s) {l : Lease} {e : Err}
    (h : (s.addStaticLease env conf l).2 = .error e) :
    Unchanged s (s.addStaticLease env conf l).1 ↔
      ∀ l', prepareStatic env conf l = .ok l' → Undisturbed s l' s.leases := by
  cases hl : prepareStatic env conf l with
  | error e' =>
    have hstay : (s.addStaticLease env conf l).1 = s := by
      unfold addStaticLease
      rw [hl]
    rw [hstay]
    exact iff_of_true (.refl s) fun l' hl' => by cases hl'
  | ok l' =>
    have hold : ∀ r ∈ s.leases, (s.alloc l').lease r = s.lease r := fun r hr =>
      lease_alloc_of_lt s (hf.allocated r hr) l'
    obtain ⟨hstay, hdis⟩ := @rmDynamicLease_disturbs conf (s.alloc l') s.heap.next
    rw [lease_alloc_next, leases_alloc, undisturbed_congr hold] at hstay hdis
    rw [addStaticLease_error hl h]
    have hiff : (∀ l'', Except.ok (ε := Err) l' = .ok l'' → Undisturbed s l'' s.leases) ↔ Undisturbed s l' s.leases :=
      ⟨fun h => h l' rfl, fun h l'' hl'' => by cases hl''; exact h⟩
    rw [hiff]
    constructor
    · intro hun
      by_contra hnot
      have hdis' : Disturbed s ((s.alloc l').rmDynamicLease conf s.heap.next).1 := by
        rcases hdis hnot with hlt | ⟨r, hr, hne, hempty⟩
        · exact .inl hlt
        · exact .inr ⟨r, hr, hold r hr ▸ hne, hempty⟩
      exact hdis'.not_unchanged hf rfl (fun _ => rfl) hun
    · intro hun
      rw [hstay hun]
      exact ⟨rfl, rfl, rfl, rfl, fun r hr => lease_alloc_of_lt s hr l'⟩

/-! ## Updating -/

theorem rmLease_ok_iff {r : Ref} (hr : r ∈ s.leases) :
    (s.rmLease conf (s.lease r)).2 = .ok () ↔ FirstOnAddress s r := by
  have hne : s.leases ≠ [] := List.ne_nil_of_mem hr
  unfold FirstOnAddress rmLease
  rw [List.find?_eq_bind_findIdx?_getElem?, if_neg hne]
  cases hi : s.leases.findIdx? fun x => (s.lease x).ip == (s.lease r).ip with
  | none => simp
  | some i =>
    dsimp only [Option.bind_some]
    cases hget : s.leases[i]? with
    | none => simp
    | some r' =>
      dsimp only
      split
      · rename_i hdiff
        simp only [Option.some.injEq, exists_eq_left', reduceCtorEq, false_iff]
        tauto
      · rename_i hsame
        simp only [Option.some.injEq, exists_eq_left', true_iff]
        tauto

/-- The argument of `UpdateStaticLease` or the stored lease is refused before the removal. -/
def UpdateRefused (env : HostEnv) (conf : V4ServerConf) (s : V4Server) (l : Lease) : Prop :=
  ∀ found l', s.findLease l.hwAddr = some found → s.validateStaticLease env conf l = .ok l' →
    ¬ FirstOnAddress s found

theorem updateStatic_unchanged_iff {l : Lease} {e : Err}
    (h : (s.updateStatic env conf l).2 = .error e) :
    Unchanged s (s.updateStatic env conf l).1 ↔ UpdateRefused env conf s l := by
  unfold V4Server.updateStatic at h ⊢
  unfold UpdateRefused
  cases hfind : s.findLease l.hwAddr with
  | none => exact iff_of_true (.refl s) fun found l' hfound => by cases hfound
  | some found =>
    have hmem : found ∈ s.leases := List.mem_of_find?_eq_some hfind
    rw [hfind] at h
    dsimp only at h ⊢
    cases hv : s.validateStaticLease env conf l with
    | error e' => exact iff_of_true (.refl s) fun found l' _ hl' => by cases hl'
    | ok l' =>
      rw [hv] at h
      dsimp only at h ⊢
      have hok := @rmLease_ok_iff conf s found hmem
      rcases rmLease_cases s (s.lease found) with ⟨e', heq⟩ | ⟨hnil, -⟩ | ⟨i, r, hi, -, -, -, heq⟩
      · rw [heq] at hok ⊢
        refine iff_of_true (.refl s) fun found' l'' hfound _ hfirst => ?_
        cases hfound
        cases hok.2 hfirst
      · rw [hnil] at hmem
        cases hmem
      · rw [heq] at h hok ⊢
        dsimp only at h ⊢
        rcases addLease_cases ((s.rmLeaseByIndex conf i).alloc l') (s.rmLeaseByIndex conf i).heap.next with
          ⟨e', hadd⟩ | ⟨hadd, -⟩
        · rw [hadd]
          refine iff_of_false (fun hun => ?_) fun hrefused => hrefused found l' rfl rfl (hok.1 rfl)
          have hlen := congrArg List.length hun.leases
          rw [leases_alloc, leases_rmLeaseByIndex, List.length_eraseIdx] at hlen
          obtain ⟨hlt, -⟩ := List.getElem?_eq_some_iff.1 hi
          rw [if_pos hlt] at hlen
          omega
        · rw [hadd] at h
          cases h

/-! ## Both -/

/-- A call that changes the static leases. -/
inductive StaticCall
  | add (l : Lease)
  | update (l : Lease)

/-- The state and the result after the call. -/
def StaticCall.apply (env : HostEnv) (conf : V4ServerConf) (s : V4Server) : StaticCall → V4Server × Except Err Unit
  | .add l => s.addStaticLease env conf l
  | .update l => s.updateStatic env conf l

/-- Nothing is changed before the call fails. -/
def StaticCall.FailsFirst (env : HostEnv) (conf : V4ServerConf) (s : V4Server) : StaticCall → Prop
  | .add l => ∀ l', prepareStatic env conf l = .ok l' → Undisturbed s l' s.leases
  | .update l => UpdateRefused env conf s l

/-- A call that fails leaves the state as it was if and only if it fails before it changes anything. -/
theorem failed_unchanged_iff (hs : Reachable env conf s) {call : StaticCall} {e : Err}
    (h : (call.apply env conf s).2 = .error e) :
    Unchanged s (call.apply env conf s).1 ↔ call.FailsFirst env conf s := by
  cases call with
  | add l => exact addStaticLease_unchanged_iff hs.formed h
  | update l => exact updateStatic_unchanged_iff h

/-- The second client's lease has become static. -/
def printerStored : V4Server :=
  run (step asciiEnv lanConf) (resetLeases asciiEnv lanConf empty [])
    [.discover (lanRequest [2, 0, 0, 0, 0, 1] none "") 1 [], .discover (lanRequest [2, 0, 0, 0, 0, 2] none "") 1 [],
      .addStatic (printerLease 0xc0a80a65 [2, 0, 0, 0, 0, 2])]

theorem failed_unchanged_printer :
    Unchanged printerStored
      (StaticCall.apply asciiEnv lanConf printerStored (.add (printerLease 0xc0a80a65 [2, 0, 0, 0, 0, 3]))).1 := by
  have hreach : Reachable asciiEnv lanConf printerStored := ⟨[], _, by simp, rfl⟩
  have herr : (StaticCall.apply asciiEnv lanConf printerStored (.add (printerLease 0xc0a80a65 [2, 0, 0, 0, 0, 3]))).2 =
      .error .staticLeaseExists := by decide +kernel
  have hprepare : prepareStatic asciiEnv lanConf (printerLease 0xc0a80a65 [2, 0, 0, 0, 0, 3]) =
      .ok (printerLease 0xc0a80a65 [2, 0, 0, 0, 0, 3]) := by decide +kernel
  refine (failed_unchanged_iff hreach herr).2 fun l' hl' => ?_
  cases hprepare.symm.trans hl'
  decide +kernel

/-- A lease outside of the subnet takes out the dynamic lease of the client before it is refused. -/
theorem not_failed_unchanged_outside :
    ¬ ∀ (env : HostEnv) (conf : V4ServerConf) (s : V4Server), Reachable env conf s → ∀ (call : StaticCall) (e : Err),
      (call.apply env conf s).2 = .error e → Unchanged s (call.apply env conf s).1 := by
  intro h
  have hun := h asciiEnv lanConf twoLeases reachable_twoLeases (.add (printerLease 0x0a000001 [2, 0, 0, 0, 0, 1]))
    .notInSubnet (by decide +kernel)
  have hlen := congrArg List.length hun.leases
  revert hlen
  decide +kernel

end AdGuardHome.Dhcpd.V4Server
