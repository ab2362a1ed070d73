import AdGuardHome.Dhcpd.Operations

/-!
# The loop of `rmDynamicLease`

The loop removes entries from the list that it ranges over.  After a removal the next entry takes the place
of the removed one and the loop goes on behind it: this entry is stepped over.  Its hostname may be
cleared, as that of a dynamic entry that does not match, but it stays in the list whatever its properties.
Behind the entries still in use the array holds copies of the last one; they change nothing.
-/

namespace AdGuardHome.Dhcpd.V4Server

open AdGuardHome.Net AdGuardHome.Lib AdGuardHome.Dhcp

variable {conf : V4ServerConf} {s : V4Server} {p : Ref}

/-! ## What the loop visits -/

/-- The entries that the loop for `lease` steps over. -/
def steppedOver (s : V4Server) (lease : Lease) : List Ref → List Ref
  | a :: b :: rest =>
    if sameProps lease (s.lease a) then
      if (s.lease a).isStatic then [] else b :: steppedOver s lease rest
    else steppedOver s lease (b :: rest)
  | _ => []

/-- The entries that the loop for `lease` looks at and leaves in place. -/
def passed (s : V4Server) (lease : Lease) : List Ref → List Ref
  | [] => []
  | [a] => if sameProps lease (s.lease a) then [] else [a]
  | a :: b :: rest =>
    if sameProps lease (s.lease a) then
      if (s.lease a).isStatic then [] else passed s lease rest
    else a :: passed s lease (b :: rest)

/-- The loop for `lease` empties no hostname that is not empty already. -/
def KeepsNames (s : V4Server) (lease : Lease) (l : List Ref) : Prop :=
  lease.hostname ≠ "" →
    (∀ r ∈ steppedOver s lease l, (s.lease r).hostname ≠ lease.hostname) ∧
      ∀ r ∈ passed s lease l, (s.lease r).isStatic = false → (s.lease r).hostname ≠ lease.hostname

instance (s : V4Server) (lease : Lease) (l : List Ref) : Decidable (KeepsNames s lease l) :=
  inferInstanceAs (Decidable (_ → _ ∧ _))

theorem mem_of_mem_steppedOver {lease : Lease} {l : List Ref} {r : Ref} (h : r ∈ steppedOver s lease l) : r ∈ l := by
  fun_induction steppedOver s lease l with
  | case1 => cases h
  | case2 a b rest _ _ ih =>
    rcases List.mem_cons.1 h with rfl | h
    · simp
    · simp [ih h]
  | case3 a b rest _ ih => exact List.mem_cons_of_mem a (ih h)
  | case4 => cases h

/-- What the loop steps over depends on the records of the entries only. -/
theorem steppedOver_congr {s' : V4Server} {lease : Lease} {l : List Ref} (h : ∀ r ∈ l, s'.lease r = s.lease r) :
    steppedOver s' lease l = steppedOver s lease l := by
  fun_induction steppedOver s lease l with
  | case1 a b rest hsame hst => rw [steppedOver, h a (by simp), if_pos hsame, if_pos hst]
  | case2 a b rest hsame hst ih =>
    rw [steppedOver, h a (by simp), if_pos hsame, if_neg hst, ih fun r hr => h r (by simp [hr])]
  | case3 a b rest hsame ih =>
    rw [steppedOver, h a (by simp), if_neg hsame, ih fun r hr => h r (List.mem_cons_of_mem a hr)]
  | case4 l hl =>
    unfold steppedOver
    split
    · rename_i a b rest; exact absurd rfl (hl a b rest)
    · rfl

theorem mem_of_mem_passed {lease : Lease} {l : List Ref} {r : Ref} (h : r ∈ passed s lease l) : r ∈ l := by
  fun_induction passed s lease l with
  | case1 => cases h
  | case2 => cases h
  | case3 => exact h
  | case4 => cases h
  | case5 a b rest _ _ ih => simp [ih h]
  | case6 a b rest _ ih =>
    rcases List.mem_cons.1 h with rfl | h
    · simp
    · exact List.mem_cons_of_mem a (ih h)

theorem passed_congr {s' : V4Server} {lease : Lease} {l : List Ref} (h : ∀ r ∈ l, s'.lease r = s.lease r) :
    passed s' lease l = passed s lease l := by
  fun_induction passed s lease l with
  | case1 => rfl
  | case2 a hsame => rw [passed, h a (by simp), if_pos hsame]
  | case3 a hsame => rw [passed, h a (by simp), if_neg hsame]
  | case4 a b rest hsame hst => rw [passed, h a (by simp), if_pos hsame, if_pos hst]
  | case5 a b rest hsame hst ih =>
    rw [passed, h a (by simp), if_pos hsame, if_neg hst, ih fun r hr => h r (by simp [hr])]
  | case6 a b rest hsame ih =>
    rw [passed, h a (by simp), if_neg hsame, ih fun r hr => h r (List.mem_cons_of_mem a hr)]

theorem keepsNames_congr {s' : V4Server} {lease : Lease} {l : List Ref} (h : ∀ r ∈ l, s'.lease r = s.lease r) :
    KeepsNames s' lease l ↔ KeepsNames s lease l := by
  unfold KeepsNames
  rw [steppedOver_congr h, passed_congr h]
  constructor <;> intro hk hne <;> obtain ⟨hso, hpa⟩ := hk hne <;>
    refine ⟨fun r hr => ?_, fun r hr => ?_⟩
  · rw [← h r (mem_of_mem_steppedOver hr)]; exact hso r hr
  · rw [← h r (mem_of_mem_passed hr)]; exact hpa r hr
  · rw [h r (mem_of_mem_steppedOver hr)]; exact hso r hr
  · rw [h r (mem_of_mem_passed hr)]; exact hpa r hr

/-! ## Clearing a hostname -/

theorem clearHostname_eq_modify (s : V4Server) (p r : Ref) :
    s.clearHostname p r = s ∨ s.clearHostname p r = s.modify r fun l => { l with hostname := "" } := by
  unfold clearHostname
  split
  · exact .inr rfl
  · exact .inl rfl

@[simp] theorem leases_clearHostname (s : V4Server) (p r : Ref) : (s.clearHostname p r).leases = s.leases := by
  rcases clearHostname_eq_modify s p r with h | h <;> rw [h]
  rfl

/-- The other fields of every record stay. -/
theorem lease_clearHostname (s : V4Server) (p r x : Ref) :
    ((s.clearHostname p r).lease x).ip = (s.lease x).ip ∧
      ((s.clearHostname p r).lease x).hwAddr = (s.lease x).hwAddr ∧
      ((s.clearHostname p r).lease x).isStatic = (s.lease x).isStatic := by
  rcases clearHostname_eq_modify s p r with h | h <;> rw [h]
  · exact ⟨rfl, rfl, rfl⟩
  · rw [lease_modify]
    split
    · rename_i hx; rw [hx]; exact ⟨rfl, rfl, rfl⟩
    · exact ⟨rfl, rfl, rfl⟩

/-- Clearing an empty hostname changes nothing. -/
theorem clearHostname_eq_self {r : Ref} (h : (s.lease r).hostname = (s.lease p).hostname → (s.lease r).hostname = "") :
    s.clearHostname p r = s := by
  unfold clearHostname
  split
  · rename_i heq
    have hempty := h heq
    have hsame : { s.lease r with hostname := "" } = s.lease r := by rw [← hempty]
    have hcells : Function.update s.heap.cells r { s.heap.cells r with hostname := "" } = s.heap.cells := by
      rw [show { s.heap.cells r with hostname := "" } = s.heap.cells r from hsame, Function.update_eq_self]
    unfold modify Heap.modify
    rw [hcells]
  · rfl

/-! ## One turn -/

/-- A turn at an entry still in use. -/
theorem rmDynamicLoop_succ {pre rest : List Ref} {r : Ref} (hs : s.leases = pre ++ r :: rest) (k : ℕ)
    (stale : List Ref) :
    rmDynamicLoop conf p (k + 1) pre.length s stale =
      if sameProps (s.lease p) (s.lease r) then
        if (s.lease r).isStatic then (s, stale, .error .staticLeaseExists)
        else match rest with
          | [] => (s.rmLeaseByIndex conf pre.length, r :: stale, .ok ())
          | r' :: rest' => rmDynamicLoop conf p k (pre.length + 1)
              ((s.rmLeaseByIndex conf pre.length).clearHostname p r') ((r' :: rest').getLast (by simp) :: stale)
      else rmDynamicLoop conf p k (pre.length + 1) (if (s.lease r).isStatic then s else s.clearHostname p r) stale := by
  have hget : (s.leases ++ stale)[pre.length]? = some r := by rw [hs]; simp
  have hrm : (s.rmLeaseByIndex conf pre.length).leases = pre ++ rest := by
    rw [leases_rmLeaseByIndex, hs]; simp [List.eraseIdx_append_of_length_le]
  have hlt : pre.length < s.leases.length := by rw [hs]; simp
  rw [rmDynamicLoop]
  simp only [hget, hrm]
  by_cases hsame : sameProps (s.lease p) (s.lease r) = true
  · rw [if_pos hsame, if_pos hsame]
    by_cases hst : (s.lease r).isStatic = true
    · rw [if_pos hst, if_pos hst]
    · rw [if_neg hst, if_neg hst, if_pos hlt]
      have hlast : s.leases.drop (s.leases.length - 1) = [(r :: rest).getLast (by simp)] := by
        rw [List.drop_length_sub_one (by rw [hs]; simp)]
        simp [hs]
      rw [hlast]
      cases rest with
      | nil => simp
      | cons r' rest' => simp
  · rw [if_neg hsame, if_neg hsame]

/-- The stale copies change nothing, and no index is out of range at them. -/
theorem rmDynamicLoop_stale {stale : List Ref} {z : Ref} (hz : ∀ x ∈ stale, x = z)
    (hclear : (s.lease z).isStatic = false → s.clearHostname p z = s) (k i : ℕ)
    (hi : s.leases.length ≤ i) (hk : i + k = s.leases.length + stale.length)
    (hmatch : i = s.leases.length ∨ sameProps (s.lease p) (s.lease z) = false) :
    (rmDynamicLoop conf p k i s stale).1 = s ∧
      ((rmDynamicLoop conf p k i s stale).2.2 = .ok () ∨
        (rmDynamicLoop conf p k i s stale).2.2 = .error .staticLeaseExists) := by
  induction k generalizing i with
  | zero => exact ⟨rfl, .inl rfl⟩
  | succ k ih =>
    have hlt : i - s.leases.length < stale.length := by omega
    have hget : (s.leases ++ stale)[i]? = some z := by
      rw [List.getElem?_append_right hi, List.getElem?_eq_getElem hlt, hz _ (List.getElem_mem hlt)]
    have hnone : s.rmLeaseByIndex conf i = s := rmLeaseByIndex_of_none (List.getElem?_eq_none hi)
    have hstay : (if (s.lease z).isStatic then s else s.clearHostname p z) = s := by
      split
      · rfl
      · rename_i hst; exact hclear (by simpa using hst)
    rw [rmDynamicLoop]
    simp only [hget, hnone, hstay]
    by_cases hsame : sameProps (s.lease p) (s.lease z) = true
    · have hi' : i = s.leases.length := hmatch.resolve_right (by simp [hsame])
      simp only [if_pos hsame, if_pos hi']
      split
      · exact ⟨rfl, .inr rfl⟩
      · exact ⟨rfl, .inl rfl⟩
    · rw [if_neg hsame]
      exact ih (i + 1) (by omega) (by omega) (.inr (by simpa using hsame))

/-! ## The rule of the loop -/

/-- The hostname of a dynamic entry is empty or is not that of `p`: the loop has been there. -/
def Cleared (s : V4Server) (p x : Ref) : Prop :=
  (s.lease x).isStatic = false → (s.lease x).hostname = (s.lease p).hostname → (s.lease x).hostname = ""

/-- Once there, the loop leaves it so. -/
theorem Cleared.clearHostname {r x : Ref} (h : x = r ∨ Cleared s p x) : Cleared (s.clearHostname p r) p x := by
  intro hst heq
  rw [(lease_clearHostname s p r x).2.2] at hst
  unfold V4Server.clearHostname at heq ⊢
  split at heq
  · rename_i hname
    rw [if_pos hname]
    rw [lease_modify] at heq ⊢
    by_cases hx : x = r
    · rw [if_pos hx]
    · rw [if_neg hx] at heq ⊢
      rw [lease_modify] at heq
      split at heq
      · exact heq
      · exact h.resolve_left hx hst heq
  · rename_i hname
    rw [if_neg hname]
    rcases h with rfl | h
    · exact absurd heq hname
    · exact h hst heq

/-- The loop stands between `pre`, the entries that it has left in place, and `post`, those that it has yet to
visit.  The copies behind them are of the last entry. -/
structure Visiting (s : V4Server) (p : Ref) (pre post stale : List Ref) : Prop where
  leases : s.leases = pre ++ post
  stale : ∀ x ∈ stale, s.leases.getLast? = some x
  cleared : ∀ x ∈ pre, Cleared s p x

theorem Visiting.start (s : V4Server) (p : Ref) : Visiting s p [] s.leases [] := ⟨rfl, by simp, by simp⟩

/-- An entry is removed, and the one after it is stepped over. -/
theorem Visiting.remove {pre rest stale : List Ref} {r r' : Ref} (h : Visiting s p pre (r :: r' :: rest) stale) :
    Visiting ((s.rmLeaseByIndex conf pre.length).clearHostname p r') p (pre ++ [r']) rest
      ((r' :: rest).getLast (by simp) :: stale) := by
  have hleases : ((s.rmLeaseByIndex conf pre.length).clearHostname p r').leases = (pre ++ [r']) ++ rest := by
    rw [leases_clearHostname, leases_rmLeaseByIndex, h.leases]
    simp [List.eraseIdx_append_of_length_le]
  refine ⟨hleases, ?_, ?_⟩
  · -- the last entry is the same as before the removal
    intro x hx
    rw [hleases, List.append_assoc, List.singleton_append, List.getLast?_append,
      List.getLast?_eq_some_getLast (List.cons_ne_nil r' rest)]
    rcases List.mem_cons.1 hx with rfl | hx
    · rfl
    · have hxl := h.stale x hx
      rw [h.leases, List.getLast?_append, List.getLast?_cons_cons,
        List.getLast?_eq_some_getLast (List.cons_ne_nil r' rest)] at hxl
      exact hxl
  · intro x hx
    apply Cleared.clearHostname
    rcases List.mem_append.1 hx with hx | hx
    · right
      intro hstx
      simpa using h.cleared x hx (by simpa using hstx)
    · exact .inl (List.mem_singleton.1 hx)

/-- An entry is left in place. -/
theorem Visiting.pass {pre rest stale : List Ref} {r : Ref} (h : Visiting s p pre (r :: rest) stale) :
    Visiting (if (s.lease r).isStatic then s else s.clearHostname p r) p (pre ++ [r]) rest stale := by
  have hleases : (if (s.lease r).isStatic then s else s.clearHostname p r).leases = s.leases := by
    split
    · rfl
    · exact leases_clearHostname s p r
  refine ⟨by rw [hleases, h.leases]; simp, fun x hx => by rw [hleases]; exact h.stale x hx, ?_⟩
  intro x hx
  rw [List.mem_append, List.mem_singleton] at hx
  cases hst : (s.lease r).isStatic with
  | true =>
    rw [if_pos rfl]
    rcases hx with hx | rfl
    · exact h.cleared x hx
    · intro hst'
      rw [hst] at hst'
      cases hst'
  | false =>
    rw [if_neg Bool.false_ne_true]
    apply Cleared.clearHostname
    rcases hx with hx | hx
    · exact .inr (h.cleared x hx)
    · exact .inl hx

/-- With no entry left to visit the loop changes nothing. -/
theorem Visiting.rest (conf : V4ServerConf) {pre stale : List Ref} (h : Visiting s p pre [] stale) :
    (rmDynamicLoop conf p stale.length pre.length s stale).1 = s ∧
      ((rmDynamicLoop conf p stale.length pre.length s stale).2.2 = .ok () ∨
        (rmDynamicLoop conf p stale.length pre.length s stale).2.2 = .error .staticLeaseExists) := by
  have hleases : s.leases = pre := by rw [h.leases, List.append_nil]
  cases stale with
  | nil => exact ⟨rfl, .inl rfl⟩
  | cons z stale =>
    have hlast := h.stale z (by simp)
    have hmem : z ∈ pre := hleases ▸ List.mem_of_getLast? hlast
    refine rmDynamicLoop_stale (z := z) ?_ ?_ _ _ (by rw [hleases]) (by rw [hleases]) (.inl (by rw [hleases]))
    · intro x hx
      exact Option.some.inj ((h.stale x hx).symm.trans hlast)
    · intro hst
      exact clearHostname_eq_self (h.cleared z hmem hst)

/-- The rule of the loop.  `M pre post s` holds before a turn, with `pre` and `post` as for `Visiting`; the stale
copies need no attention. -/
theorem rmDynamicLoop_rule {M : List Ref → List Ref → V4Server → Prop} {Q : V4Server → Except Err Unit → Prop}
    (found : ∀ pre r rest s, s.leases = pre ++ r :: rest → M pre (r :: rest) s →
      sameProps (s.lease p) (s.lease r) = true → (s.lease r).isStatic = true → Q s (.error .staticLeaseExists))
    (last : ∀ pre r s, s.leases = pre ++ [r] → M pre [r] s → sameProps (s.lease p) (s.lease r) = true →
      (s.lease r).isStatic = false → Q (s.rmLeaseByIndex conf pre.length) (.ok ()))
    (step : ∀ pre r r' rest s, s.leases = pre ++ r :: r' :: rest → M pre (r :: r' :: rest) s →
      sameProps (s.lease p) (s.lease r) = true → (s.lease r).isStatic = false →
      M (pre ++ [r']) rest ((s.rmLeaseByIndex conf pre.length).clearHostname p r'))
    (pass : ∀ pre r rest s, s.leases = pre ++ r :: rest → M pre (r :: rest) s →
      sameProps (s.lease p) (s.lease r) = false →
      M (pre ++ [r]) rest (if (s.lease r).isStatic then s else s.clearHostname p r))
    (done : ∀ s res, M s.leases [] s → res = .ok () ∨ res = .error .staticLeaseExists → Q s res)
    (k : ℕ) (s : V4Server) (pre post stale : List Ref) (hv : Visiting s p pre post stale)
    (hk : k = post.length + stale.length) (h : M pre post s) :
    Q (rmDynamicLoop conf p k pre.length s stale).1 (rmDynamicLoop conf p k pre.length s stale).2.2 := by
  induction k generalizing s pre post stale with
  | zero =>
    have hpost : post = [] := List.length_eq_zero_iff.1 (by omega)
    have hs := hv.leases
    rw [hpost, List.append_nil] at hs
    exact done s _ (by rw [hs]; exact hpost ▸ h) (.inl rfl)
  | succ k ih =>
    cases post with
    | nil =>
      have hs : s.leases = pre := by rw [hv.leases, List.append_nil]
      have hrest := hv.rest conf
      rw [hk, List.length_nil, Nat.zero_add, hrest.1]
      exact done s _ (hs ▸ h) hrest.2
    | cons r rest =>
      rw [rmDynamicLoop_succ hv.leases]
      by_cases hsame : sameProps (s.lease p) (s.lease r) = true
      · rw [if_pos hsame]
        by_cases hst : (s.lease r).isStatic = true
        · rw [if_pos hst]
          exact found pre r rest s hv.leases h hsame hst
        · rw [if_neg hst]
          rw [Bool.not_eq_true] at hst
          cases rest with
          | nil => exact last pre r s hv.leases h hsame hst
          | cons r' rest' =>
            have hlen : pre.length + 1 = (pre ++ [r']).length := by simp
            dsimp only
            rw [hlen]
            exact ih _ (pre ++ [r']) rest' _ hv.remove (by simp at hk ⊢; omega)
              (step pre r r' rest' s hv.leases h hsame hst)
      · rw [if_neg hsame]
        have hlen : pre.length + 1 = (pre ++ [r]).length := by simp
        rw [hlen]
        exact ih _ (pre ++ [r]) rest stale hv.pass (by simp at hk ⊢; omega)
          (pass pre r rest s hv.leases h (by simpa using hsame))

/-- The rule for the whole of `rmDynamicLease`. -/
theorem rmDynamicLease_rule {M : List Ref → List Ref → V4Server → Prop} {Q : V4Server → Except Err Unit → Prop}
    (found : ∀ pre r rest s, s.leases = pre ++ r :: rest → M pre (r :: rest) s →
      sameProps (s.lease p) (s.lease r) = true → (s.lease r).isStatic = true → Q s (.error .staticLeaseExists))
    (last : ∀ pre r s, s.leases = pre ++ [r] → M pre [r] s → sameProps (s.lease p) (s.lease r) = true →
      (s.lease r).isStatic = false → Q (s.rmLeaseByIndex conf pre.length) (.ok ()))
    (step : ∀ pre r r' rest s, s.leases = pre ++ r :: r' :: rest → M pre (r :: r' :: rest) s →
      sameProps (s.lease p) (s.lease r) = true → (s.lease r).isStatic = false →
      M (pre ++ [r']) rest ((s.rmLeaseByIndex conf pre.length).clearHostname p r'))
    (pass : ∀ pre r rest s, s.leases = pre ++ r :: rest → M pre (r :: rest) s →
      sameProps (s.lease p) (s.lease r) = false →
      M (pre ++ [r]) rest (if (s.lease r).isStatic then s else s.clearHostname p r))
    (done : ∀ s res, M s.leases [] s → res = .ok () ∨ res = .error .staticLeaseExists → Q s res)
    (h : M [] s.leases s) : Q (s.rmDynamicLease conf p).1 (s.rmDynamicLease conf p).2.2 :=
  rmDynamicLoop_rule found last step pass done s.leases.length s [] s.leases [] (.start s p)
    (by simp) h

/-! ## What the loop does -/

/-- The source never indexes the list out of range in the loop. -/
theorem rmDynamicLease_no_fault (s : V4Server) (p : Ref) : (s.rmDynamicLease conf p).2.2 ≠ .error .fault := by
  refine rmDynamicLease_rule (M := fun _ _ _ => True) (Q := fun _ res => res ≠ .error .fault)
    (by simp) (by simp) (by simp) (by simp) ?_ trivial
  rintro s res - (rfl | rfl) <;> simp

/-- The two states agree on everything but hostnames and expiries. -/
def Agree (s s' : V4Server) : Prop :=
  ∀ x, (s'.lease x).ip = (s.lease x).ip ∧ (s'.lease x).hwAddr = (s.lease x).hwAddr ∧
    (s'.lease x).isStatic = (s.lease x).isStatic

theorem Agree.clearHostname {s' : V4Server} (h : Agree s s') (r : Ref) : Agree s (s'.clearHostname p r) := by
  intro x
  obtain ⟨hip, hmac, hst⟩ := lease_clearHostname s' p r x
  rw [hip, hmac, hst]
  exact h x

theorem Agree.rmLeaseByIndex {s' : V4Server} (h : Agree s s') (i : ℕ) : Agree s (s'.rmLeaseByIndex conf i) := by
  intro x
  rw [lease_rmLeaseByIndex]
  exact h x

theorem Agree.sameProps {s' : V4Server} (h : Agree s s') (x y : Ref) :
    sameProps (s'.lease x) (s'.lease y) = sameProps (s.lease x) (s.lease y) := by
  unfold V4Server.sameProps
  rw [(h x).1, (h x).2.1, (h y).1, (h y).2.1]

theorem steppedOver_cons_of_not_sameProps {lease : Lease} {r : Ref} {rest : List Ref}
    (h : sameProps lease (s.lease r) = false) : steppedOver s lease (r :: rest) = steppedOver s lease rest := by
  cases rest with
  | nil => rfl
  | cons b rest => rw [steppedOver, h, if_neg Bool.false_ne_true]

theorem agree_rmDynamicLease (s : V4Server) (p : Ref) : Agree s (s.rmDynamicLease conf p).1 :=
  rmDynamicLease_invariant (I := Agree s) (fun _ i h => h.rmLeaseByIndex i) (fun _ r h => h.clearHostname r)
    fun _ => ⟨rfl, rfl, rfl⟩

theorem next_rmDynamicLease (s : V4Server) (p : Ref) : (s.rmDynamicLease conf p).1.heap.next = s.heap.next := by
  refine rmDynamicLease_invariant (I := fun t => t.heap.next = s.heap.next) (fun t i h => ?_) (fun t r h => ?_) rfl
  · rw [heap_rmLeaseByIndex, h]
  · rcases clearHostname_eq_modify t p r with heq | heq <;> rw [heq]
    · exact h
    · exact h

/-- After the loop no entry has the address of `p`, unless one was stepped over. -/
theorem ip_ne_of_rmDynamicLease (hstep : ∀ r ∈ steppedOver s (s.lease p) s.leases, (s.lease r).ip ≠ (s.lease p).ip)
    (hok : (s.rmDynamicLease conf p).2.2 = .ok ()) :
    ∀ r ∈ (s.rmDynamicLease conf p).1.leases, ((s.rmDynamicLease conf p).1.lease r).ip ≠ (s.lease p).ip := by
  let ne (t : V4Server) (l : List Ref) : Prop := ∀ r ∈ l, (t.lease r).ip ≠ (s.lease p).ip
  suffices hrule : (s.rmDynamicLease conf p).2.2 = .ok () → ne s (s.rmDynamicLease conf p).1.leases by
    intro r hr
    rw [(agree_rmDynamicLease s p r).1]
    exact hrule hok r hr
  refine rmDynamicLease_rule (M := fun pre post t => Agree s t ∧ ne s pre ∧ ne s (steppedOver s (s.lease p) post))
    (Q := fun t res => res = .ok () → ne s t.leases) ?_ ?_ ?_ ?_ ?_
    ⟨fun _ => ⟨rfl, rfl, rfl⟩, by simp [ne], hstep⟩
  · simp
  · rintro pre r t hl ⟨-, hpre, -⟩ - - -
    have hleases : (t.rmLeaseByIndex conf pre.length).leases = pre := by
      rw [leases_rmLeaseByIndex, hl]; simp [List.eraseIdx_append_of_length_le]
    rw [hleases]
    exact hpre
  · -- `r'` is stepped over
    rintro pre r r' rest t hl ⟨hag, hpre, hpost⟩ hsame hst
    rw [hag.sameProps] at hsame
    rw [(hag r).2.2] at hst
    have hover : steppedOver s (s.lease p) (r :: r' :: rest) = r' :: steppedOver s (s.lease p) rest := by
      rw [steppedOver, if_pos hsame, hst, if_neg Bool.false_ne_true]
    rw [hover] at hpost
    refine ⟨(hag.rmLeaseByIndex _).clearHostname r', fun x hx => ?_, fun x hx => hpost x (by simp [hx])⟩
    rcases List.mem_append.1 hx with hx | hx
    · exact hpre x hx
    · exact hpost x (by simp [List.mem_singleton.1 hx])
  · rintro pre r rest t hl ⟨hag, hpre, hpost⟩ hsame
    rw [hag.sameProps] at hsame
    refine ⟨?_, fun x hx => ?_, ?_⟩
    · split
      · exact hag
      · exact hag.clearHostname r
    · rcases List.mem_append.1 hx with hx | hx
      · exact hpre x hx
      · rw [List.mem_singleton.1 hx]
        simp only [sameProps, Bool.or_eq_false_iff, beq_eq_false_iff_ne] at hsame
        exact hsame.2
    · rw [steppedOver_cons_of_not_sameProps hsame] at hpost
      exact hpost
  · rintro t res ⟨-, hpre, -⟩ - -
    exact hpre

theorem KeepsNames.of_step {lease : Lease} {r r' : Ref} {rest : List Ref}
    (h : KeepsNames s lease (r :: r' :: rest)) (hsame : sameProps lease (s.lease r) = true)
    (hst : (s.lease r).isStatic = false) :
    KeepsNames s lease rest ∧ (lease.hostname ≠ "" → (s.lease r').hostname ≠ lease.hostname) := by
  have hover : steppedOver s lease (r :: r' :: rest) = r' :: steppedOver s lease rest := by
    rw [steppedOver, if_pos hsame, hst, if_neg Bool.false_ne_true]
  have hpassed : passed s lease (r :: r' :: rest) = passed s lease rest := by
    rw [passed, if_pos hsame, hst, if_neg Bool.false_ne_true]
  refine ⟨fun hne => ?_, fun hne => ?_⟩
  · obtain ⟨hso, hpa⟩ := h hne
    rw [hover] at hso
    rw [hpassed] at hpa
    exact ⟨fun x hx => hso x (by simp [hx]), hpa⟩
  · refine (h hne).1 r' ?_
    rw [hover]
    simp

theorem KeepsNames.of_pass {lease : Lease} {r : Ref} {rest : List Ref}
    (h : KeepsNames s lease (r :: rest)) (hsame : sameProps lease (s.lease r) = false) :
    KeepsNames s lease rest ∧ (lease.hostname ≠ "" → (s.lease r).isStatic = false →
      (s.lease r).hostname ≠ lease.hostname) := by
  have hpassed : passed s lease (r :: rest) = r :: passed s lease rest := by
    cases rest with
    | nil => simp [passed, hsame]
    | cons b rest => simp [passed, hsame]
  refine ⟨fun hne => ?_, fun hne hst => ?_⟩
  · obtain ⟨hso, hpa⟩ := h hne
    rw [steppedOver_cons_of_not_sameProps hsame] at hso
    rw [hpassed] at hpa
    exact ⟨hso, fun x hx => hpa x (by simp [hx])⟩
  · refine (h hne).2 r ?_ hst
    rw [hpassed]
    simp

/-- A loop that clears no hostname does nothing but removals. -/
theorem rmDynamicLease_of_keepsNames {I : V4Server → Prop} (hrm : ∀ s i, I s → I (s.rmLeaseByIndex conf i))
    (hkeep : KeepsNames s (s.lease p) s.leases) (h : I s) :
    I (s.rmDynamicLease conf p).1 ∧ (s.rmDynamicLease conf p).1.heap = s.heap := by
  have hname : ∀ t : V4Server, ∀ r, t.heap = s.heap →
      ((s.lease p).hostname ≠ "" → (s.lease r).hostname ≠ (s.lease p).hostname) → t.clearHostname p r = t := by
    intro t r hheap hne
    apply clearHostname_eq_self
    unfold lease at hne ⊢
    rw [hheap]
    intro heq
    by_contra hempty
    rw [heq] at hempty
    exact hne hempty heq
  refine rmDynamicLease_rule (M := fun _ post t => (I t ∧ t.heap = s.heap) ∧ KeepsNames s (s.lease p) post)
    (Q := fun t _ => I t ∧ t.heap = s.heap) ?_ ?_ ?_ ?_ ?_ ⟨⟨h, rfl⟩, hkeep⟩
  · rintro pre r rest t - ⟨hI, -⟩ - -
    exact hI
  · rintro pre r t - ⟨⟨hI, hheap⟩, -⟩ - -
    exact ⟨hrm t _ hI, by rw [heap_rmLeaseByIndex, hheap]⟩
  · rintro pre r r' rest t hl ⟨⟨hI, hheap⟩, hk⟩ hsame hst
    unfold lease at hsame hst
    rw [hheap] at hsame hst
    obtain ⟨hk', hne⟩ := hk.of_step hsame hst
    rw [hname _ r' (by rw [heap_rmLeaseByIndex, hheap]) hne]
    exact ⟨⟨hrm t _ hI, by rw [heap_rmLeaseByIndex, hheap]⟩, hk'⟩
  · rintro pre r rest t hl ⟨⟨hI, hheap⟩, hk⟩ hsame
    unfold lease at hsame
    rw [hheap] at hsame
    obtain ⟨hk', hne⟩ := hk.of_pass hsame
    refine ⟨?_, hk'⟩
    split
    · exact ⟨hI, hheap⟩
    · rename_i hst
      unfold lease at hst
      rw [hheap, Bool.not_eq_true] at hst
      rw [hname t r hheap fun h => hne h hst]
      exact ⟨hI, hheap⟩
  · rintro t res ⟨hI, -⟩ -
    exact hI

end AdGuardHome.Dhcpd.V4Server
