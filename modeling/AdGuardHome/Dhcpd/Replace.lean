import AdGuardHome.Dhcpd.Formed

/-!
# What a static lease replaces

`AddStaticLease` is to take out the dynamic leases with the address or the hardware address of the new lease and to
clear its hostname from the others.  The entry that the loop steps over is treated as if it were dynamic and did not
match, so the call does what it should exactly if no such entry matches and none is a static lease with the
hostname.
-/

namespace AdGuardHome.Dhcpd.V4Server

open AdGuardHome.Net AdGuardHome.Lib AdGuardHome.Dhcp

variable {env : HostEnv} {conf : V4ServerConf} {s : V4Server} {p : Ref}

/-! ## What is asked -/

/-- The state after the static lease `l` has replaced dynamic leases. -/
structure Replaces (s : V4Server) (l : Lease) (s' : V4Server) : Prop where
  /-- The lease is the only entry with its address or its hardware address, and is a new record. -/
  added : ∃ p, p ∉ s.leases ∧ s'.lease p = l ∧ s'.leases.filter (fun r => sameProps l (s'.lease r)) = [p]
  static : ∀ r ∈ s.leases, (s.lease r).isStatic = true → r ∈ s'.leases ∧ s'.lease r = s.lease r
  dynamic : ∀ r ∈ s.leases, (s.lease r).isStatic = false → sameProps l (s.lease r) = false →
    r ∈ s'.leases ∧ (s'.lease r).ip = (s.lease r).ip ∧ (s'.lease r).hwAddr = (s.lease r).hwAddr ∧
      (s'.lease r).expiry = (s.lease r).expiry
  names : ∀ r ∈ s.leases, (s'.lease r).hostname ≠ (s.lease r).hostname →
    (s.lease r).isStatic = false ∧ (s.lease r).hostname = l.hostname ∧ (s'.lease r).hostname = ""

/-- No entry that the loop steps over matches the lease, and none is a static lease with its hostname. -/
def NoneMissed (s : V4Server) (l : Lease) : Prop :=
  ∀ r ∈ s.steppedOver l s.leases, sameProps l (s.lease r) = false ∧
    ((s.lease r).isStatic = true → l.hostname ≠ "" → (s.lease r).hostname ≠ l.hostname)

instance (s : V4Server) (l : Lease) : Decidable (NoneMissed s l) :=
  inferInstanceAs (Decidable (∀ r ∈ _, _ ∧ _))

/-! ## The loop -/

/-- The entries that the loop for the record `p` steps over. -/
def missed (s : V4Server) (p : Ref) : List Ref := s.steppedOver (s.lease p) s.leases

/-- What holds before a turn of the loop for the record `p`, with `pre` and `post` as for `Visiting`. -/
structure Looping (s : V4Server) (p : Ref) (pre post : List Ref) (t : V4Server) : Prop where
  agree : Agree s t
  expiry : ∀ x, (t.lease x).expiry = (s.lease x).expiry
  kept : ∀ x ∈ s.leases, x ∈ pre ∨ x ∈ post ∨
    (s.lease x).isStatic = false ∧ sameProps (s.lease p) (s.lease x) = true
  visited : ∀ x ∈ pre, x ∈ s.leases ∧ (sameProps (s.lease p) (s.lease x) = false ∨ x ∈ s.missed p)
  ahead : ∀ x ∈ post, x ∈ s.leases
  behind : ∀ x ∈ s.missed p, x ∈ s.steppedOver (s.lease p) post ∨
    x ∈ pre ∧ ((s.lease x).hostname = (s.lease p).hostname → (t.lease x).hostname = "")
  missedAhead : ∀ x ∈ s.steppedOver (s.lease p) post, x ∈ s.missed p
  names : ∀ x, (t.lease x).hostname = (s.lease x).hostname ∨
    x ∈ s.leases ∧ (s.lease x).hostname = (s.lease p).hostname ∧ (t.lease x).hostname = "" ∧
      (x ∈ s.missed p ∨ (s.lease x).isStatic = false)

theorem hostname_clearHostname (s : V4Server) (p r x : Ref) : ((s.clearHostname p r).lease x).hostname =
    if x = r ∧ (s.lease r).hostname = (s.lease p).hostname then "" else (s.lease x).hostname := by
  unfold clearHostname
  by_cases hname : (s.lease r).hostname = (s.lease p).hostname
  · rw [if_pos hname, lease_modify]
    by_cases hx : x = r
    · rw [if_pos hx, if_pos ⟨hx, hname⟩]
    · rw [if_neg hx, if_neg fun h => hx h.1]
  · rw [if_neg hname, if_neg fun h => hname h.2]

theorem expiry_clearHostname (s : V4Server) (p r x : Ref) :
    ((s.clearHostname p r).lease x).expiry = (s.lease x).expiry := by
  rcases clearHostname_eq_modify s p r with h | h <;> rw [h]
  rw [lease_modify]
  split
  · rename_i hx
    rw [hx]
  · rfl

namespace Looping

variable {t : V4Server} {pre post rest : List Ref} {r r' : Ref}

theorem start (s : V4Server) (p : Ref) : Looping s p [] s.leases s where
  agree := fun _ => ⟨rfl, rfl, rfl⟩
  expiry := fun _ => rfl
  kept := fun x hx => .inr (.inl hx)
  visited := by simp
  ahead := fun x hx => hx
  behind := fun x hx => .inl hx
  missedAhead := fun x hx => hx
  names := fun x => .inl rfl

/-- The record of the new lease is not an entry, so its hostname stays. -/
theorem hostname_self (h : Looping s p pre post t) (hp : p ∉ s.leases) :
    (t.lease p).hostname = (s.lease p).hostname :=
  (h.names p).resolve_right fun hx => hp hx.1

/-- Clearing the hostname of an entry. -/
theorem clearHostname (h : Looping s p pre post t) (hp : p ∉ s.leases) (hr : r ∈ s.leases)
    (hclear : r ∈ s.missed p ∨ (s.lease r).isStatic = false) :
    Looping s p pre post (t.clearHostname p r) ∧
      ((s.lease r).hostname = (s.lease p).hostname → ((t.clearHostname p r).lease r).hostname = "") := by
  have hself := h.hostname_self hp
  refine ⟨{ h with agree := h.agree.clearHostname r, expiry := ?_, behind := ?_, names := ?_ }, ?_⟩
  · intro x
    rw [expiry_clearHostname, h.expiry]
  · intro x hx
    rcases h.behind x hx with hx | ⟨hpre, hname⟩
    · exact .inl hx
    · refine .inr ⟨hpre, fun heq => ?_⟩
      rw [hostname_clearHostname]
      split
      · rfl
      · exact hname heq
  · intro x
    rw [hostname_clearHostname]
    split
    · rename_i hx
      obtain ⟨rfl, hname⟩ := hx
      rw [hself] at hname
      rcases h.names x with hsame | ⟨-, heq, -, -⟩
      · exact .inr ⟨hr, hsame ▸ hname, rfl, hclear⟩
      · exact .inr ⟨hr, heq, rfl, hclear⟩
    · exact h.names x
  · intro heq
    rw [hostname_clearHostname]
    split
    · rfl
    · rename_i hne
      rcases h.names r with hsame | ⟨-, -, hempty, -⟩
      · exact absurd ⟨rfl, by rw [hsame, heq, hself]⟩ hne
      · exact hempty

/-- The invariant reads the records only. -/
theorem congr {t' : V4Server} (h : Looping s p pre post t) (ht : ∀ x, t'.lease x = t.lease x) :
    Looping s p pre post t' where
  agree := fun x => by
    rw [ht]
    exact h.agree x
  expiry := fun x => by rw [ht, h.expiry]
  kept := h.kept
  visited := h.visited
  ahead := h.ahead
  behind := fun x hx => by
    rw [ht]
    exact h.behind x hx
  missedAhead := h.missedAhead
  names := fun x => by
    rw [ht]
    exact h.names x

/-- An entry is removed and the next one is stepped over. -/
theorem step (h : Looping s p pre (r :: r' :: rest) t) (hp : p ∉ s.leases)
    (hsame : sameProps (t.lease p) (t.lease r) = true) (hst : (t.lease r).isStatic = false) (i : ℕ) :
    Looping s p (pre ++ [r']) rest ((t.rmLeaseByIndex conf i).clearHostname p r') := by
  rw [h.agree.sameProps] at hsame
  rw [(h.agree r).2.2] at hst
  have hover : s.steppedOver (s.lease p) (r :: r' :: rest) = r' :: s.steppedOver (s.lease p) rest := by
    rw [steppedOver, if_pos hsame, hst, if_neg Bool.false_ne_true]
  have hr' : r' ∈ s.leases := h.ahead r' (by simp)
  have hmissed : r' ∈ s.missed p := h.missedAhead r' (by rw [hover]; exact List.mem_cons_self)
  obtain ⟨h', hname⟩ := (h.congr (lease_rmLeaseByIndex t i)).clearHostname hp hr' (.inl hmissed)
  refine { h' with kept := ?_, visited := ?_, ahead := ?_, behind := ?_, missedAhead := ?_ }
  · intro x hx
    rcases h'.kept x hx with hx | hx | hx
    · exact .inl (List.mem_append_left _ hx)
    · rcases List.mem_cons.1 hx with rfl | hx
      · exact .inr (.inr ⟨hst, hsame⟩)
      · rcases List.mem_cons.1 hx with rfl | hx
        · exact .inl (List.mem_append_right _ List.mem_cons_self)
        · exact .inr (.inl hx)
    · exact .inr (.inr hx)
  · intro x hx
    rcases List.mem_append.1 hx with hx | hx
    · exact h'.visited x hx
    · rw [List.mem_singleton.1 hx]
      exact ⟨hr', .inr hmissed⟩
  · exact fun x hx => h'.ahead x (by simp [hx])
  · intro x hx
    rcases h'.behind x hx with hx | ⟨hpre, hx⟩
    · rw [hover] at hx
      rcases List.mem_cons.1 hx with rfl | hx
      · exact .inr ⟨List.mem_append_right _ List.mem_cons_self, hname⟩
      · exact .inl hx
    · exact .inr ⟨List.mem_append_left _ hpre, hx⟩
  · intro x hx
    refine h'.missedAhead x ?_
    rw [hover]
    exact List.mem_cons_of_mem _ hx

/-- An entry that does not match is passed. -/
theorem pass (h : Looping s p pre (r :: rest) t) (hp : p ∉ s.leases)
    (hsame : sameProps (t.lease p) (t.lease r) = false) :
    Looping s p (pre ++ [r]) rest (if (t.lease r).isStatic then t else t.clearHostname p r) := by
  rw [h.agree.sameProps] at hsame
  have hover : s.steppedOver (s.lease p) (r :: rest) = s.steppedOver (s.lease p) rest :=
    steppedOver_cons_of_not_sameProps hsame
  have hr : r ∈ s.leases := h.ahead r (by simp)
  have h' : Looping s p pre (r :: rest) (if (t.lease r).isStatic then t else t.clearHostname p r) := by
    split
    · exact h
    · rename_i hst
      rw [(h.agree r).2.2, Bool.not_eq_true] at hst
      exact (h.clearHostname hp hr (.inr hst)).1
  refine { h' with kept := ?_, visited := ?_, ahead := ?_, behind := ?_, missedAhead := ?_ }
  · intro x hx
    rcases h'.kept x hx with hx | hx | hx
    · exact .inl (List.mem_append_left _ hx)
    · rcases List.mem_cons.1 hx with rfl | hx
      · exact .inl (List.mem_append_right _ List.mem_cons_self)
      · exact .inr (.inl hx)
    · exact .inr (.inr hx)
  · intro x hx
    rcases List.mem_append.1 hx with hx | hx
    · exact h'.visited x hx
    · rw [List.mem_singleton.1 hx]
      exact ⟨hr, .inl hsame⟩
  · exact fun x hx => h'.ahead x (by simp [hx])
  · intro x hx
    rcases h'.behind x hx with hx | ⟨hpre, hx⟩
    · exact .inl (hover ▸ hx)
    · exact .inr ⟨List.mem_append_left _ hpre, hx⟩
  · exact fun x hx => h'.missedAhead x (hover.symm ▸ hx)

/-- The last entry is removed. -/
theorem last (h : Looping s p pre [r] t) (hsame : sameProps (t.lease p) (t.lease r) = true)
    (hst : (t.lease r).isStatic = false) (i : ℕ) : Looping s p pre [] (t.rmLeaseByIndex conf i) := by
  rw [h.agree.sameProps] at hsame
  rw [(h.agree r).2.2] at hst
  have h' := h.congr (@lease_rmLeaseByIndex conf t i)
  refine { h' with kept := ?_, ahead := by simp, behind := ?_, missedAhead := by simp [steppedOver] }
  · intro x hx
    rcases h'.kept x hx with hx | hx | hx
    · exact .inl hx
    · rw [List.mem_singleton.1 hx]
      exact .inr (.inr ⟨hst, hsame⟩)
    · exact .inr (.inr hx)
  · intro x hx
    rcases h'.behind x hx with hx | hx
    · cases hx
    · exact .inr hx

end Looping

/-- What the loop has done when it finds no static lease that matches. -/
theorem looping_rmDynamicLease (hp : p ∉ s.leases) (hok : (s.rmDynamicLease conf p).2.2 = .ok ()) :
    Looping s p (s.rmDynamicLease conf p).1.leases [] (s.rmDynamicLease conf p).1 := by
  refine rmDynamicLease_rule (M := Looping s p) (Q := fun t res => res = .ok () → Looping s p t.leases [] t)
    ?_ ?_ ?_ ?_ ?_ (.start s p) hok
  · rintro pre r rest t - - - - ⟨⟩
  · intro pre r t hl h hsame hst _
    have hleases : (t.rmLeaseByIndex conf pre.length).leases = pre := by
      rw [leases_rmLeaseByIndex, hl]
      simp [List.eraseIdx_append_of_length_le]
    rw [hleases]
    exact h.last hsame hst _
  · intro pre r r' rest t _ h hsame hst
    exact h.step hp hsame hst _
  · intro pre r rest t _ h hsame
    exact h.pass hp hsame
  · intro t res h _ _
    exact h

/-! ## The operation -/

theorem missed_alloc (h : Formed conf s) (l : Lease) : (s.alloc l).missed s.heap.next = s.steppedOver l s.leases := by
  unfold missed
  rw [lease_alloc_next, leases_alloc]
  exact steppedOver_congr fun r hr => lease_alloc_of_lt s (h.allocated r hr) l

/-- A successful call is a successful loop, after which the lease is stored. -/
theorem addStaticLease_ok {l l' : Lease} (hl : prepareStatic env conf l = .ok l')
    (hok : (s.addStaticLease env conf l).2 = .ok ()) :
    ((s.alloc l').rmDynamicLease conf s.heap.next).2.2 = .ok () ∧
      (s.addStaticLease env conf l).1.leases =
        ((s.alloc l').rmDynamicLease conf s.heap.next).1.leases ++ [s.heap.next] ∧
      ∀ x, (s.addStaticLease env conf l).1.lease x = ((s.alloc l').rmDynamicLease conf s.heap.next).1.lease x := by
  unfold addStaticLease at hok ⊢
  rw [hl] at hok ⊢
  dsimp only at hok ⊢
  unfold updateStaticLease at hok ⊢
  generalize (s.alloc l').rmDynamicLease conf s.heap.next = res at hok ⊢
  obtain ⟨t, stale, e | ⟨⟨⟩⟩⟩ := res
  · cases hok
  · dsimp only at hok ⊢
    rcases addLease_cases t s.heap.next with ⟨e, heq⟩ | ⟨heq, -⟩
    · rw [heq] at hok
      cases hok
    · rw [heq]
      exact ⟨rfl, rfl, fun _ => rfl⟩

/-- What a successful call with the prepared lease `l` has done, over the state before it. -/
structure Stored (s : V4Server) (l : Lease) (s' : V4Server) : Prop where
  new : s'.lease s.heap.next = l
  leases : ∃ left, s'.leases = left ++ [s.heap.next] ∧
    (∀ r ∈ s.leases, r ∈ left ∨ (s.lease r).isStatic = false ∧ sameProps l (s.lease r) = true) ∧
    (∀ r ∈ left, r ∈ s.leases ∧ (sameProps l (s.lease r) = false ∨ r ∈ s.steppedOver l s.leases)) ∧
    ∀ r ∈ s.steppedOver l s.leases, r ∈ left
  agree : ∀ r ∈ s.leases, (s'.lease r).ip = (s.lease r).ip ∧ (s'.lease r).hwAddr = (s.lease r).hwAddr ∧
    (s'.lease r).isStatic = (s.lease r).isStatic ∧ (s'.lease r).expiry = (s.lease r).expiry
  names : ∀ r ∈ s.leases, (s'.lease r).hostname = (s.lease r).hostname ∨
    (s.lease r).hostname = l.hostname ∧ (s'.lease r).hostname = "" ∧
      (r ∈ s.steppedOver l s.leases ∨ (s.lease r).isStatic = false)
  cleared : ∀ r ∈ s.steppedOver l s.leases, (s.lease r).hostname = l.hostname → (s'.lease r).hostname = ""

theorem stored_of_ok (hf : Formed conf s) {l l' : Lease} (hl : prepareStatic env conf l = .ok l')
    (hok : (s.addStaticLease env conf l).2 = .ok ()) : Stored s l' (s.addStaticLease env conf l).1 := by
  have hfresh : s.heap.next ∉ s.leases := fun hmem => Nat.lt_irrefl _ (hf.allocated _ hmem)
  have hold : ∀ r ∈ s.leases, (s.alloc l').lease r = s.lease r := fun r hr =>
    lease_alloc_of_lt s (hf.allocated r hr) l'
  obtain ⟨hloop, hleases, hlease⟩ := addStaticLease_ok hl hok
  have h := looping_rmDynamicLease (by rwa [leases_alloc]) hloop
  generalize ((s.alloc l').rmDynamicLease conf s.heap.next).1 = t at h hleases hlease
  have hmissed := missed_alloc hf l'
  have hsub : ∀ r ∈ s.steppedOver l' s.leases, r ∈ s.leases := fun r hr => mem_of_mem_steppedOver hr
  refine ⟨?_, ⟨t.leases, hleases, ?_, ?_, ?_⟩, ?_, ?_, ?_⟩
  · have hag := h.agree s.heap.next
    have hexp := h.expiry s.heap.next
    have hname := h.hostname_self (by rwa [leases_alloc])
    rw [lease_alloc_next] at hag hexp hname
    obtain ⟨hip, hmac, hst⟩ := hag
    rw [hlease]
    exact Lease.ext hip hexp hname hmac hst
  · intro r hr
    have hkept := h.kept r (by rwa [leases_alloc])
    rw [lease_alloc_next, hold r hr] at hkept
    rcases hkept with hkept | hkept | hkept
    · exact .inl hkept
    · cases hkept
    · exact .inr hkept
  · intro r hr
    obtain ⟨hmem, hvisited⟩ := h.visited r hr
    rw [leases_alloc] at hmem
    rw [lease_alloc_next, hold r hmem, hmissed] at hvisited
    exact ⟨hmem, hvisited⟩
  · intro r hr
    have hbehind := h.behind r (by rwa [hmissed])
    rcases hbehind with hbehind | hbehind
    · cases hbehind
    · exact hbehind.1
  · intro r hr
    rw [hlease, ← hold r hr]
    exact ⟨(h.agree r).1, (h.agree r).2.1, (h.agree r).2.2, h.expiry r⟩
  · intro r hr
    have hnames := h.names r
    rw [hold r hr, lease_alloc_next, hmissed] at hnames
    rw [hlease]
    exact hnames.imp_right fun h => h.2
  · intro r hr hname
    have hbehind := h.behind r (by rwa [hmissed])
    rw [hold r (hsub r hr), lease_alloc_next] at hbehind
    rw [hlease]
    rcases hbehind with hbehind | hbehind
    · cases hbehind
    · exact hbehind.2 hname

namespace Stored

variable {l : Lease} {s' : V4Server}

theorem sameProps_eq (h : Stored s l s') {r : Ref} (hr : r ∈ s.leases) :
    sameProps l (s'.lease r) = sameProps l (s.lease r) := by
  obtain ⟨hip, hmac, -⟩ := h.agree r hr
  rw [sameProps, sameProps, hip, hmac]

/-- The new record matches itself and comes last. -/
theorem filter_sameProps (h : Stored s l s') {left : List Ref} (hleases : s'.leases = left ++ [s.heap.next]) :
    s'.leases.filter (fun r => sameProps l (s'.lease r)) =
      left.filter (fun r => sameProps l (s'.lease r)) ++ [s.heap.next] := by
  have hself : sameProps l (s'.lease s.heap.next) = true := by
    rw [h.new, sameProps, beq_self_eq_true]
    rfl
  rw [hleases, List.filter_append]
  simp only [List.filter_cons, hself, if_true, List.filter_nil]

/-- An entry stays if it is static or does not match. -/
theorem mem_leases (h : Stored s l s') {r : Ref} (hr : r ∈ s.leases)
    (hstay : (s.lease r).isStatic = true ∨ sameProps l (s.lease r) = false) : r ∈ s'.leases := by
  obtain ⟨left, hleases, hkept, -⟩ := h.leases
  rw [hleases]
  rcases hkept r hr with hmem | ⟨hdyn, hsame⟩
  · exact List.mem_append_left _ hmem
  · rw [hdyn, hsame] at hstay
    rcases hstay with hstay | hstay <;> cases hstay

/-- A static lease keeps its name if the loop misses nothing: only an empty name is cleared from it. -/
theorem hostname_static (h : Stored s l s') (hnone : NoneMissed s l) {r : Ref} (hr : r ∈ s.leases)
    (hst : (s.lease r).isStatic = true) : (s'.lease r).hostname = (s.lease r).hostname := by
  rcases h.names r hr with heq | ⟨heq, hempty, hmissed | hdyn⟩
  · exact heq
  · have hlempty : l.hostname = "" := by
      by_contra hne
      exact (hnone r hmissed).2 hst hne heq
    rw [hempty, heq, hlempty]
  · rw [hst] at hdyn
    cases hdyn

/-- An entry that is stepped over stays, so it has to differ from the new lease. -/
theorem noneMissed (h : Stored s l s') (hrep : Replaces s l s') : NoneMissed s l := by
  obtain ⟨left, hleases, -, -, hmissed⟩ := h.leases
  intro r hr
  have hmem := mem_of_mem_steppedOver hr
  constructor
  · by_contra hne
    rw [Bool.not_eq_false, ← h.sameProps_eq hmem] at hne
    obtain ⟨p, hp, -, hall⟩ := hrep.added
    have hrp : r ∈ [p] := by
      rw [← hall, h.filter_sameProps hleases]
      exact List.mem_append_left _ (List.mem_filter.2 ⟨hmissed r hr, hne⟩)
    rw [List.mem_singleton.1 hrp] at hmem
    exact hp hmem
  · intro hst hne hname
    have hempty := h.cleared r hr hname
    rw [(hrep.static r hmem hst).2, hname] at hempty
    exact hne hempty

/-- Without a missed entry the new record is the only one that matches. -/
theorem filter_of_noneMissed (h : Stored s l s') (hnone : NoneMissed s l) :
    s'.leases.filter (fun r => sameProps l (s'.lease r)) = [s.heap.next] := by
  obtain ⟨left, hleases, -, hvisited, -⟩ := h.leases
  rw [h.filter_sameProps hleases, List.filter_eq_nil_iff.2, List.nil_append]
  intro r hr
  obtain ⟨hmem, hvis⟩ := hvisited r hr
  rw [h.sameProps_eq hmem, Bool.not_eq_true]
  rcases hvis with hvis | hvis
  · exact hvis
  · exact (hnone r hvis).1

theorem replaces (h : Stored s l s') (hfresh : s.heap.next ∉ s.leases) (hnone : NoneMissed s l) :
    Replaces s l s' := by
  refine ⟨⟨s.heap.next, hfresh, h.new, h.filter_of_noneMissed hnone⟩, ?_, ?_, ?_⟩
  · intro r hr hst
    obtain ⟨hip, hmac, hstatic, hexp⟩ := h.agree r hr
    exact ⟨h.mem_leases hr (.inl hst), Lease.ext hip hexp (h.hostname_static hnone hr hst) hmac hstatic⟩
  · intro r hr hst hne
    obtain ⟨hip, hmac, -, hexp⟩ := h.agree r hr
    exact ⟨h.mem_leases hr (.inr hne), hip, hmac, hexp⟩
  · intro r hr hname
    rcases h.names r hr with heq | ⟨heq, hempty, -⟩
    · exact absurd heq hname
    · refine ⟨?_, heq, hempty⟩
      by_contra hst
      exact hname (h.hostname_static hnone hr (by simpa using hst))

end Stored

/-- A static lease that is added replaces exactly what it should if and only if the loop misses nothing. -/
theorem replaces_iff (hs : Reachable env conf s) {l l' : Lease} (hl : prepareStatic env conf l = .ok l')
    (hok : (s.addStaticLease env conf l).2 = .ok ()) :
    Replaces s l' (s.addStaticLease env conf l).1 ↔ NoneMissed s l' := by
  have hf := hs.formed
  have hfresh : s.heap.next ∉ s.leases := fun hmem => Nat.lt_irrefl _ (hf.allocated _ hmem)
  have h := stored_of_ok hf hl hok
  exact ⟨h.noneMissed, h.replaces hfresh⟩

/-- Two clients have got the first two addresses of the range. -/
def twoLeases : V4Server :=
  run (step asciiEnv lanConf) (resetLeases asciiEnv lanConf empty [])
    [.discover (lanRequest [2, 0, 0, 0, 0, 1] none "") 1 [], .discover (lanRequest [2, 0, 0, 0, 0, 2] none "") 1 []]

theorem reachable_twoLeases : Reachable asciiEnv lanConf twoLeases := ⟨[], _, by simp, rfl⟩

/-- A static lease on the address of a client. -/
def printerLease (ip : BitVec 32) (mac : HardwareAddr) : Lease :=
  { (default : Lease) with ip := .v4 ip, hwAddr := mac, hostname := "printer", isStatic := true }

theorem replaces_printer :
    Replaces twoLeases (printerLease 0xc0a80a65 [2, 0, 0, 0, 0, 2])
      (twoLeases.addStaticLease asciiEnv lanConf (printerLease 0xc0a80a65 [2, 0, 0, 0, 0, 2])).1 :=
  (replaces_iff reachable_twoLeases (by decide +kernel) (by decide +kernel)).2 (by decide +kernel)

/-- The first client gets the address of the second one, whose lease stays. -/
theorem not_replaces_neighbour :
    ¬ ∀ (env : HostEnv) (conf : V4ServerConf) (s : V4Server), Reachable env conf s → ∀ l l',
      prepareStatic env conf l = .ok l' → (s.addStaticLease env conf l).2 = .ok () →
        Replaces s l' (s.addStaticLease env conf l).1 := by
  intro h
  have hrep := h asciiEnv lanConf twoLeases reachable_twoLeases (printerLease 0xc0a80a65 [2, 0, 0, 0, 0, 1])
    (printerLease 0xc0a80a65 [2, 0, 0, 0, 0, 1]) (by decide +kernel) (by decide +kernel)
  obtain ⟨p, -, -, hall⟩ := hrep.added
  have hboth := congrArg List.length hall
  revert hboth
  rw [List.length_singleton]
  decide +kernel

end AdGuardHome.Dhcpd.V4Server
