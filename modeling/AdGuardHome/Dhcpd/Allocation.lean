import AdGuardHome.Dhcpd.Formed
import AdGuardHome.Dhcpd.Offsets

/-!
# Allocation against any availability of addresses

The loop of `allocateLease` with an oracle for `addrAvailable`.  A turn reserves the next one of a list of candidates,
first the free addresses of the range and then the expired leases, and blocks it if its address is reported busy, so
the loop goes through this list and ends.  What it returns is right exactly if nobody else holds the address of the
candidate that is taken and, if it is an expired lease, its hardware address is as long as that of the client, since
the new one is copied over it.
-/

namespace AdGuardHome.Dhcpd.V4Server

open AdGuardHome.Net AdGuardHome.Lib AdGuardHome.Dhcp

variable {env : HostEnv} {conf : V4ServerConf} {s : V4Server} {mac : HardwareAddr} {now : Time}

/-! ## The loop -/

/-- `allocateLease` with the clock at `now`.  `busy` has the addresses that were reported as in use, in their order;
the next probe finds the address `ip` available if `avail busy.length ip`.  `none` is for more turns than are given. -/
def allocateTurns (conf : V4ServerConf) (mac : HardwareAddr) (now : Time) (avail : ℕ → Addr → Bool) :
    ℕ → List Addr → V4Server → Option (V4Server × List Addr × Except Err (Option Ref))
  | 0, _, _ => none
  | k + 1, busy, s =>
    match s.reserveLease conf mac now with
    | (s', .error e) => some (s', busy, .error e)
    | (s', .ok none) => some (s', busy, .ok none)
    | (s', .ok (some r)) =>
      let ip := (s'.lease r).ip
      if avail busy.length ip then some (s', busy, .ok (some r))
      else allocateTurns conf mac now avail k (busy ++ [ip]) (s'.blocklistLease conf r now)

/-- It is `allocateLease` with as many probes answered as addresses are busy, where probes are sent. -/
theorem allocateLease_of_allocateTurns (hicmp : conf.icmpTimeout ≠ 0) {avail : ℕ → Addr → Bool} {k : ℕ}
    {busy busy' : List Addr} {s' : V4Server} {res : Except Err (Option Ref)}
    (h : allocateTurns conf mac now avail k busy s = some (s', busy', res)) :
    ∃ j, allocateLease conf mac now (List.replicate j ⟨now, now⟩) s = (s', res) := by
  induction k generalizing busy s with
  | zero => cases h
  | succ k ih =>
    rw [allocateTurns] at h
    generalize hturn : s.reserveLease conf mac now = turn at h
    obtain ⟨t, e | ⟨_ | r⟩⟩ := turn <;> dsimp only at h
    · cases h
      exact ⟨0, hturn⟩
    · cases h
      exact ⟨0, hturn⟩
    · split at h
      · cases h
        exact ⟨0, hturn⟩
      · obtain ⟨j, hj⟩ := ih h
        refine ⟨j + 1, ?_⟩
        rw [List.replicate_succ, allocateLease]
        simp only [hturn]
        rw [if_neg hicmp, hj]

/-- An entry that `findExpiredLease` may take. -/
def Expired (s : V4Server) (now : Time) (r : Ref) : Prop := (s.lease r).isStatic = false ∧ (s.lease r).expiry < now

instance (s : V4Server) (now : Time) : DecidablePred (Expired s now) :=
  fun _ => inferInstanceAs (Decidable (_ ∧ _))

/-- What the loop is to return when it takes the state `s` to the state `s'`. -/
def Result (conf : V4ServerConf) (mac : HardwareAddr) (now : Time) (avail : ℕ → Addr → Bool) (s s' : V4Server)
    (busy : List Addr) : Except Err (Option Ref) → Prop
  | .error _ => False
  | .ok (some r) =>
    (s'.lease r).hwAddr = mac ∧ conf.inRange (s'.lease r).ip = true ∧ avail busy.length (s'.lease r).ip = true ∧
      ∀ x ∈ s'.leases, x ≠ r → (s'.lease x).ip = (s'.lease r).ip → Expired s' now x
  | .ok none =>
    ∀ a, conf.inRange (.v4 a) = true →
      .v4 a ∈ busy ∨ ∃ x ∈ s.leases, (s.lease x).ip = .v4 a ∧ ¬ Expired s now x

/-- The loop ends and its result is right. -/
def Serves (conf : V4ServerConf) (mac : HardwareAddr) (now : Time) (avail : ℕ → Addr → Bool) (s : V4Server) : Prop :=
  ∃ k s' busy res, allocateTurns conf mac now avail k [] s = some (s', busy, res) ∧
    (∀ n ip, busy[n]? = some ip → avail n ip = false) ∧ Result conf mac now avail s s' busy res

/-! ## Candidates -/

/-- What a turn can reserve: a new lease on a free address, or an expired lease. -/
inductive Candidate
  | fresh (ip : BitVec 32)
  | expired (r : Ref)
deriving DecidableEq

namespace Candidate

def ip (s : V4Server) : Candidate → Addr
  | fresh ip => .v4 ip
  | expired r => (s.lease r).ip

/-- The state in which the candidate is reserved, and its lease. -/
def reserve (conf : V4ServerConf) (mac : HardwareAddr) (s : V4Server) : Candidate → V4Server × Ref
  | fresh ip =>
    ((s.alloc { (default : Lease) with ip := .v4 ip, hwAddr := mac }).store s.heap.next
      (conf.ipRange.offset (to16 (.v4 ip))).1, s.heap.next)
  | expired r => (s.modify r fun l => { l with hwAddr := copyBytes l.hwAddr mac }, r)

end Candidate

/-- The offsets of the range that are not marked, from below, as numbers of addresses. -/
def freeInts (conf : V4ServerConf) (s : V4Server) : List ℕ :=
  (List.range' conf.ipRange.start (conf.ipRange.stop - conf.ipRange.start + 1)).filter fun x =>
    !s.leasedOffsets.isSet (conf.ipRange.offset x).1

/-- The entries that have expired, in the order of the list. -/
def expiredLeases (s : V4Server) (now : Time) : List Ref := (s.leases.filter fun r => decide (Expired s now r)).eraseDups

/-- The candidates in the order in which the turns reserve them. -/
def candidates (conf : V4ServerConf) (s : V4Server) (now : Time) : List Candidate :=
  ((freeInts conf s).filterMap to4).map .fresh ++ (expiredLeases s now).map .expired

/-- The candidates that are busy, where the next probe has the number `n`, and the first one that is available. -/
def probe (avail : ℕ → Addr → Bool) (s : V4Server) : ℕ → List Candidate → List Candidate × Option Candidate
  | _, [] => ([], none)
  | n, c :: cs =>
    if avail n (c.ip s) then ([], some c)
    else
      let rest := probe avail s (n + 1) cs
      (c :: rest.1, rest.2)

/-- The candidate can be handed out after those that are busy. -/
structure Grantable (mac : HardwareAddr) (now : Time) (s : V4Server) (busy : List Candidate) (c : Candidate) :
    Prop where
  /-- The hardware address of an expired lease is as long as that of the client. -/
  length : ∀ r, c = .expired r → (s.lease r).hwAddr.length = mac.length
  /-- Its address has not been found busy before. -/
  unblocked : ∀ d ∈ busy, d.ip s ≠ c.ip s
  /-- No other entry holds its address. -/
  unheld : ∀ x ∈ s.leases, c ≠ .expired x → (s.lease x).ip = c.ip s → Expired s now x

/-- Every address of the range that is marked is held by an entry. -/
def MarkedHeld (conf : V4ServerConf) (s : V4Server) : Prop :=
  ∀ a, conf.inRange (.v4 a) = true → s.leasedOffsets.isSet (conf.ipRange.offset (to16 (.v4 a))).1 = true →
    ∃ x ∈ s.leases, (s.lease x).ip = .v4 a

/-- The first candidate that is available can be handed out, or there is none and the marked addresses are held. -/
def Grants (conf : V4ServerConf) (mac : HardwareAddr) (now : Time) (avail : ℕ → Addr → Bool) (s : V4Server) : Prop :=
  match probe avail s 0 (candidates conf s now) with
  | (busy, some c) => Grantable mac now s busy c
  | (_, none) => MarkedHeld conf s

/-! ### The next candidate -/

theorem mem_freeInts {x : ℕ} : x ∈ freeInts conf s ↔
    conf.ipRange.containsInt x = true ∧ s.leasedOffsets.isSet (conf.ipRange.offset x).1 = false := by
  have hlt := conf.ipRange.lt
  unfold freeInts
  rw [List.mem_filter, List.mem_range'_1, IPRange.containsInt_iff, Bool.not_eq_true']
  exact and_congr_left fun _ => ⟨fun h => ⟨h.1, by omega⟩, fun h => ⟨h.1, by omega⟩⟩

theorem nodup_freeInts : (freeInts conf s).Nodup := List.Nodup.filter _ List.nodup_range'

/-- The numbers are those of addresses. -/
theorem eq_to16_of_mem {x : ℕ} (h : x ∈ freeInts conf s) : ∃ a, x = to16 (.v4 a) :=
  conf.exists_v4_of_containsInt (mem_freeInts.1 h).1

theorem nextIP_eq (conf : V4ServerConf) (s : V4Server) : s.nextIP conf = (freeInts conf s).head?.bind to4 := by
  have hlt := conf.ipRange.lt
  unfold nextIP IPRange.find freeInts
  rw [← List.head?_filter]
  congr 2
  apply List.filter_congr
  intro x hx
  have hx := List.mem_range'_1.1 hx
  have hin : conf.ipRange.containsInt x = true := IPRange.containsInt_iff.2 ⟨hx.1, by omega⟩
  dsimp only
  rw [IPRange.offset_snd, hin, Bool.true_and]

theorem mem_freeAddrs {a : BitVec 32} : a ∈ (freeInts conf s).filterMap to4 ↔
    conf.inRange (.v4 a) = true ∧ s.leasedOffsets.isSet (conf.ipRange.offset (to16 (.v4 a))).1 = false := by
  rw [List.mem_filterMap]
  constructor
  · rintro ⟨x, hx, hxa⟩
    obtain ⟨b, rfl⟩ := eq_to16_of_mem hx
    rw [to4_to16, Option.some_inj] at hxa
    exact hxa ▸ mem_freeInts.1 hx
  · exact fun h => ⟨_, mem_freeInts.2 h, to4_to16 a⟩

theorem mem_expiredLeases {r : Ref} : r ∈ expiredLeases s now ↔ r ∈ s.leases ∧ Expired s now r := by
  rw [expiredLeases, List.mem_eraseDups, List.mem_filter, decide_eq_true_eq]

theorem mem_fresh {a : BitVec 32} : .fresh a ∈ candidates conf s now ↔
    conf.inRange (.v4 a) = true ∧ s.leasedOffsets.isSet (conf.ipRange.offset (to16 (.v4 a))).1 = false := by
  rw [← mem_freeAddrs, candidates, List.mem_append]
  constructor
  · rintro (h | h)
    · obtain ⟨b, hb, hba⟩ := List.mem_map.1 h
      exact Candidate.fresh.inj hba ▸ hb
    · obtain ⟨x, -, hx⟩ := List.mem_map.1 h
      cases hx
  · exact fun h => .inl (List.mem_map_of_mem h)

theorem mem_expired {r : Ref} : .expired r ∈ candidates conf s now ↔ r ∈ s.leases ∧ Expired s now r := by
  rw [← mem_expiredLeases, candidates, List.mem_append]
  constructor
  · rintro (h | h)
    · obtain ⟨b, -, hb⟩ := List.mem_map.1 h
      cases hb
    · obtain ⟨x, hx, hxr⟩ := List.mem_map.1 h
      exact Candidate.expired.inj hxr ▸ hx
  · exact fun h => .inr (List.mem_map_of_mem h)

/-- A turn reserves the first candidate. -/
theorem reserveLease_turn (s : V4Server) (mac : HardwareAddr) (now : Time) :
    s.reserveLease conf mac now = match candidates conf s now with
      | [] => (s, .ok none)
      | c :: _ => ((c.reserve conf mac s).1, .ok (some (c.reserve conf mac s).2)) := by
  have hip := nextIP_eq conf s
  unfold candidates
  cases hfree : freeInts conf s with
  | cons x xs =>
    obtain ⟨a, rfl⟩ := eq_to16_of_mem (hfree ▸ List.mem_cons_self : x ∈ freeInts conf s)
    rw [hfree, List.head?_cons, Option.bind_some, to4_to16] at hip
    rw [reserveLease_fresh hip, List.filterMap_cons_some (to4_to16 a)]
    rfl
  | nil =>
    rw [hfree] at hip
    have hfind : s.findExpiredLease now = (s.leases.filter fun r => decide (Expired s now r)).head? := by
      unfold findExpiredLease
      rw [← List.head?_filter]
      refine congrArg List.head? (List.filter_congr fun r _ => ?_)
      rw [← Bool.decide_eq_false, ← Bool.decide_and]
      rfl
    unfold expiredLeases
    cases hexp : s.leases.filter fun r => decide (Expired s now r) with
    | nil =>
      rw [hexp] at hfind
      rw [reserveLease_none hip hfind]
      rfl
    | cons r rs =>
      rw [hexp] at hfind
      rw [reserveLease_expired hip hfind, List.eraseDups_cons]
      rfl

/-! ## A busy candidate -/

/-- What a turn that finds the candidate busy makes of the state: `r` is blocked on its address, and it is a new entry
or the one that has expired. -/
structure Refused (conf : V4ServerConf) (now : Time) (s t : V4Server) (c : Candidate) (r : Ref) : Prop where
  formed : Formed conf t
  blocked : ¬ Expired t now r
  ip : (t.lease r).ip = c.ip s
  same : ∀ x ∈ s.leases, x ≠ r → t.lease x = s.lease x
  turn : match c with
    | .fresh a => r ∉ s.leases ∧ t.leases = s.leases ++ [r] ∧
        t.leasedOffsets = s.leasedOffsets.set (conf.ipRange.offset (to16 (.v4 a))).1 true
    | .expired x => r = x ∧ r ∈ s.leases ∧ Expired s now r ∧ t.leases = s.leases ∧ t.leasedOffsets = s.leasedOffsets

theorem not_expired_blocklistLease (hpos : 0 < conf.leaseTime) (s : V4Server) (r : Ref) (now : Time) :
    ¬ Expired (s.blocklistLease conf r now) now r := by
  rintro ⟨-, hexp⟩
  rw [blocklistLease, lease_modify, if_pos rfl] at hexp
  exact not_lt.2 (le_add_of_nonneg_right hpos.le) hexp

theorem ip_blocklistLease (s : V4Server) (r : Ref) (now : Time) (x : Ref) :
    ((s.blocklistLease conf r now).lease x).ip = (s.lease x).ip := by
  unfold blocklistLease
  apply ip_modify
  exact fun _ => rfl

theorem ip_reserve (s : V4Server) (c : Candidate) :
    ((c.reserve conf mac s).1.lease (c.reserve conf mac s).2).ip = c.ip s := by
  cases c with
  | fresh a => exact congrArg Lease.ip (lease_alloc_next s _)
  | expired r =>
    unfold Candidate.reserve
    apply ip_modify
    exact fun _ => rfl

theorem refused_fresh (hpos : 0 < conf.leaseTime) (hf : Formed conf s) (hmac : validateMAC mac = true)
    {a : BitVec 32} (hin : conf.inRange (.v4 a) = true) :
    Refused conf now s
      (((Candidate.fresh a).reserve conf mac s).1.blocklistLease conf s.heap.next now) (.fresh a) s.heap.next := by
  have hfresh : s.heap.next ∉ s.leases := fun hmem => Nat.lt_irrefl _ (hf.allocated _ hmem)
  have hlease : ∀ (t : V4Server) x, (t.store s.heap.next (conf.ipRange.offset (to16 (.v4 a))).1).lease x = t.lease x :=
    fun _ _ => rfl
  have hf' : Formed conf ((Candidate.fresh a).reserve conf mac s).1 := by
    refine (hf.alloc _).store _ (Nat.lt_succ_self _) ?_ ?_ ?_ ?_ <;> rw [lease_alloc_next]
    · rfl
    · exact hmac
    · exact fun _ => hin
    · exact fun hst => nomatch hst
  refine ⟨hf'.blocklistLease _ _, not_expired_blocklistLease hpos _ _ _, ?_, fun x hx hne => ?_, hfresh, rfl, rfl⟩
  · rw [ip_blocklistLease]
    exact ip_reserve s (.fresh a)
  · rw [blocklistLease, lease_modify, if_neg hne, Candidate.reserve, hlease,
      lease_alloc_of_lt s (hf.allocated x hx)]

theorem refused_expired (hpos : 0 < conf.leaseTime) (hf : Formed conf s) {r : Ref} (hr : r ∈ s.leases)
    (hexp : Expired s now r) :
    Refused conf now s (((Candidate.expired r).reserve conf mac s).1.blocklistLease conf r now) (.expired r) r := by
  have hf' : Formed conf ((Candidate.expired r).reserve conf mac s).1 :=
    hf.modify r (fun _ => ⟨rfl, rfl⟩) fun l hl => by rwa [validateMAC, length_copyBytes]
  refine ⟨hf'.blocklistLease _ _, not_expired_blocklistLease hpos _ _ _, ?_, fun x hx hne => ?_, rfl, hr, hexp, rfl, rfl⟩
  · rw [ip_blocklistLease]
    exact ip_reserve s (.expired r)
  · rw [blocklistLease, lease_modify, if_neg hne, Candidate.reserve, lease_modify, if_neg hne]

/-- The first candidate can be refused. -/
theorem refused_reserve (hpos : 0 < conf.leaseTime) (hf : Formed conf s) (hmac : validateMAC mac = true)
    {c : Candidate} (hc : c ∈ candidates conf s now) :
    Refused conf now s ((c.reserve conf mac s).1.blocklistLease conf (c.reserve conf mac s).2 now) c
      (c.reserve conf mac s).2 := by
  cases c with
  | fresh a => exact refused_fresh hpos hf hmac (mem_fresh.1 hc).1
  | expired r => exact refused_expired hpos hf (mem_expired.1 hc).1 (mem_expired.1 hc).2

namespace Refused

variable {t : V4Server} {c : Candidate} {r : Ref}

theorem leases (h : Refused conf now s t c r) {x : Ref} : x ∈ t.leases ↔ x = r ∨ x ∈ s.leases := by
  have hturn := h.turn
  cases c with
  | fresh a =>
    obtain ⟨-, hl, -⟩ := hturn
    rw [hl, List.mem_append, List.mem_singleton, or_comm]
  | expired y =>
    obtain ⟨-, hr, -, hl, -⟩ := hturn
    rw [hl]
    exact ⟨.inr, fun hx => hx.elim (fun hxr => hxr ▸ hr) id⟩

/-- The entries that have expired afterwards are the others that had expired before. -/
theorem expired_iff (h : Refused conf now s t c r) {x : Ref} (hx : x ∈ t.leases) :
    Expired t now x ↔ x ≠ r ∧ Expired s now x := by
  by_cases hxr : x = r
  · subst hxr
    exact iff_of_false h.blocked fun hexp => hexp.1 rfl
  · rw [Expired, h.same x ((h.leases.1 hx).resolve_left hxr) hxr]
    exact ⟨fun hexp => ⟨hxr, hexp⟩, fun hexp => hexp.2⟩

/-- No address changes. -/
theorem ip_eq (h : Refused conf now s t c r) {x : Ref} (hx : x ∈ s.leases) : (t.lease x).ip = (s.lease x).ip := by
  by_cases hxr : x = r
  · have hturn := h.turn
    have hip := h.ip
    cases c with
    | fresh a => exact absurd (hxr ▸ hx) hturn.1
    | expired y => rw [hxr, hip, ← hturn.1]; rfl
  · rw [h.same x hx hxr]

theorem freeInts_fresh {a : BitVec 32} {xs : List ℕ} (hfree : freeInts conf s = to16 (.v4 a) :: xs)
    (hbits : t.leasedOffsets = s.leasedOffsets.set (conf.ipRange.offset (to16 (.v4 a))).1 true) :
    freeInts conf t = xs := by
  have hmem := mem_freeInts.1 (hfree ▸ List.mem_cons_self : to16 (.v4 a) ∈ freeInts conf s)
  have hnodup := @nodup_freeInts conf s
  rw [hfree, List.nodup_cons] at hnodup
  -- the address is the only one whose offset is marked now
  have hfilter : freeInts conf t = (freeInts conf s).filter fun x => x ≠ to16 (.v4 a) := by
    have hlt := conf.ipRange.lt
    unfold freeInts
    rw [List.filter_filter]
    apply List.filter_congr
    intro x hx
    have hx := List.mem_range'_1.1 hx
    have hin : conf.ipRange.containsInt x = true := IPRange.containsInt_iff.2 ⟨hx.1, by omega⟩
    rw [hbits, BitSet.isSet_set]
    by_cases hxa : x = to16 (.v4 a)
    · simp [hxa]
    · have hoff : (conf.ipRange.offset x).1 ≠ (conf.ipRange.offset (to16 (.v4 a))).1 :=
        fun heq => hxa (IPRange.offset_inj hin hmem.1 heq)
      simp [hxa, hoff]
  rw [hfilter, hfree, List.filter_cons_of_neg (by simp), List.filter_eq_self]
  intro x hx
  exact decide_eq_true fun hxa => hnodup.1 (hxa ▸ hx)

/-- The other candidates are left, in their order. -/
theorem candidates_eq (h : Refused conf now s t c r) {cs : List Candidate} (hc : candidates conf s now = c :: cs) :
    candidates conf t now = cs := by
  have hturn := h.turn
  have hfilter : ∀ x ∈ s.leases, decide (Expired t now x) = (decide (x ≠ r) && decide (Expired s now x)) := by
    intro x hx
    rw [← Bool.decide_and]
    exact decide_eq_decide.2 (h.expired_iff (h.leases.2 (.inr hx)))
  unfold candidates at hc ⊢
  cases hfree : freeInts conf s with
  | cons x xs =>
    obtain ⟨a, rfl⟩ := eq_to16_of_mem (hfree ▸ List.mem_cons_self : x ∈ freeInts conf s)
    rw [hfree, List.filterMap_cons_some (to4_to16 a), List.map_cons, List.cons_append] at hc
    obtain ⟨rfl, rfl⟩ := List.cons.inj hc
    obtain ⟨hfresh, hl, hbits⟩ := hturn
    have hexp : expiredLeases t now = expiredLeases s now := by
      have hlast : decide (Expired t now r) = false := decide_eq_false h.blocked
      unfold expiredLeases
      rw [hl, List.filter_append, List.filter_cons, hlast, List.filter_nil, if_neg Bool.false_ne_true,
        List.append_nil]
      refine congrArg _ (List.filter_congr fun x hx => ?_)
      have hne : x ≠ r := fun hxr => hfresh (hxr ▸ hx)
      rw [hfilter x hx, decide_eq_true hne, Bool.true_and]
    rw [freeInts_fresh hfree hbits, hexp]
  | nil =>
    rw [hfree, List.filterMap_nil, List.map_nil, List.nil_append] at hc
    unfold expiredLeases at hc
    cases hold : s.leases.filter fun x => decide (Expired s now x) with
    | nil =>
      rw [hold] at hc
      cases hc
    | cons y ys =>
      rw [hold, List.eraseDups_cons, List.map_cons] at hc
      obtain ⟨rfl, rfl⟩ := List.cons.inj hc
      obtain ⟨rfl, -, -, hl, hbits⟩ := hturn
      have hnone : freeInts conf t = [] := by
        rw [← hfree]
        unfold freeInts
        rw [hbits]
      have hnew : (s.leases.filter fun x => decide (Expired t now x)) = ys.filter fun x => !(x == r) := by
        rw [List.filter_congr hfilter, ← List.filter_filter, hold, List.filter_cons_of_neg (by simp)]
        exact List.filter_congr fun x _ => by simp [Bool.beq_eq_decide_eq]
      unfold expiredLeases
      rw [hnone, hl, hnew]
      rfl

end Refused

/-! ## The loop and its candidates -/

/-- The state after turns that found the candidates `busy` of `s₀` in use. -/
structure Tracks (conf : V4ServerConf) (now : Time) (s₀ : V4Server) (busy : List Candidate) (s : V4Server) : Prop where
  formed : Formed conf s
  /-- An entry is as it was at first, or it blocks a busy address. -/
  entries : ∀ x ∈ s.leases, (x ∈ s₀.leases ∧ s.lease x = s₀.lease x) ∨
    (¬ Expired s now x ∧ ∃ c ∈ busy, c.ip s₀ = (s.lease x).ip)
  /-- The first entries are there, and those that have expired had expired before. -/
  kept : ∀ x ∈ s₀.leases, x ∈ s.leases ∧ (s.lease x).ip = (s₀.lease x).ip ∧ (Expired s now x → Expired s₀ now x)
  blocked : ∀ c ∈ busy, ∃ x ∈ s.leases, ¬ Expired s now x ∧ (s.lease x).ip = c.ip s₀

namespace Tracks

variable {s₀ : V4Server} {busy : List Candidate} {c : Candidate}

theorem refl (hf : Formed conf s) : Tracks conf now s [] s where
  formed := hf
  entries := fun x hx => .inl ⟨hx, rfl⟩
  kept := fun x hx => ⟨hx, rfl, id⟩
  blocked := by simp

/-- A lease that has expired is as it was at first. -/
theorem expired (h : Tracks conf now s₀ busy s) {x : Ref} (hx : x ∈ s.leases) (hexp : Expired s now x) :
    x ∈ s₀.leases ∧ s.lease x = s₀.lease x := (h.entries x hx).resolve_right fun hb => hb.1 hexp

/-- A candidate has had its address from the start. -/
theorem ip_eq (h : Tracks conf now s₀ busy s) (hc : c ∈ candidates conf s now) : c.ip s = c.ip s₀ := by
  cases c with
  | fresh a => rfl
  | expired r =>
    obtain ⟨hr, hexp⟩ := mem_expired.1 hc
    exact congrArg Lease.ip (h.expired hr hexp).2

theorem refused (h : Tracks conf now s₀ busy s) {t : V4Server} {r : Ref} (href : Refused conf now s t c r)
    (hc : c ∈ candidates conf s now) : Tracks conf now s₀ (busy ++ [c]) t where
  formed := href.formed
  entries := by
    intro x hx
    by_cases hxr : x = r
    · subst hxr
      exact .inr ⟨href.blocked, c, by simp, by rw [href.ip, h.ip_eq hc]⟩
    · have hmem := (href.leases.1 hx).resolve_left hxr
      have hsame := href.same x hmem hxr
      rw [Expired, hsame]
      exact (h.entries x hmem).imp_right fun ⟨hb, d, hd, hip⟩ => ⟨hb, d, List.mem_append_left _ hd, hip⟩
  kept := by
    intro x hx
    obtain ⟨hmem, hip, hexp⟩ := h.kept x hx
    have hmem' := href.leases.2 (.inr hmem)
    exact ⟨hmem', (href.ip_eq hmem).trans hip, fun hexp' => hexp ((href.expired_iff hmem').1 hexp').2⟩
  blocked := by
    intro d hd
    rcases List.mem_append.1 hd with hd | hd
    · obtain ⟨x, hx, hb, hip⟩ := h.blocked d hd
      have hmem' := href.leases.2 (.inr hx)
      exact ⟨x, hmem', fun hexp => hb ((href.expired_iff hmem').1 hexp).2, (href.ip_eq hx).trans hip⟩
    · rw [List.mem_singleton.1 hd]
      exact ⟨r, href.leases.2 (.inl rfl), href.blocked, href.ip.trans (h.ip_eq hc)⟩

end Tracks

/-- How the loop ends: with no lease, or with that of the candidate that is available. -/
def Ends (conf : V4ServerConf) (mac : HardwareAddr) (now : Time) (s₀ : V4Server) (busy : List Candidate)
    (s' : V4Server) (res : Except Err (Option Ref)) : Option Candidate → Prop
  | none => res = .ok none
  | some c => ∃ t, Tracks conf now s₀ busy t ∧ c ∈ candidates conf t now ∧ s' = (c.reserve conf mac t).1 ∧
      res = .ok (some (c.reserve conf mac t).2)

/-- The loop goes through the candidates: by induction on those that are left. -/
theorem allocateTurns_probe (hpos : 0 < conf.leaseTime) (hmac : validateMAC mac = true) (avail : ℕ → Addr → Bool)
    (s₀ : V4Server) (cs : List Candidate) : ∀ (busy : List Candidate) (s : V4Server), candidates conf s now = cs →
      Tracks conf now s₀ busy s → ∃ k s' res,
        allocateTurns conf mac now avail k (busy.map (·.ip s₀)) s =
          some (s', (busy ++ (probe avail s₀ busy.length cs).1).map (·.ip s₀), res) ∧
        Ends conf mac now s₀ (busy ++ (probe avail s₀ busy.length cs).1) s' res (probe avail s₀ busy.length cs).2 := by
  induction cs with
  | nil =>
    intro busy s hcs _
    refine ⟨1, s, .ok none, ?_, rfl⟩
    rw [allocateTurns, reserveLease_turn, hcs, probe, List.append_nil]
  | cons c cs ih =>
    intro busy s hcs h
    have hc : c ∈ candidates conf s now := hcs ▸ List.mem_cons_self
    have hip : ((c.reserve conf mac s).1.lease (c.reserve conf mac s).2).ip = c.ip s₀ :=
      (ip_reserve s c).trans (h.ip_eq hc)
    rw [probe]
    by_cases havail : avail busy.length (c.ip s₀) = true
    · refine ⟨1, (c.reserve conf mac s).1, .ok (some (c.reserve conf mac s).2), ?_, ?_⟩
      · rw [allocateTurns, reserveLease_turn, hcs]
        simp only [hip, List.length_map, havail, if_true, List.append_nil]
      · rw [if_pos havail, List.append_nil]
        exact ⟨s, h, hc, rfl, rfl⟩
    · have href := refused_reserve hpos h.formed hmac hc
      obtain ⟨k, s', res, hrun, hends⟩ := ih (busy ++ [c]) _ (href.candidates_eq hcs) (h.refused href hc)
      rw [List.length_append, List.length_singleton, List.append_assoc, List.singleton_append] at hrun hends
      refine ⟨k + 1, s', res, ?_, ?_⟩
      · rw [allocateTurns, reserveLease_turn, hcs]
        simp only [hip, List.length_map, havail, Bool.false_eq_true, if_false]
        rw [List.map_append, List.map_singleton] at hrun
        exact hrun
      · rw [if_neg havail]
        exact hends

/-- The result does not depend on how many turns are given. -/
theorem allocateTurns_unique {avail : ℕ → Addr → Bool} {k j : ℕ} {busy : List Addr}
    {res res' : V4Server × List Addr × Except Err (Option Ref)}
    (h : allocateTurns conf mac now avail k busy s = some res)
    (h' : allocateTurns conf mac now avail j busy s = some res') : res = res' := by
  induction k generalizing j busy s with
  | zero => cases h
  | succ k ih =>
    cases j with
    | zero => cases h'
    | succ j =>
      rw [allocateTurns] at h h'
      generalize s.reserveLease conf mac now = turn at h h'
      obtain ⟨t, e | ⟨_ | r⟩⟩ := turn <;> dsimp only at h h'
      · exact Option.some.inj (h.symm.trans h')
      · exact Option.some.inj (h.symm.trans h')
      · split at h
        · rename_i havail
          rw [if_pos havail] at h'
          exact Option.some.inj (h.symm.trans h')
        · rename_i havail
          rw [if_neg havail] at h'
          exact ih h h'

/-! ### The candidates that are probed -/

theorem avail_of_busy {avail : ℕ → Addr → Bool} {n : ℕ} {cs : List Candidate} {i : ℕ} {c : Candidate}
    (h : (probe avail s n cs).1[i]? = some c) : avail (n + i) (c.ip s) = false := by
  induction cs generalizing n i with
  | nil => cases h
  | cons d cs ih =>
    rw [probe] at h
    split at h
    · cases h
    · rename_i havail
      cases i with
      | zero =>
        cases h
        simpa using havail
      | succ i =>
        have hnext := ih h
        rwa [Nat.add_right_comm, Nat.add_assoc] at hnext

theorem avail_of_probe {avail : ℕ → Addr → Bool} {n : ℕ} {cs : List Candidate} {c : Candidate}
    (h : (probe avail s n cs).2 = some c) : avail (n + (probe avail s n cs).1.length) (c.ip s) = true := by
  induction cs generalizing n with
  | nil => cases h
  | cons d cs ih =>
    rw [probe] at h ⊢
    split at h
    · rename_i havail
      rw [if_pos havail]
      cases h
      exact havail
    · rename_i havail
      rw [if_neg havail, List.length_cons, Nat.add_comm _ 1, ← Nat.add_assoc]
      exact ih h

/-- The candidate that is available comes right behind those that are busy. -/
theorem probe_some {avail : ℕ → Addr → Bool} {n : ℕ} {cs : List Candidate} {c : Candidate}
    (h : (probe avail s n cs).2 = some c) : ∃ rest, cs = (probe avail s n cs).1 ++ c :: rest := by
  induction cs generalizing n with
  | nil => cases h
  | cons d cs ih =>
    rw [probe] at h ⊢
    split at h
    · rename_i havail
      rw [if_pos havail]
      cases h
      exact ⟨cs, rfl⟩
    · rename_i havail
      obtain ⟨rest, hrest⟩ := ih h
      rw [if_neg havail]
      exact ⟨rest, congrArg _ hrest⟩

theorem probe_none {avail : ℕ → Addr → Bool} {n : ℕ} {cs : List Candidate} (h : (probe avail s n cs).2 = none) :
    (probe avail s n cs).1 = cs := by
  induction cs generalizing n with
  | nil => rfl
  | cons d cs ih =>
    rw [probe] at h ⊢
    split at h
    · cases h
    · rename_i havail
      rw [if_neg havail]
      exact congrArg _ (ih h)

/-! ## The result -/

theorem copyBytes_eq_iff {dst src : List UInt8} : copyBytes dst src = src ↔ dst.length = src.length := by
  constructor
  · intro h
    rw [← length_copyBytes dst src, h]
  · intro h
    rw [copyBytes, h, List.take_length, ← h, List.drop_length, List.append_nil]

/-- The entries of the state in which a candidate is reserved. -/
theorem mem_reserve {c : Candidate} {x : Ref} (hc : c ∈ candidates conf s now) :
    x ∈ (c.reserve conf mac s).1.leases ↔ x = (c.reserve conf mac s).2 ∨ x ∈ s.leases := by
  cases c with
  | fresh a =>
    show x ∈ s.leases ++ [s.heap.next] ↔ x = s.heap.next ∨ x ∈ s.leases
    rw [List.mem_append, List.mem_singleton, or_comm]
  | expired r => exact ⟨.inr, fun hx => hx.elim (fun hxr => hxr ▸ (mem_expired.1 hc).1) id⟩

theorem lease_reserve (hf : Formed conf s) {c : Candidate} {x : Ref} (hx : x ∈ s.leases)
    (hne : x ≠ (c.reserve conf mac s).2) : (c.reserve conf mac s).1.lease x = s.lease x := by
  cases c with
  | fresh a => exact lease_alloc_of_lt s (hf.allocated x hx) _
  | expired r =>
    have hne' : x ≠ r := hne
    show (s.modify r _).lease x = s.lease x
    rw [lease_modify, if_neg hne']

/-- The lease of the candidate is the client's if the hardware addresses are equally long. -/
theorem hwAddr_reserve {s₀ : V4Server} {busy : List Candidate} (h : Tracks conf now s₀ busy s) {c : Candidate}
    (hc : c ∈ candidates conf s now) : ((c.reserve conf mac s).1.lease (c.reserve conf mac s).2).hwAddr = mac ↔
      ∀ r, c = .expired r → (s₀.lease r).hwAddr.length = mac.length := by
  cases c with
  | fresh a => exact iff_of_true (congrArg Lease.hwAddr (lease_alloc_next s _)) nofun
  | expired r =>
    obtain ⟨hr, hexp⟩ := mem_expired.1 hc
    have hlease : ((s.modify r fun l => { l with hwAddr := copyBytes l.hwAddr mac }).lease r).hwAddr =
        copyBytes (s₀.lease r).hwAddr mac := by
      rw [lease_modify, if_pos rfl, (h.expired hr hexp).2]
    show ((s.modify r fun l => { l with hwAddr := copyBytes l.hwAddr mac }).lease r).hwAddr = mac ↔ _
    rw [hlease, copyBytes_eq_iff]
    exact ⟨fun hlen x hx => Candidate.expired.inj hx ▸ hlen, fun hall => hall r rfl⟩

theorem inRange_candidate {s₀ : V4Server} {busy : List Candidate} (h : Tracks conf now s₀ busy s) {c : Candidate}
    (hc : c ∈ candidates conf s now) : conf.inRange (c.ip s₀) = true := by
  rw [← h.ip_eq hc]
  cases c with
  | fresh a => exact (mem_fresh.1 hc).1
  | expired r =>
    obtain ⟨hr, hexp⟩ := mem_expired.1 hc
    exact h.formed.dynamic r hr hexp.1

/-- The candidate is nobody else's, in the state in which it is reserved, if it has not been busy and no entry held its
address at first. -/
theorem unheld_reserve {s₀ : V4Server} {busy : List Candidate} (h : Tracks conf now s₀ busy s) {c : Candidate}
    (hc : c ∈ candidates conf s now) :
    (∀ x ∈ (c.reserve conf mac s).1.leases, x ≠ (c.reserve conf mac s).2 →
        ((c.reserve conf mac s).1.lease x).ip = c.ip s₀ → Expired (c.reserve conf mac s).1 now x) ↔
      (∀ d ∈ busy, d.ip s₀ ≠ c.ip s₀) ∧
        ∀ x ∈ s₀.leases, c ≠ .expired x → (s₀.lease x).ip = c.ip s₀ → Expired s₀ now x := by
  -- the reserved lease is a new entry or the one that has expired
  have hown : ∀ x ∈ s.leases, x ≠ (c.reserve conf mac s).2 ↔ c ≠ .expired x := by
    intro x hx
    cases c with
    | fresh a =>
      exact iff_of_true (fun hxr => Nat.lt_irrefl _ (hxr ▸ h.formed.allocated x hx)) nofun
    | expired r => exact ⟨fun hne heq => hne (Candidate.expired.inj heq).symm, fun hne hxr => hne (hxr ▸ rfl)⟩
  have hothers : (∀ x ∈ (c.reserve conf mac s).1.leases, x ≠ (c.reserve conf mac s).2 →
        ((c.reserve conf mac s).1.lease x).ip = c.ip s₀ → Expired (c.reserve conf mac s).1 now x) ↔
      ∀ x ∈ s.leases, c ≠ .expired x → (s.lease x).ip = c.ip s₀ → Expired s now x := by
    constructor
    · intro hall x hx hne hip
      have hne' := (hown x hx).2 hne
      have hsame := @lease_reserve conf s mac h.formed _ _ hx hne'
      have hexp := hall x ((mem_reserve hc).2 (.inr hx)) hne' (by rw [hsame, hip])
      rwa [Expired, hsame] at hexp
    · intro hall x hx hne hip
      have hmem := ((mem_reserve hc).1 hx).resolve_left hne
      have hsame := @lease_reserve conf s mac h.formed _ _ hmem hne
      rw [hsame] at hip
      rw [Expired, hsame]
      exact hall x hmem ((hown x hmem).1 hne) hip
  rw [hothers]
  constructor
  · intro hall
    refine ⟨fun d hd heq => ?_, fun x hx hne hip => ?_⟩
    · obtain ⟨x, hx, hb, hip⟩ := h.blocked d hd
      refine hb (hall x hx (fun hcx => hb ?_) (hip.trans heq))
      exact (mem_expired.1 (hcx ▸ hc)).2
    · obtain ⟨hmem, hip', hexp⟩ := h.kept x hx
      exact hexp (hall x hmem hne (hip'.trans hip))
  · rintro ⟨hbusy, hall⟩ x hx hne hip
    rcases h.entries x hx with ⟨hmem, hsame⟩ | ⟨-, d, hd, hdip⟩
    · rw [hsame] at hip
      rw [Expired, hsame]
      exact hall x hmem hne hip
    · exact absurd (hdip.trans hip) (hbusy d hd)

/-- The reserved candidate is a right result if it can be handed out, and only then. -/
theorem result_some {s₀ : V4Server} {busy : List Candidate} {avail : ℕ → Addr → Bool} (h : Tracks conf now s₀ busy s)
    {c : Candidate} (hc : c ∈ candidates conf s now) (havail : avail busy.length (c.ip s₀) = true) :
    Result conf mac now avail s₀ (c.reserve conf mac s).1 (busy.map (·.ip s₀))
        (.ok (some (c.reserve conf mac s).2)) ↔ Grantable mac now s₀ busy c := by
  have hip : ((c.reserve conf mac s).1.lease (c.reserve conf mac s).2).ip = c.ip s₀ :=
    (ip_reserve s c).trans (h.ip_eq hc)
  unfold Result
  dsimp only
  rw [hip, hwAddr_reserve h hc, unheld_reserve h hc, List.length_map]
  constructor
  · rintro ⟨hlength, -, -, hunblocked, hunheld⟩
    exact ⟨hlength, hunblocked, hunheld⟩
  · rintro ⟨hlength, hunblocked, hunheld⟩
    exact ⟨hlength, inRange_candidate h hc, havail, hunblocked, hunheld⟩

/-- After all candidates no lease is a right result if the marked addresses were held, and only then. -/
theorem result_none {s' : V4Server} {avail : ℕ → Addr → Bool} :
    Result conf mac now avail s s' ((candidates conf s now).map (·.ip s)) (.ok none) ↔ MarkedHeld conf s := by
  constructor
  · intro h a ha hset
    rcases h a ha with hbusy | ⟨x, hx, hip, -⟩
    · obtain ⟨c, hc, hip⟩ := List.mem_map.1 hbusy
      cases c with
      | fresh b =>
        have hunset := (mem_fresh.1 hc).2
        rw [Addr.v4.inj hip, hset] at hunset
        cases hunset
      | expired r => exact ⟨r, (mem_expired.1 hc).1, hip⟩
    · exact ⟨x, hx, hip⟩
  · intro h a ha
    cases hset : s.leasedOffsets.isSet (conf.ipRange.offset (to16 (.v4 a))).1 with
    | false => exact .inl (List.mem_map.2 ⟨.fresh a, mem_fresh.2 ⟨ha, hset⟩, rfl⟩)
    | true =>
      obtain ⟨x, hx, hip⟩ := h a ha hset
      by_cases hexp : Expired s now x
      · exact .inl (List.mem_map.2 ⟨.expired x, mem_expired.2 ⟨hx, hexp⟩, hip⟩)
      · exact .inr ⟨x, hx, hip, hexp⟩

/-- In every state that can be reached, whatever addresses are in use, a client is served if the first candidate that
is available can be handed out, or if there is none and the marked addresses are held, and only then. -/
theorem serves_iff_grants (hs : Reachable env conf s) (hpos : 0 < conf.leaseTime) (hmac : validateMAC mac = true)
    (avail : ℕ → Addr → Bool) : Serves conf mac now avail s ↔ Grants conf mac now avail s := by
  obtain ⟨k, s', res, hrun, hends⟩ :=
    allocateTurns_probe hpos hmac avail s (candidates conf s now) [] s rfl (Tracks.refl hs.formed)
  simp only [List.map_nil, List.nil_append, List.length_nil] at hrun hends
  have hbusy : ∀ n ip, ((probe avail s 0 (candidates conf s now)).1.map (·.ip s))[n]? = some ip →
      avail n ip = false := by
    intro n ip hn
    rw [List.getElem?_map] at hn
    obtain ⟨c, hc, rfl⟩ := Option.map_eq_some_iff.1 hn
    have hav := avail_of_busy hc
    rwa [Nat.zero_add] at hav
  have hresult : Serves conf mac now avail s ↔
      Result conf mac now avail s s' ((probe avail s 0 (candidates conf s now)).1.map (·.ip s)) res := by
    constructor
    · rintro ⟨k', s'', busy, res', hrun', -, h⟩
      cases allocateTurns_unique hrun hrun'
      exact h
    · exact fun h => ⟨k, s', _, res, hrun, hbusy, h⟩
  rw [hresult, Grants]
  have havail := @avail_of_probe s avail 0 (candidates conf s now)
  have hall := @probe_none s avail 0 (candidates conf s now)
  generalize probe avail s 0 (candidates conf s now) = p at hends havail hall ⊢
  obtain ⟨busy, c | c⟩ := p
  · rw [show res = .ok none from hends, show busy = candidates conf s now from hall rfl]
    exact result_none
  · obtain ⟨t, ht, hc, rfl, rfl⟩ := hends
    have hav := havail rfl
    rw [Nat.zero_add] at hav
    exact result_some ht hc hav

/-! ## Where the addresses are unique and the bit set is exact -/

theorem nodup_eraseDups : ∀ l : List Ref, l.eraseDups.Nodup
  | [] => List.nodup_nil
  | r :: l => by
    rw [List.eraseDups_cons, List.nodup_cons]
    refine ⟨?_, nodup_eraseDups _⟩
    rw [List.mem_eraseDups, List.mem_filter]
    simp
  termination_by l => l.length
  decreasing_by exact Nat.lt_succ_of_le (List.length_filter_le _ _)

/-- No two candidates have the same address. -/
theorem OffsetsInv.nodup_candidates (h : OffsetsInv conf s) : ((candidates conf s now).map (·.ip s)).Nodup := by
  unfold candidates
  rw [List.map_append, List.map_map, List.map_map, List.nodup_append]
  refine ⟨?_, ?_, ?_⟩
  · refine List.Nodup.map (fun a b hab => Addr.v4.inj hab) ?_
    refine List.Nodup.of_map (fun a => to16 (.v4 a)) ?_
    have hback : ((freeInts conf s).filterMap to4).map (fun a => to16 (.v4 a)) = freeInts conf s := by
      rw [List.map_filterMap]
      refine (List.filterMap_congr fun x hx => ?_).trans (List.filterMap_some)
      obtain ⟨a, rfl⟩ := eq_to16_of_mem hx
      rw [to4_to16]
      rfl
    rw [hback]
    exact nodup_freeInts
  · refine List.Nodup.map_on (fun x hx y hy hxy => ?_) (nodup_eraseDups _)
    have hxi := h.index x (mem_expiredLeases.1 hx).1
    have hyi := h.index y (mem_expiredLeases.1 hy).1
    have hip : (s.lease x).ip = (s.lease y).ip := hxy
    rw [hip, hyi] at hxi
    exact (Option.some.inj hxi).symm
  · rintro _ hfree _ hexp rfl
    obtain ⟨a, ha, rfl⟩ := List.mem_map.1 hfree
    obtain ⟨x, hx, hip⟩ := List.mem_map.1 hexp
    obtain ⟨hin, hunset⟩ := mem_freeAddrs.1 ha
    have hmark := h.marked x (mem_expiredLeases.1 hx).1
    rw [show (s.lease x).ip = .v4 a from hip, hunset] at hmark
    exact Bool.false_ne_true (hmark hin)

/-- Only the length of a hardware address is asked, and just if an expired lease is taken. -/
theorem OffsetsInv.grants (h : OffsetsInv conf s) (avail : ℕ → Addr → Bool)
    (hlength : ∀ r, (probe avail s 0 (candidates conf s now)).2 = some (.expired r) →
      (s.lease r).hwAddr.length = mac.length) : Grants conf mac now avail s := by
  have hsome := @probe_some s avail 0 (candidates conf s now)
  have hnodup := @nodup_candidates conf s now h
  unfold Grants
  generalize probe avail s 0 (candidates conf s now) = p at hsome hlength
  obtain ⟨busy, _ | c⟩ := p
  · exact fun a ha hset => h.held ha hset
  · obtain ⟨rest, hrest⟩ := hsome rfl
    have hc : c ∈ candidates conf s now := hrest ▸ by simp
    rw [hrest, List.map_append, List.nodup_append] at hnodup
    refine ⟨fun r hr => hlength r (congrArg some hr), fun d hd => ?_, fun x hx hne hip => ?_⟩
    · exact hnodup.2.2 _ (List.mem_map_of_mem hd) _ (by simp)
    · exfalso
      cases c with
      | fresh a =>
        obtain ⟨hin, hunset⟩ := mem_fresh.1 hc
        have hmark := h.marked x hx
        rw [show (s.lease x).ip = .v4 a from hip, hunset] at hmark
        exact Bool.false_ne_true (hmark hin)
      | expired r =>
        have hri := h.index r (mem_expired.1 hc).1
        have hip' : (s.lease x).ip = (s.lease r).ip := hip
        rw [← hip', h.index x hx] at hri
        exact hne (congrArg Candidate.expired (Option.some.inj hri).symm)

/-! ### A full range -/

/-- Three clients have been offered the addresses of the range. -/
def offers : List Op :=
  [.discover (lanRequest [2, 0, 0, 0, 0, 1] none "") 1 [], .discover (lanRequest [2, 0, 0, 0, 0, 2] none "") 1 [],
    .discover (lanRequest [2, 0, 0, 0, 0, 3] none "") 1 []]

def fullRange : V4Server := run (step asciiEnv lanConf) (resetLeases asciiEnv lanConf empty []) offers

theorem reachable_fullRange : Reachable asciiEnv lanConf fullRange := ⟨[], offers, by simp, rfl⟩

/-- The first address is in use by another host, so the offer of the second one is taken over. -/
theorem serves_fullRange : Serves lanConf [2, 0, 0, 0, 0, 4] 5 (fun _ ip => ip != .v4 0xc0a80a64) fullRange := by
  have hsafe : Meets (step asciiEnv lanConf)
      (Safe asciiEnv lanConf fun ip => lanConf.subnet.contains ip = true → lanConf.inRange ip = true) empty offers := by
    decide +kernel
  have hinv : OffsetsInv lanConf fullRange := OffsetsInv.closed.run OffsetsInv.empty hsafe
  have hexpired : (probe (fun _ ip => ip != .v4 0xc0a80a64) fullRange 0 (candidates lanConf fullRange 5)).2 =
      some (.expired 1) := by decide +kernel
  refine (serves_iff_grants reachable_fullRange (by decide) rfl _).2 (hinv.grants _ fun r hr => ?_)
  cases hexpired.symm.trans hr
  decide +kernel

/-- A client with a hardware address of eight bytes is given a lease with the first six. -/
theorem not_serves_fullRange :
    ¬ ∀ (env : HostEnv) (conf : V4ServerConf) (s : V4Server), Reachable env conf s → 0 < conf.leaseTime →
      ∀ (mac : HardwareAddr) (now : Time), validateMAC mac = true → s.findLease mac = none →
        ∀ avail, Serves conf mac now avail s := by
  intro h
  obtain ⟨k, s', busy, res, hrun, -, hres⟩ := h asciiEnv lanConf fullRange reachable_fullRange (by decide)
    [2, 0, 0, 0, 0, 0, 0, 4] 5 rfl (by decide +kernel) fun _ _ => true
  have hsome : (fullRange.reserveLease lanConf [2, 0, 0, 0, 0, 0, 0, 4] 5).2 = .ok (some 0) := by decide +kernel
  have hmac : ((fullRange.reserveLease lanConf [2, 0, 0, 0, 0, 0, 0, 4] 5).1.lease 0).hwAddr ≠
      [2, 0, 0, 0, 0, 0, 0, 4] := by decide +kernel
  cases k with
  | zero => cases hrun
  | succ k =>
    rw [allocateTurns] at hrun
    generalize fullRange.reserveLease lanConf [2, 0, 0, 0, 0, 0, 0, 4] 5 = turn at hrun hsome hmac
    obtain ⟨t, res'⟩ := turn
    dsimp only at hsome hmac
    subst hsome
    cases hrun
    exact hmac hres.1

end AdGuardHome.Dhcpd.V4Server
