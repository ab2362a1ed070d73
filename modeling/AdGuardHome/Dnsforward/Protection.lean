import Mathlib.Algebra.Order.Ring.Int
import Mathlib.Tactic.Push
import AdGuardHome.Lib.Run

/-!
# The protection switch

The protection can be switched off for some time.  The first DNS request after the end of the pause starts a
goroutine that switches it on again; the request itself holds the lock for reading only, so the goroutine takes
the lock later, and other requests may change the switch before it does.  Times are in nanoseconds.
-/

namespace AdGuardHome.Dnsforward

open AdGuardHome.Lib

/-- The protection fields of the filter's configuration. -/
structure Protection where
  enabled : Bool
  disabledUntil : Option ℤ
  deriving DecidableEq, Repr

structure ProtectionJSON where
  enabled : Bool
  duration : UInt64
  deriving DecidableEq, Repr

/-- The switch and the goroutines.  `last` and `clock` are not read by the server: what the last request has set,
and the latest time of a step. -/
structure Switch where
  protection : Protection
  protectionUpdateInProgress : Bool
  /-- Goroutines that are still to take the lock. -/
  started : ℕ
  /-- Goroutines that have released the lock and are still to reset `protectionUpdateInProgress`. -/
  released : ℕ
  last : Protection
  clock : ℤ
  deriving DecidableEq, Repr

namespace Switch

/-- A server with the protection of its configuration file. -/
def new (p : Protection) (now : ℤ) : Switch := ⟨p, false, 0, 0, p, now⟩

/-- The new state of the server and the status it answers with. -/
def updatedProtectionStatus (s : Switch) (now : ℤ) : Switch × Protection :=
  match s.protection.disabledUntil with
  | none => (s, s.protection)
  | some disabledUntil =>
    if now < disabledUntil then (s, ⟨false, disabledUntil⟩) else
    -- The compare-and-swap decides if this request starts the goroutine.
    let s := if s.protectionUpdateInProgress then s else
      { s with protectionUpdateInProgress := true, started := s.started + 1 }
    (s, ⟨true, none⟩)

/-- What the request sets; `none` is a request that the handler rejects. -/
def requested (req : ProtectionJSON) (now : ℤ) : Option Protection :=
  if 0 < req.duration then
    if req.enabled then none
    else some ⟨req.enabled, some (now + ((req.duration.toNat : ℤ) * 10 ^ 6).bmod (2 ^ 64))⟩
  else some ⟨req.enabled, none⟩

/-- The handler of `POST /control/protection`; `none` is a body that is not decoded. -/
def handleSetProtection (s : Switch) (req : Option ProtectionJSON) (now : ℤ) : Switch :=
  match req.bind (requested · now) with
  | none => s
  | some p => { s with protection := p, last := p }

/-- The section of `enableProtectionAfterPause` under the lock. -/
def enableProtectionAfterPause (s : Switch) : Switch :=
  if s.started = 0 then s else
  { s with protection := ⟨true, none⟩, started := s.started - 1, released := s.released + 1 }

/-- The last deferred call of `enableProtectionAfterPause`. -/
def storeProtectionUpdateInProgress (s : Switch) : Switch :=
  if s.released = 0 then s else
  { s with protectionUpdateInProgress := false, released := s.released - 1 }

inductive Op where
  | updatedProtectionStatus
  | handleSetProtection (req : Option ProtectionJSON)
  | enableProtectionAfterPause
  | storeProtectionUpdateInProgress
  deriving DecidableEq, Repr

/-- One step of a request or of a goroutine at the time `now`. -/
def step (s : Switch) (o : Op × ℤ) : Switch :=
  let s := { s with clock := max s.clock o.2 }
  match o.1 with
  | .updatedProtectionStatus => (s.updatedProtectionStatus o.2).1
  | .handleSetProtection req => s.handleSetProtection req o.2
  | .enableProtectionAfterPause => s.enableProtectionAfterPause
  | .storeProtectionUpdateInProgress => s.storeProtectionUpdateInProgress

end Switch

/-- The pause is over. -/
def Protection.Expired (p : Protection) (clock : ℤ) : Prop := ∃ t ∈ p.disabledUntil, t ≤ clock

namespace Switch

/-- The protection is what the last request has set, or on because its pause is over. -/
def Honoured (s : Switch) : Prop :=
  s.protection = s.last ∨ s.last.Expired s.clock ∧ s.protection = ⟨true, none⟩

/-- The goroutine finds the protection on, or a pause that is over. -/
def FindsExpired (s : Switch) (o : Op × ℤ) : Prop :=
  o.1 = .enableProtectionAfterPause → 0 < s.started →
    s.protection = ⟨true, none⟩ ∨ s.protection.Expired (max s.clock o.2)

/-- At most one goroutine runs, and the flag says so. -/
structure Inv (s : Switch) : Prop where
  running : s.started + s.released = s.protectionUpdateInProgress.toNat
  honoured : s.Honoured

theorem Honoured.tick {s : Switch} (h : s.Honoured) (now : ℤ) : Honoured { s with clock := max s.clock now } := by
  rcases h with h | ⟨⟨t, ht, hle⟩, h⟩
  · exact .inl h
  · exact .inr ⟨⟨t, ht, hle.trans (le_max_left _ _)⟩, h⟩

theorem Inv.updatedProtectionStatus {s : Switch} (h : s.Inv) (now : ℤ) : (s.updatedProtectionStatus now).1.Inv := by
  unfold Switch.updatedProtectionStatus
  split
  · exact h
  · split
    · exact h
    · dsimp only
      split
      · exact h
      next hflag =>
        have hrun := h.running
        simp only [hflag] at hrun
        exact ⟨by simp at hrun ⊢; omega, h.honoured⟩

theorem Inv.handleSetProtection {s : Switch} (h : s.Inv) (req : Option ProtectionJSON) (now : ℤ) :
    (s.handleSetProtection req now).Inv := by
  unfold Switch.handleSetProtection
  split
  · exact h
  · exact ⟨h.running, .inl rfl⟩

theorem Inv.enableProtectionAfterPause {s : Switch} (h : s.Inv)
    (hok : 0 < s.started → s.protection = ⟨true, none⟩ ∨ s.protection.Expired s.clock) :
    s.enableProtectionAfterPause.Inv := by
  unfold Switch.enableProtectionAfterPause
  split
  · exact h
  next hstarted =>
    have hrun := h.running
    refine ⟨by dsimp only; omega, ?_⟩
    rcases h.honoured with heq | ⟨hexp, -⟩
    · rcases hok (Nat.pos_of_ne_zero hstarted) with htrue | hexp
      · exact .inl (htrue.symm.trans heq)
      · rw [heq] at hexp
        exact .inr ⟨hexp, rfl⟩
    · exact .inr ⟨hexp, rfl⟩

theorem Inv.storeProtectionUpdateInProgress {s : Switch} (h : s.Inv) : s.storeProtectionUpdateInProgress.Inv := by
  unfold Switch.storeProtectionUpdateInProgress
  split
  · exact h
  next hreleased =>
    have hrun := h.running
    have hle := s.protectionUpdateInProgress.toNat_le
    refine ⟨?_, h.honoured⟩
    simp only [Bool.toNat_false]
    omega

theorem Inv.step {s : Switch} {o : Op × ℤ} (h : s.Inv) (hok : s.FindsExpired o) : (s.step o).Inv := by
  obtain ⟨op, now⟩ := o
  have htick : Inv { s with clock := max s.clock now } := ⟨h.running, h.honoured.tick now⟩
  cases op with
  | updatedProtectionStatus => exact htick.updatedProtectionStatus now
  | handleSetProtection req => exact htick.handleSetProtection req now
  | enableProtectionAfterPause => exact htick.enableProtectionAfterPause (hok rfl)
  | storeProtectionUpdateInProgress => exact htick.storeProtectionUpdateInProgress

/-- A goroutine that finds anything else overrides it. -/
theorem not_honoured_of_not_findsExpired {s : Switch} {o : Op × ℤ} (h : s.Inv) (hok : ¬ s.FindsExpired o) :
    ¬ ((s.step o).started = 0 → (s.step o).Honoured) := by
  obtain ⟨op, now⟩ := o
  unfold FindsExpired at hok
  push Not at hok
  obtain ⟨hop, hstarted, htrue, hexp⟩ := hok
  dsimp only at hop
  subst hop
  have hzero : (s.step (.enableProtectionAfterPause, now)).started = 0 := by
    have hrun := h.running
    have hle := s.protectionUpdateInProgress.toNat_le
    simp only [Switch.step, Switch.enableProtectionAfterPause, if_neg hstarted.ne']
    omega
  have hlast : s.protection = s.last := h.honoured.resolve_right fun hr => htrue hr.2
  intro hnow
  have hon := hnow hzero
  simp only [Switch.step, Switch.enableProtectionAfterPause, if_neg hstarted.ne', Honoured] at hon
  rcases hon with heq | ⟨hexp', -⟩
  · exact htrue (hlast.trans heq.symm)
  · exact hexp (hlast ▸ hexp')

/-- **The switch is honoured** in every state without a goroutine in flight if and only if every goroutine finds
the protection on or a pause that is over. -/
theorem honoured_iff_findsExpired (p : Protection) (now : ℤ) (ops : List (Op × ℤ)) :
    Along step (fun s => s.started = 0 → s.Honoured) (new p now) ops ↔ Meets step FindsExpired (new p now) ops :=
  along_iff_meets (fun _ h _ => h.honoured) (fun _ _ h hok => h.step hok)
    (fun _ _ h hok => not_honoured_of_not_findsExpired h hok) ⟨rfl, .inl rfl⟩ ops

/-- A pause of a millisecond ends, a DNS request starts the goroutine, the user switches the protection off for
good, and the goroutine switches it on. -/
def switchedOff : List (Op × ℤ) :=
  [(.handleSetProtection (some ⟨false, 1⟩), 0), (.updatedProtectionStatus, 10 ^ 6),
    (.handleSetProtection (some ⟨false, 0⟩), 10 ^ 6 + 1), (.enableProtectionAfterPause, 10 ^ 6 + 2)]

theorem not_honoured_switchedOff :
    ¬ Along step (fun s => s.started = 0 → s.Honoured) (new ⟨true, none⟩ 0) switchedOff := by
  rintro ⟨-, -, -, -, hend⟩
  rcases hend (by decide) with heq | ⟨⟨t, ht, -⟩, -⟩
  · exact absurd heq (by decide)
  · cases (show none = some t from ht)

end Switch

end AdGuardHome.Dnsforward
