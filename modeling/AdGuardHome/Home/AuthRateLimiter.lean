import AdGuardHome.Lib.GoMap
import Mathlib.Algebra.Group.Int.Defs
import Mathlib.Algebra.Group.Nat.Defs

/-!
# Failed logins

The limiter of failed logins: how many attempts of an address have failed, and until when they are
remembered.  Times and durations are in nanoseconds.
-/

namespace AdGuardHome.Home

open AdGuardHome.Lib

/-- The period of time for which the failed attempt will stay in cache. -/
def failedAuthTTL : ℤ := 60 * 10 ^ 9

structure FailedAuth where
  until_ : ℤ
  num : UInt64
  deriving DecidableEq, Repr

structure AuthRateLimiter where
  failedAuths : GoMap String FailedAuth
  blockDur : ℤ
  maxAttempts : UInt64

def newAuthRateLimiter (blockDur : ℤ) (maxAttempts : UInt64) : AuthRateLimiter :=
  ⟨GoMap.empty, blockDur, maxAttempts⟩

namespace AuthRateLimiter

def cleanupLocked (ab : AuthRateLimiter) (now : ℤ) : AuthRateLimiter :=
  { ab with failedAuths := ab.failedAuths.delWhere fun _ v => v.until_ < now }

/-- The time left until the user is unblocked. -/
def checkLocked (ab : AuthRateLimiter) (usrID : String) (now : ℤ) : ℤ :=
  match ab.failedAuths.get usrID with
  | none => 0
  | some a => if a.num < ab.maxAttempts then 0 else a.until_ - now

def check (ab : AuthRateLimiter) (usrID : String) (now : ℤ) : AuthRateLimiter × ℤ :=
  let ab := ab.cleanupLocked now
  (ab, ab.checkLocked usrID now)

def incLocked (ab : AuthRateLimiter) (usrID : String) (now : ℤ) : AuthRateLimiter :=
  let (u, attNum) := match ab.failedAuths.get usrID with
    | none => (now + failedAuthTTL, 1)
    | some a => (a.until_, a.num + 1)
  let u := if ab.maxAttempts ≤ attNum then now + ab.blockDur else u
  { ab with failedAuths := ab.failedAuths.set usrID ⟨u, attNum⟩ }

def inc (ab : AuthRateLimiter) (usrID : String) (now : ℤ) : AuthRateLimiter := ab.incLocked usrID now

def remove (ab : AuthRateLimiter) (usrID : String) : AuthRateLimiter :=
  { ab with failedAuths := ab.failedAuths.del usrID }

/-- The number of failed attempts that the limiter remembers. -/
def failures (ab : AuthRateLimiter) (usrID : String) : ℕ :=
  ((ab.failedAuths.get usrID).map (·.num.toNat)).getD 0

variable {ab : AuthRateLimiter} {addr : String} {now hi : ℤ}

@[simp] theorem maxAttempts_check : (ab.check addr now).1.maxAttempts = ab.maxAttempts := rfl

@[simp] theorem blockDur_check : (ab.check addr now).1.blockDur = ab.blockDur := rfl

@[simp] theorem maxAttempts_inc : (ab.inc addr now).maxAttempts = ab.maxAttempts := rfl

@[simp] theorem blockDur_inc : (ab.inc addr now).blockDur = ab.blockDur := rfl

@[simp] theorem maxAttempts_remove : (ab.remove addr).maxAttempts = ab.maxAttempts := rfl

@[simp] theorem blockDur_remove : (ab.remove addr).blockDur = ab.blockDur := rfl

/-- A check keeps the entry of every address that has not expired. -/
theorem get_check_of_le (other : String) (h : ∀ a, ab.failedAuths.get addr = some a → now ≤ a.until_) :
    (ab.check other now).1.failedAuths.get addr = ab.failedAuths.get addr := by
  show (ab.failedAuths.delWhere _).get addr = _
  rw [GoMap.get_delWhere]
  cases ha : ab.failedAuths.get addr with
  | none => rfl
  | some a =>
    have hle : ¬ a.until_ < now := by
      have := h a ha
      omega
    simp [Option.filter, hle]

theorem get_inc_ne {other : String} (h : addr ≠ other) :
    (ab.inc other now).failedAuths.get addr = ab.failedAuths.get addr :=
  GoMap.get_set_ne _ h _

theorem get_remove_ne {other : String} (h : addr ≠ other) :
    (ab.remove other).failedAuths.get addr = ab.failedAuths.get addr :=
  GoMap.get_del_ne _ h

/-- The address is blocked: it has too many failures and the block is not over. -/
def Blocked (ab : AuthRateLimiter) (addr : String) (now : ℤ) : Prop :=
  ∃ a, ab.failedAuths.get addr = some a ∧ ab.maxAttempts ≤ a.num ∧ now < a.until_

theorem check_pos (h : ab.Blocked addr now) : 0 < (ab.check addr now).2 := by
  obtain ⟨a, ha, hnum, hlt⟩ := h
  have hget : (ab.cleanupLocked now).failedAuths.get addr = some a := by
    refine (get_check_of_le addr fun a' ha' => ?_).trans ha
    cases ha.symm.trans ha'
    omega
  show 0 < (ab.cleanupLocked now).checkLocked addr now
  have hmax : ¬ a.num < (ab.cleanupLocked now).maxAttempts := by simpa [cleanupLocked] using hnum
  simp only [checkLocked, hget, if_neg hmax]
  omega

theorem failures_inc (h : ab.failures addr + 1 < 2 ^ 64) :
    (ab.inc addr now).failures addr = ab.failures addr + 1 := by
  unfold failures inc incLocked at *
  cases ha : ab.failedAuths.get addr with
  | none => simp
  | some a =>
    rw [ha] at h
    have h' : a.num.toNat + 1 < 2 ^ 64 := h
    simp [UInt64.toNat_add]
    omega

/-- A failure inside the window is remembered until the end of it. -/
theorem le_until_inc (hblock : hi ≤ now + ab.blockDur) (httl : hi ≤ now + failedAuthTTL)
    (h : ∀ a, ab.failedAuths.get addr = some a → hi ≤ a.until_) {a : FailedAuth}
    (ha : (ab.inc addr now).failedAuths.get addr = some a) : hi ≤ a.until_ := by
  unfold inc incLocked at ha
  simp only [GoMap.get_set_self, Option.some.injEq] at ha
  subst ha
  cases hget : ab.failedAuths.get addr with
  | none =>
    dsimp only
    split
    · exact hblock
    · exact httl
  | some b =>
    dsimp only
    split
    · exact hblock
    · exact h b hget

end AuthRateLimiter

end AdGuardHome.Home
