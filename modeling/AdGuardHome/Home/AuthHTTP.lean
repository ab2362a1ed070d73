import AdGuardHome.Home.AuthRateLimiter
import AdGuardHome.Lib.Run
import AdGuardHome.Lib.Counting

/-!
# Concurrent logins

A login or a request with Basic Auth asks the limiter first, verifies the password then, and tells the limiter
the outcome last.  Each of these is a step of its own, and the steps of different requests may come in any order.
-/

namespace AdGuardHome.Home

open AdGuardHome.Lib

/-- The users of the server and the code that the handlers call. -/
structure Env where
  User : Type
  byLogin : String → Option User
  authenticate : User → String → Bool
  /-- The remote address is accepted by `netip.ParseAddr`. -/
  parseAddr : String → Bool

/-- The two handlers that verify passwords: `handleLogin` and `userFromRequestBasicAuth`. -/
inductive Handler where
  | login
  | basicAuth
  deriving DecidableEq, Repr

/-- How far a request has come.  The argument says if a password has been verified. -/
inductive Phase where
  | arrived
  /-- `check` has returned a positive duration. -/
  | blocked
  /-- `check` has let the request through. -/
  | passed
  /-- The remote address is no IP address. -/
  | aborted
  /-- There is no such user or the password is wrong; `inc` is still to come. -/
  | failed (verified : Bool)
  | counted (verified : Bool)
  /-- The password is right; `remove` is still to come. -/
  | authenticated
  | loggedIn
  deriving DecidableEq, Repr

structure Request where
  handler : Handler
  addr : String
  name : String
  password : String
  phase : Phase
  deriving DecidableEq, Repr

structure State where
  rateLimiter : AuthRateLimiter
  requests : List Request

inductive Op where
  | arrive (handler : Handler) (addr name password : String)
  | check (i : ℕ) (now : ℤ)
  | verify (i : ℕ)
  | finish (i : ℕ) (now : ℤ)
  deriving DecidableEq, Repr

namespace State

/-- The call of `rateLimiter.check` at the start of both handlers. -/
def check (s : State) (i : ℕ) (r : Request) (now : ℤ) : State :=
  let (ab, left) := s.rateLimiter.check r.addr now
  { rateLimiter := ab
    requests := s.requests.set i { r with phase := if 0 < left then .blocked else .passed } }

/-- What a request becomes when its password is verified. -/
def verified (e : Env) (r : Request) : Phase :=
  if r.handler = .login ∧ ¬ e.parseAddr r.addr then .aborted else
  match e.byLogin r.name with
  | none => .failed false
  | some user => if e.authenticate user r.password then .authenticated else .failed true

/-- The call of `inc` or of `remove` at the end of both handlers. -/
def finish (s : State) (i : ℕ) (r : Request) (now : ℤ) : State :=
  match r.phase with
  | .failed v =>
    { rateLimiter := s.rateLimiter.inc r.addr now
      requests := s.requests.set i { r with phase := .counted v } }
  | .authenticated =>
    { rateLimiter := s.rateLimiter.remove r.addr
      requests := s.requests.set i { r with phase := .loggedIn } }
  | _ => s

/-- A step of the request with the index of the operation; a request that is not there or is not at
that step stays as it is. -/
def step (e : Env) (s : State) : Op → State
  | .arrive h addr name password => { s with requests := s.requests ++ [⟨h, addr, name, password, .arrived⟩] }
  | .check i now =>
    match s.requests[i]? with
    | some r => if r.phase = .arrived then s.check i r now else s
    | none => s
  | .verify i =>
    match s.requests[i]? with
    | some r =>
      if r.phase = .passed then { s with requests := s.requests.set i { r with phase := verified e r } } else s
    | none => s
  | .finish i now =>
    match s.requests[i]? with
    | some r => s.finish i r now
    | none => s

end State

namespace Phase

/-- Between `check` and `inc`. -/
def inFlight : Phase → Bool
  | .passed | .failed _ => true
  | _ => false

def isCounted : Phase → Bool
  | .counted _ => true
  | _ => false

/-- A password of the request has been verified. -/
def isVerified : Phase → Bool
  | .failed v | .counted v => v
  | .authenticated | .loggedIn => true
  | _ => false

end Phase

namespace State

variable {e : Env} {s : State} {addr : String} {lo hi : ℤ}

/-- The number of requests from `addr` in a phase that meets `p`. -/
def count (s : State) (addr : String) (p : Phase → Bool) : ℕ :=
  s.requests.countP fun r => r.addr = addr ∧ p r.phase

theorem verified_cases (e : Env) (r : Request) :
    verified e r = .aborted ∨ (∃ v, verified e r = .failed v) ∨ verified e r = .authenticated := by
  unfold verified
  split
  · exact .inl rfl
  · split
    · exact .inr (.inl ⟨false, rfl⟩)
    · split
      · exact .inr (.inr rfl)
      · exact .inr (.inl ⟨true, rfl⟩)

theorem count_pos {r : Request} (hr : r ∈ s.requests) (ha : r.addr = addr) {p : Phase → Bool} (hp : p r.phase = true) :
    0 < s.count addr p :=
  List.countP_pos_iff.2 ⟨r, hr, by simp [ha, hp]⟩

/-- Passwords of at most so many requests have been verified. -/
theorem count_isVerified_le (h : ∀ r ∈ s.requests, r.addr = addr → r.phase ≠ .authenticated ∧ r.phase ≠ .loggedIn) :
    s.count addr Phase.isVerified ≤ s.count addr Phase.isCounted + s.count addr Phase.inFlight := by
  refine countP_le_add fun r hr hver => ?_
  obtain ⟨ha, hver⟩ := of_decide_eq_true hver
  obtain ⟨h₁, h₂⟩ := h r hr ha
  cases hp : r.phase with
  | failed v => exact .inr (by simp [ha, Phase.inFlight])
  | counted v => exact .inl (by simp [ha, Phase.isCounted])
  | authenticated => exact absurd hp h₁
  | loggedIn => exact absurd hp h₂
  | _ => simp [hp, Phase.isVerified] at hver

section Phases

variable {i : ℕ} {r : Request} (hr : s.requests[i]? = some r) (ab : AuthRateLimiter) (ph : Phase)
include hr

theorem count_set_ne (h : r.addr ≠ addr) (p : Phase → Bool) :
    (State.mk ab (s.requests.set i { r with phase := ph })).count addr p = s.count addr p := by
  have := countP_set_add (fun r : Request => decide (r.addr = addr ∧ p r.phase)) hr { r with phase := ph }
  simpa [count, h] using this

theorem count_set_eq (h : r.addr = addr) (p : Phase → Bool) :
    (State.mk ab (s.requests.set i { r with phase := ph })).count addr p + (p r.phase).toNat
      = s.count addr p + (p ph).toNat := by
  have := countP_set_add (fun r : Request => decide (r.addr = addr ∧ p r.phase)) hr { r with phase := ph }
  simpa [count, h] using this

end Phases

/-! ## The bound -/

/-- The attempts of one address: the requests from `addr` are made between `lo` and `hi` and none of them has the right
password; those from other addresses are made at any time before `hi`. -/
def Attempts (e : Env) (addr : String) (lo hi : ℤ) (s : State) : Op → Prop
  | .arrive h a name password => a = addr → verified e ⟨h, a, name, password, .arrived⟩ ≠ .authenticated
  | .check i now | .finish i now => now ≤ hi ∧ ∀ r ∈ s.requests[i]?, r.addr = addr → lo ≤ now
  | .verify _ => True

instance : DecidablePred (s.Attempts e addr lo hi)
  | .arrive .. => inferInstanceAs (Decidable (_ → _ ≠ _))
  | .check .. | .finish .. => inferInstanceAs (Decidable (_ ∧ ∀ r ∈ _, _))
  | .verify _ => inferInstanceAs (Decidable True)

/-- A check of `addr` finds fewer failures and requests in flight than may fail, or finds the address blocked. -/
def Uncrowded (addr : String) (s : State) : Op → Prop
  | .check i now => ∀ r ∈ s.requests[i]?, r.addr = addr → r.phase = .arrived →
      s.rateLimiter.failures addr + s.count addr Phase.inFlight < s.rateLimiter.maxAttempts.toNat ∨
        s.rateLimiter.Blocked addr now
  | _ => True

/-- Every failure of `addr` is remembered until `hi`, and those of the requests in flight can be added
without passing the limit. -/
structure Limited (e : Env) (addr : String) (lo hi : ℤ) (maxAttempts : UInt64) (s : State) : Prop where
  maxAttempts_eq : s.rateLimiter.maxAttempts = maxAttempts
  window : hi ≤ lo + s.rateLimiter.blockDur
  le_until : ∀ a, s.rateLimiter.failedAuths.get addr = some a → hi ≤ a.until_
  failures_eq : s.rateLimiter.failures addr = s.count addr Phase.isCounted
  le_max : s.count addr Phase.isCounted + s.count addr Phase.inFlight ≤ maxAttempts.toNat
  not_authenticated : ∀ r ∈ s.requests, r.addr = addr →
    r.phase ≠ .authenticated ∧ r.phase ≠ .loggedIn ∧ verified e r ≠ .authenticated

namespace Limited

variable {maxAttempts : UInt64} (h : s.Limited e addr lo hi maxAttempts)
include h

theorem count_isVerified_le : s.count addr Phase.isVerified ≤ maxAttempts.toNat := by
  have := State.count_isVerified_le fun r hr ha =>
    ⟨(h.not_authenticated r hr ha).1, (h.not_authenticated r hr ha).2.1⟩
  have := h.le_max
  omega

theorem arrive {r : Request} (hr : r.phase = .arrived) (hver : r.addr = addr → verified e r ≠ .authenticated) :
    Limited e addr lo hi maxAttempts { s with requests := s.requests ++ [r] } := by
  have hcount : ∀ p : Phase → Bool, p .arrived = false →
      State.count { s with requests := s.requests ++ [r] } addr p = s.count addr p := by
    intro p hp
    simp [State.count, hr, hp]
  refine ⟨h.maxAttempts_eq, h.window, h.le_until, ?_, ?_, ?_⟩
  · rw [hcount _ rfl]
    exact h.failures_eq
  · rw [hcount _ rfl, hcount _ rfl]
    exact h.le_max
  · intro r' hr' ha'
    rcases List.mem_append.1 hr' with hmem | hmem
    · exact h.not_authenticated r' hmem ha'
    · cases List.mem_singleton.1 hmem
      exact ⟨by simp [hr], by simp [hr], hver ha'⟩

/-- A request changes its phase and the limiter its failures. -/
theorem setPhase {i : ℕ} {r : Request} (hr : s.requests[i]? = some r) {ab : AuthRateLimiter} {ph : Phase}
    (hmax : ab.maxAttempts = s.rateLimiter.maxAttempts) (hblock : ab.blockDur = s.rateLimiter.blockDur)
    (huntil : ∀ a, ab.failedAuths.get addr = some a → hi ≤ a.until_)
    (hne : r.addr ≠ addr → ab.failures addr = s.rateLimiter.failures addr)
    (heq : r.addr = addr → ph ≠ .authenticated ∧ ph ≠ .loggedIn ∧
      ab.failures addr + r.phase.isCounted.toNat = s.rateLimiter.failures addr + ph.isCounted.toNat ∧
      s.rateLimiter.failures addr + s.count addr Phase.inFlight + ph.isCounted.toNat + ph.inFlight.toNat
        ≤ maxAttempts.toNat + r.phase.isCounted.toNat + r.phase.inFlight.toNat) :
    Limited e addr lo hi maxAttempts ⟨ab, s.requests.set i { r with phase := ph }⟩ := by
  have hfail := h.failures_eq
  have hle := h.le_max
  refine ⟨hmax.trans h.maxAttempts_eq, hblock ▸ h.window, huntil, ?_, ?_, ?_⟩
  · by_cases ha : r.addr = addr
    · have := count_set_eq hr ab ph ha Phase.isCounted
      have := (heq ha).2.2.1
      show ab.failures addr = _
      omega
    · rw [count_set_ne hr ab ph ha]
      exact (hne ha).trans hfail
  · by_cases ha : r.addr = addr
    · have := count_set_eq hr ab ph ha Phase.isCounted
      have := count_set_eq hr ab ph ha Phase.inFlight
      have := (heq ha).2.2.2
      omega
    · rw [count_set_ne hr ab ph ha, count_set_ne hr ab ph ha]
      exact hle
  · intro r' hr' ha'
    rcases List.mem_or_eq_of_mem_set hr' with hmem | rfl
    · exact h.not_authenticated r' hmem ha'
    · have hver := (h.not_authenticated r (List.mem_of_getElem? hr) ha').2.2
      exact ⟨(heq ha').1, (heq ha').2.1, hver⟩

theorem check {i : ℕ} {r : Request} (hr : s.requests[i]? = some r) (hph : r.phase = .arrived) {now : ℤ}
    (hnow : now ≤ hi) (hok : r.addr = addr →
      s.rateLimiter.failures addr + s.count addr Phase.inFlight < s.rateLimiter.maxAttempts.toNat ∨
        s.rateLimiter.Blocked addr now) :
    Limited e addr lo hi maxAttempts (s.check i r now) := by
  have hget : (s.rateLimiter.cleanupLocked now).failedAuths.get addr = s.rateLimiter.failedAuths.get addr := by
    refine AuthRateLimiter.get_check_of_le r.addr fun a ha => ?_
    have := h.le_until a ha
    omega
  have hfail : (s.rateLimiter.cleanupLocked now).failures addr = s.rateLimiter.failures addr := by
    simp [AuthRateLimiter.failures, hget]
  refine h.setPhase hr rfl rfl (fun a ha => h.le_until a (hget ▸ ha)) (fun _ => hfail) fun ha => ?_
  have hcount := h.failures_eq
  have hle := h.le_max
  have hmax := h.maxAttempts_eq
  split
  · simp [hfail, hph, Phase.isCounted, Phase.inFlight]
    omega
  next hleft =>
    rcases hok ha with hlt | hblocked
    · simp [hfail, hph, Phase.isCounted, Phase.inFlight]
      rw [hmax] at hlt
      omega
    · rw [ha] at hleft
      exact absurd (AuthRateLimiter.check_pos hblocked) hleft

theorem verify {i : ℕ} {r : Request} (hr : s.requests[i]? = some r) (hph : r.phase = .passed) :
    Limited e addr lo hi maxAttempts
      { s with requests := s.requests.set i { r with phase := verified e r } } := by
  refine h.setPhase hr rfl rfl h.le_until (fun _ => rfl) fun ha => ?_
  have hver := (h.not_authenticated r (List.mem_of_getElem? hr) ha).2.2
  have hcount := h.failures_eq
  have hle := h.le_max
  rcases verified_cases e r with hv | ⟨v, hv⟩ | hv
  · simp [hv, hph, Phase.isCounted, Phase.inFlight]
    omega
  · simp [hv, hph, Phase.isCounted, Phase.inFlight]
    omega
  · exact absurd hv hver

theorem finish {i : ℕ} {r : Request} (hr : s.requests[i]? = some r) {now : ℤ}
    (httl : hi ≤ lo + failedAuthTTL) (hnow : r.addr = addr → lo ≤ now) :
    Limited e addr lo hi maxAttempts (s.finish i r now) := by
  unfold State.finish
  have hwindow := h.window
  have hcount := h.failures_eq
  have hle := h.le_max
  split
  next v hph =>
    by_cases ha : r.addr = addr
    · have hpos := count_pos (List.mem_of_getElem? hr) ha (p := Phase.inFlight) (by simp [hph, Phase.inFlight])
      have hlt : s.rateLimiter.failures addr + 1 < 2 ^ 64 := by
        have := maxAttempts.toNat_lt
        omega
      have hlo := hnow ha
      refine h.setPhase hr rfl rfl (fun a ha' => ?_) (absurd ha) fun _ => ?_
      · rw [ha] at ha'
        exact AuthRateLimiter.le_until_inc (by omega) (by omega) h.le_until ha'
      · rw [ha, AuthRateLimiter.failures_inc hlt]
        simp [hph, Phase.isCounted, Phase.inFlight]
        omega
    · have hget : (s.rateLimiter.inc r.addr now).failedAuths.get addr = s.rateLimiter.failedAuths.get addr :=
        AuthRateLimiter.get_inc_ne (Ne.symm ha)
      refine h.setPhase hr rfl rfl (fun a ha' => h.le_until a (hget ▸ ha')) (fun _ => ?_) (fun ha' => absurd ha' ha)
      simp [AuthRateLimiter.failures, hget]
  next hph =>
    have ha : r.addr ≠ addr := fun ha => (h.not_authenticated r (List.mem_of_getElem? hr) ha).1 hph
    have hget : (s.rateLimiter.remove r.addr).failedAuths.get addr = s.rateLimiter.failedAuths.get addr :=
      AuthRateLimiter.get_remove_ne (Ne.symm ha)
    refine h.setPhase hr rfl rfl (fun a ha' => h.le_until a (hget ▸ ha')) (fun _ => ?_) (fun ha' => absurd ha' ha)
    simp [AuthRateLimiter.failures, hget]
  · exact h

theorem step {o : Op} (httl : hi ≤ lo + failedAuthTTL) (ho : s.Attempts e addr lo hi o)
    (hok : s.Uncrowded addr o) : Limited e addr lo hi maxAttempts (s.step e o) := by
  cases o with
  | arrive hd a name password => exact h.arrive rfl ho
  | check i now =>
    simp only [State.step]
    split
    next r hr =>
      split
      next hph => exact h.check hr hph ho.1 fun ha => hok r hr ha hph
      · exact h
    · exact h
  | verify i =>
    simp only [State.step]
    split
    next r hr =>
      split
      next hph => exact h.verify hr hph
      · exact h
    · exact h
  | finish i now =>
    simp only [State.step]
    split
    next r hr => exact h.finish hr httl (ho.2 r hr)
    · exact h

end Limited

/-- No address has more passwords verified than may fail, as long as no check of the address is made while
too many of its requests are between their check and the call of `inc`. -/
theorem count_isVerified_run_le {ab : AuthRateLimiter} (hnew : ab.failedAuths.get addr = none)
    (hblock : hi ≤ lo + ab.blockDur) (httl : hi ≤ lo + failedAuthTTL) {ops : List Op}
    (hops : Meets (step e) (Attempts e addr lo hi) ⟨ab, []⟩ ops)
    (hok : Meets (step e) (Uncrowded addr) ⟨ab, []⟩ ops) :
    (run (step e) ⟨ab, []⟩ ops).count addr Phase.isVerified ≤ ab.maxAttempts.toNat := by
  have hinit : Limited e addr lo hi ab.maxAttempts ⟨ab, []⟩ := by
    refine ⟨rfl, hblock, fun a ha => ?_, ?_, Nat.zero_le _, by simp⟩
    · cases hnew.symm.trans ha
    · simp [AuthRateLimiter.failures, hnew, count]
  have hrun := run_invariant_of_meets (fun s o h ho => h.step httl ho.1 ho.2) hinit (hops.and hok)
  exact hrun.count_isVerified_le

/-- One user with the password `secret`. -/
def oneUser : Env where
  User := Unit
  byLogin := fun name => if name = "admin" then some () else none
  authenticate := fun _ password => password = "secret"
  parseAddr := fun _ => true

/-- One failure is allowed: the second attempt finds the address blocked. -/
def oneByOne : List Op :=
  [.arrive .login "10.0.0.1" "admin" "first", .arrive .basicAuth "10.0.0.1" "admin" "second",
    .check 0 0, .verify 0, .finish 0 1, .check 1 2, .verify 1, .finish 1 3]

theorem count_isVerified_oneByOne_le :
    (run (step oneUser) ⟨newAuthRateLimiter failedAuthTTL 1, []⟩ oneByOne).count "10.0.0.1" Phase.isVerified ≤ 1 := by
  refine count_isVerified_run_le (show _ = none from rfl) (show (3 : ℤ) ≤ 0 + _ by decide) (by decide) ?_ ?_
  · decide
  · refine ⟨trivial, trivial, ?_, trivial, trivial, ?_, trivial, trivial, trivial⟩
    · exact fun r _ _ _ => .inl (by decide)
    · exact fun r _ _ _ => .inr ⟨⟨failedAuthTTL + 1, 1⟩, by decide, by decide, by decide⟩

/-- One failure is allowed: two requests are checked before the first of them has failed. -/
def bothChecked : List Op :=
  [.arrive .login "10.0.0.1" "admin" "first", .arrive .login "10.0.0.1" "admin" "second",
    .check 0 0, .check 1 0, .verify 0, .verify 1]

theorem not_count_isVerified_le :
    ¬ ∀ (e : Env) (addr : String) (lo hi : ℤ) (ab : AuthRateLimiter) (ops : List Op), 1 ≤ ab.maxAttempts →
      ab.failedAuths.get addr = none → hi ≤ lo + ab.blockDur → hi ≤ lo + failedAuthTTL →
      Meets (step e) (Attempts e addr lo hi) ⟨ab, []⟩ ops →
      (run (step e) ⟨ab, []⟩ ops).count addr Phase.isVerified ≤ ab.maxAttempts.toNat := by
  intro h
  have hle := h oneUser "10.0.0.1" 0 0 (newAuthRateLimiter failedAuthTTL 1) bothChecked (by decide) rfl (by decide)
    (by decide) (by decide)
  revert hle
  decide

end State

end AdGuardHome.Home
