import AdGuardHome.Home.AuthRateLimiter
import AdGuardHome.Aghuser.SessionStorage
import AdGuardHome.Lib.Hex

/-!
# The authentication middleware

The default middleware looks for the user of a request, by the session cookie or by Basic Auth, and serves the
request, redirects it or refuses it.  What it may serve is said by `Permitted`.
-/

namespace AdGuardHome.Home

open AdGuardHome.Lib AdGuardHome.Aghuser

/-! ## Requests -/

/-- What the middleware reads of a request, as `net/http` has parsed it. -/
structure HTTPRequest where
  path : String
  /-- The names and the values. -/
  cookies : List (String × Bytes)
  /-- The login and the password, if the request has credentials. -/
  basicAuth : Option (Login × Bytes)
  remoteAddr : String
  deriving DecidableEq, Repr

def sessionCookieName : String := "agh_session"

/-- The value of the first cookie with the name. -/
def HTTPRequest.cookie (r : HTTPRequest) (name : String) : Option Bytes :=
  (r.cookies.find? fun c => c.1 = name).map (·.2)

/-- `path.Match` with the pattern `pre*`: a star at the end matches all but slashes. -/
def matchStar (pre p : String) : Bool :=
  pre.toList.isPrefixOf p.toList && !(p.toList.drop pre.toList.length).contains '/'

def publicPaths : List String :=
  ["/control/login",
   "/apple/doh.mobileconfig",
   "/apple/dot.mobileconfig",
   "/control/install/get_addresses",
   "/control/install/check_config",
   "/control/install/configure",
   "/install.html"]

def isPublicResource (p : String) : Bool :=
  let isAsset := matchStar "/assets/" p
  let isLogin := matchStar "/login." p
  let isForgotPassword := matchStar "/forgot_password." p
  isAsset || isLogin || isForgotPassword || publicPaths.contains p

/-! ## The limiter -/

/-- The implementations of `loginRateLimiter`. -/
inductive LoginRateLimiter where
  /-- `emptyRateLimiter`, when the limit is not configured. -/
  | empty
  | auth (ab : AuthRateLimiter)

namespace LoginRateLimiter

def check (rl : LoginRateLimiter) (usrID : String) (now : ℤ) : LoginRateLimiter × ℤ :=
  match rl with
  | .empty => (.empty, 0)
  | .auth ab =>
    let (ab, left) := ab.check usrID now
    (.auth ab, left)

def inc (rl : LoginRateLimiter) (usrID : String) (now : ℤ) : LoginRateLimiter :=
  match rl with
  | .empty => .empty
  | .auth ab => .auth (ab.inc usrID now)

def remove (rl : LoginRateLimiter) (usrID : String) : LoginRateLimiter :=
  match rl with
  | .empty => .empty
  | .auth ab => .auth (ab.remove usrID)

def Blocked (rl : LoginRateLimiter) (usrID : String) (now : ℤ) : Prop :=
  match rl with
  | .empty => False
  | .auth ab => ab.Blocked usrID now

end LoginRateLimiter

/-! ## The middleware -/

/-- The code that the middleware calls. -/
structure AuthEnv where
  /-- `user.Password.Authenticate` -/
  authenticate : User → Bytes → Bool
  /-- `netutil.SplitHost`, `none` for an error. -/
  splitHost : String → Option String

/-- What the clock shows when the session is looked up, when the limiter is asked, and when it is told. -/
structure Clock where
  session : ℤ
  check : ℤ
  inc : ℤ
  deriving DecidableEq, Repr

structure AuthMiddlewareDefault where
  rateLimiter : LoginRateLimiter
  sessions : DefaultSessionStorage
  users : DefaultDB

/-- The errors of the lookup of a user. -/
inductive UserError where
  | decodingValue
  | tokenLength (got : ℕ)
  | searchingSession (err : String)
  | remoteAddress
  | blocked (left : ℤ)
  | errInvalidLogin
  deriving DecidableEq, Repr

/-- How the middleware answers. -/
inductive Response where
  /-- The wrapped handler is invoked, with the user in the context if there is one. -/
  | served (user : Option User)
  | redirect (url : String)
  | unauthorized
  deriving DecidableEq, Repr

def sessionTokenLength : ℕ := 16

def sessionTokenFromHex (val : Bytes) : Except UserError SessionToken :=
  match hexDecode val with
  | none => .error .decodingValue
  | some sess =>
    if h : sess.length = sessionTokenLength then .ok ⟨sess.toArray, by simpa [sessionTokenLength] using h⟩
    else .error (.tokenLength sess.length)

namespace AuthMiddlewareDefault

def needsAuthentication (mw : AuthMiddlewareDefault) : Bool := mw.users.userIDToUser.entries.length != 0

def userFromCookie (mw : AuthMiddlewareDefault) (val : Bytes) (now : ℤ) :
    AuthMiddlewareDefault × Except UserError (Option User) :=
  match sessionTokenFromHex val with
  | .error err => (mw, .error err)
  | .ok t =>
    let (ds, found) := mw.sessions.findByToken t now
    let mw := { mw with sessions := ds }
    match found with
    | .error err => (mw, .error (.searchingSession err))
    | .ok none => (mw, .ok none)
    | .ok (some s) => (mw, .ok (mw.users.byLogin s.userLogin))

/-- The user that the credentials belong to. -/
def verify (e : AuthEnv) (mw : AuthMiddlewareDefault) (login : Login) (pass : Bytes) : Except UserError User :=
  match mw.users.byLogin login with
  | none => .error .errInvalidLogin
  | some user => if e.authenticate user pass then .ok user else .error .errInvalidLogin

/-- The limiter is told the outcome when the function returns. -/
def userFromRequestBasicAuth (e : AuthEnv) (mw : AuthMiddlewareDefault) (r : HTTPRequest) (c : Clock) :
    AuthMiddlewareDefault × Except UserError (Option User) :=
  match r.basicAuth with
  | none => (mw, .ok none)
  | some (login, pass) =>
    match e.splitHost r.remoteAddr with
    | none => (mw, .error .remoteAddress)
    | some remoteIP =>
      let (rateLimiter, left) := mw.rateLimiter.check remoteIP c.check
      if 0 < left then ({ mw with rateLimiter := rateLimiter }, .error (.blocked left)) else
      match verify e mw login pass with
      | .error err => ({ mw with rateLimiter := rateLimiter.inc remoteIP c.inc }, .error err)
      | .ok user => ({ mw with rateLimiter := rateLimiter.remove remoteIP }, .ok user)

def userFromRequest (e : AuthEnv) (mw : AuthMiddlewareDefault) (r : HTTPRequest) (c : Clock) :
    AuthMiddlewareDefault × Except UserError (Option User) :=
  match r.cookie sessionCookieName with
  | some val => mw.userFromCookie val c.session
  | none => mw.userFromRequestBasicAuth e r c

/-- The answer to the request of a user, `none` if it has none.  An error is logged and is no user. -/
def handleAuthenticatedUser (e : AuthEnv) (mw : AuthMiddlewareDefault) (r : HTTPRequest) (c : Clock) :
    AuthMiddlewareDefault × Option Response :=
  let (mw, found) := mw.userFromRequest e r c
  match found with
  | .error _ | .ok none => (mw, none)
  | .ok (some u) =>
    (mw, some (if r.path = "/login.html" ∨ r.path = "/forgot_password.html" then .redirect "/" else .served u))

def handlePublicAccess (r : HTTPRequest) : Option Response :=
  if isPublicResource r.path then some (.served none)
  else if r.path = "/" ∨ r.path = "/index.html" then some (.redirect "login.html")
  else none

def wrap (e : AuthEnv) (mw : AuthMiddlewareDefault) (r : HTTPRequest) (c : Clock) :
    AuthMiddlewareDefault × Response :=
  if mw.needsAuthentication then
    let (mw, handled) := mw.handleAuthenticatedUser e r c
    match handled with
    | some resp => (mw, resp)
    | none => (mw, (handlePublicAccess r).getD .unauthorized)
  else (mw, .served none)

end AuthMiddlewareDefault

/-! ## What may be served -/

/-- The requests that may come to the wrapped handler. -/
inductive Permitted (e : AuthEnv) (mw : AuthMiddlewareDefault) (r : HTTPRequest) (c : Clock) : Prop where
  | publicResource (h : isPublicResource r.path = true)
  /-- The cookie is the token of a session that has not expired. -/
  | session (val : Bytes) (t : SessionToken) (s : Session) (u : User)
      (hcookie : r.cookie sessionCookieName = some val) (htoken : sessionTokenFromHex val = .ok t)
      (hstored : mw.sessions.sessions.get t = some s) (hexpire : c.session ≤ s.expire)
      (huser : mw.users.byLogin s.userLogin = some u)
  /-- The credentials are right and the address is not blocked. -/
  | basicAuth (login : Login) (pass : Bytes) (remoteIP : String) (u : User)
      (hcookie : r.cookie sessionCookieName = none) (hcreds : r.basicAuth = some (login, pass))
      (huser : mw.users.byLogin login = some u) (hpass : e.authenticate u pass = true)
      (haddr : e.splitHost r.remoteAddr = some remoteIP) (hblock : ¬ mw.rateLimiter.Blocked remoteIP c.check)

/-- A request without a cookie that has credentials of no user. -/
structure GuessesWrong (e : AuthEnv) (mw : AuthMiddlewareDefault) (r : HTTPRequest) (remoteIP : String) :
    Prop where
  noCookie : r.cookie sessionCookieName = none
  haddr : e.splitHost r.remoteAddr = some remoteIP
  hcreds : ∃ login pass, r.basicAuth = some (login, pass) ∧
    ∀ u, mw.users.byLogin login = some u → e.authenticate u pass = false

namespace AuthRateLimiter

variable {ab : AuthRateLimiter} {addr : String} {now : ℤ}

/-- The number of failed attempts that count: those of an entry whose time is not over. -/
def liveFailures (ab : AuthRateLimiter) (usrID : String) (now : ℤ) : ℕ :=
  match ab.failedAuths.get usrID with
  | none => 0
  | some a => if a.until_ < now then 0 else a.num.toNat

theorem failures_cleanupLocked : (ab.cleanupLocked now).failures addr = ab.liveFailures addr now := by
  unfold failures liveFailures cleanupLocked
  rw [GoMap.get_delWhere]
  cases ab.failedAuths.get addr with
  | none => rfl
  | some a =>
    by_cases h : a.until_ < now <;> simp [Option.filter, h]

theorem failures_inc_mod : (ab.inc addr now).failures addr = (ab.failures addr + 1) % 2 ^ 64 := by
  unfold failures inc incLocked
  cases ab.failedAuths.get addr with
  | none => simp
  | some a => simp [UInt64.toNat_add]

theorem check_pos_iff : 0 < (ab.check addr now).2 ↔ ab.Blocked addr now := by
  refine ⟨fun h => ?_, check_pos⟩
  have hget : (ab.cleanupLocked now).failedAuths.get addr =
      (ab.failedAuths.get addr).filter fun a => !decide (a.until_ < now) := GoMap.get_delWhere ..
  change 0 < (ab.cleanupLocked now).checkLocked addr now at h
  unfold checkLocked at h
  rw [hget] at h
  cases ha : ab.failedAuths.get addr with
  | none => simp [ha] at h
  | some a =>
    rw [ha] at h
    by_cases hover : a.until_ < now
    · simp [Option.filter, hover] at h
    · simp only [Option.filter, hover, decide_false, Bool.not_false, if_true] at h
      split at h
      · omega
      next hnum => exact ⟨a, ha, UInt64.not_lt.1 hnum, by omega⟩

end AuthRateLimiter

namespace LoginRateLimiter

theorem check_pos_iff {rl : LoginRateLimiter} {addr : String} {now : ℤ} :
    0 < (rl.check addr now).2 ↔ rl.Blocked addr now := by
  cases rl with
  | empty => simp [check, Blocked]
  | auth ab => exact AuthRateLimiter.check_pos_iff

end LoginRateLimiter

namespace AuthMiddlewareDefault

variable {e : AuthEnv} {mw : AuthMiddlewareDefault} {r : HTTPRequest} {c : Clock} {u : User}

theorem findByToken_some {ds : DefaultSessionStorage} {t : SessionToken} {s : Session} {now : ℤ}
    (h : (ds.findByToken t now).2 = .ok (some s)) : ds.sessions.get t = some s ∧ now ≤ s.expire := by
  unfold DefaultSessionStorage.findByToken at h
  cases hget : ds.sessions.get t with
  | none => simp [hget] at h
  | some s' =>
    simp only [hget] at h
    split at h
    · split at h <;> simp at h
    next hexpire =>
      cases h
      exact ⟨rfl, not_lt.1 hexpire⟩

theorem userFromCookie_some {val : Bytes} {now : ℤ} (h : (mw.userFromCookie val now).2 = .ok (some u)) :
    ∃ t s, sessionTokenFromHex val = .ok t ∧ mw.sessions.sessions.get t = some s ∧ now ≤ s.expire ∧
      mw.users.byLogin s.userLogin = some u := by
  unfold userFromCookie at h
  cases htoken : sessionTokenFromHex val with
  | error err => simp [htoken] at h
  | ok t =>
    simp only [htoken] at h
    cases hfound : (mw.sessions.findByToken t now).2 with
    | error err => simp [hfound] at h
    | ok found =>
      cases found with
      | none => simp [hfound] at h
      | some s =>
        obtain ⟨hstored, hexpire⟩ := findByToken_some hfound
        rw [hfound] at h
        exact ⟨t, s, rfl, hstored, hexpire, Except.ok.inj h⟩

theorem verify_ok {login : Login} {pass : Bytes} (h : verify e mw login pass = .ok u) :
    mw.users.byLogin login = some u ∧ e.authenticate u pass = true := by
  unfold verify at h
  cases huser : mw.users.byLogin login with
  | none => simp [huser] at h
  | some u' =>
    simp only [huser] at h
    split at h
    next hpass =>
      cases h
      exact ⟨rfl, hpass⟩
    · cases h

theorem verify_error {login : Login} {pass : Bytes}
    (h : ∀ u, mw.users.byLogin login = some u → e.authenticate u pass = false) :
    verify e mw login pass = .error .errInvalidLogin := by
  unfold verify
  cases huser : mw.users.byLogin login with
  | none => rfl
  | some u => simp [h u huser]

theorem userFromRequestBasicAuth_some (h : (mw.userFromRequestBasicAuth e r c).2 = .ok (some u)) :
    ∃ login pass remoteIP, r.basicAuth = some (login, pass) ∧ mw.users.byLogin login = some u ∧
      e.authenticate u pass = true ∧ e.splitHost r.remoteAddr = some remoteIP ∧
      ¬ mw.rateLimiter.Blocked remoteIP c.check := by
  unfold userFromRequestBasicAuth at h
  cases hcreds : r.basicAuth with
  | none => simp [hcreds] at h
  | some creds =>
    obtain ⟨login, pass⟩ := creds
    cases haddr : e.splitHost r.remoteAddr with
    | none => simp [hcreds, haddr] at h
    | some remoteIP =>
      simp only [hcreds, haddr] at h
      split at h
      · cases h
      next hleft =>
        cases hverify : verify e mw login pass with
        | error err => simp [hverify] at h
        | ok u' =>
          rw [hverify] at h
          cases h
          obtain ⟨huser, hpass⟩ := verify_ok hverify
          exact ⟨login, pass, remoteIP, rfl, huser, hpass, rfl, mt LoginRateLimiter.check_pos_iff.2 hleft⟩

theorem permitted_of_user (h : (mw.userFromRequest e r c).2 = .ok (some u)) : Permitted e mw r c := by
  unfold userFromRequest at h
  cases hcookie : r.cookie sessionCookieName with
  | some val =>
    simp only [hcookie] at h
    obtain ⟨t, s, htoken, hstored, hexpire, huser⟩ := userFromCookie_some h
    exact .session val t s u hcookie htoken hstored hexpire huser
  | none =>
    simp only [hcookie] at h
    obtain ⟨login, pass, remoteIP, hcreds, huser, hpass, haddr, hblock⟩ := userFromRequestBasicAuth_some h
    exact .basicAuth login pass remoteIP u hcookie hcreds huser hpass haddr hblock

theorem handlePublicAccess_served {user : Option User} (h : handlePublicAccess r = some (.served user)) :
    isPublicResource r.path = true := by
  unfold handlePublicAccess at h
  split at h
  · assumption
  · split at h <;> simp at h

theorem needsAuthentication_of_stored {id : UserID} (h : mw.users.userIDToUser.get id = some u) :
    mw.needsAuthentication = true := by
  have hmem : (⟨id, u⟩ : Sigma fun _ : UserID => User) ∈ mw.users.userIDToUser.entries := AList.mem_lookup_iff.1 h
  have hpos := List.length_pos_of_mem hmem
  unfold needsAuthentication
  simp
  intro hnil
  simp [hnil] at hpos

/-- Whatever the answer, the state is the one after the lookup of the user. -/
theorem wrap_fst (hneeds : mw.needsAuthentication = true) : (mw.wrap e r c).1 = (mw.userFromRequest e r c).1 := by
  unfold wrap handleAuthenticatedUser
  rw [if_pos hneeds]
  rcases (mw.userFromRequest e r c) with ⟨mw', err | (_ | u)⟩ <;> rfl

theorem permitted_of_served (hneeds : mw.needsAuthentication = true) {user : Option User}
    (h : (mw.wrap e r c).2 = .served user) : Permitted e mw r c := by
  unfold wrap handleAuthenticatedUser at h
  rw [if_pos hneeds] at h
  cases hfound : (mw.userFromRequest e r c).2 with
  | ok found =>
    cases found with
    | some u => exact permitted_of_user hfound
    | none =>
      simp only [hfound] at h
      cases hpub : handlePublicAccess r with
      | none => simp [hpub] at h
      | some resp =>
        rw [hpub] at h
        cases h
        exact .publicResource (handlePublicAccess_served hpub)
  | error err =>
    simp only [hfound] at h
    cases hpub : handlePublicAccess r with
    | none => simp [hpub] at h
    | some resp =>
      rw [hpub] at h
      cases h
      exact .publicResource (handlePublicAccess_served hpub)

theorem wrap_guessesWrong {ab : AuthRateLimiter} {remoteIP : String} (hneeds : mw.needsAuthentication = true)
    (hguess : GuessesWrong e mw r remoteIP) (hlimiter : mw.rateLimiter = .auth ab)
    (hblock : ¬ ab.Blocked remoteIP c.check) :
    (mw.wrap e r c).1.rateLimiter = .auth ((ab.cleanupLocked c.check).inc remoteIP c.inc) := by
  obtain ⟨login, pass, hcreds, hwrong⟩ := hguess.hcreds
  have hleft : ¬ 0 < (ab.check remoteIP c.check).2 := mt AuthRateLimiter.check_pos_iff.1 hblock
  rw [wrap_fst hneeds]
  unfold userFromRequest userFromRequestBasicAuth
  simp only [hguess.noCookie, hcreds, hguess.haddr, hlimiter, LoginRateLimiter.check, if_neg hleft, verify_error hwrong]
  rfl

/-! ## The handler behind the middleware -/

/-- **Authentication cannot be bypassed.**  With a stored user, only permitted requests are served, and a request
that guesses wrong from an address that is not blocked adds one to the failures of the address that count. -/
theorem wrap_protects (e : AuthEnv) (mw : AuthMiddlewareDefault) (r : HTTPRequest) (c : Clock)
    (hstored : ∃ id u, mw.users.userIDToUser.get id = some u) :
    (∀ user, (mw.wrap e r c).2 = .served user → Permitted e mw r c) ∧
    ∀ remoteIP ab, GuessesWrong e mw r remoteIP → mw.rateLimiter = .auth ab → ¬ ab.Blocked remoteIP c.check →
      ∃ ab', (mw.wrap e r c).1.rateLimiter = .auth ab' ∧
        ab'.failures remoteIP = (ab.liveFailures remoteIP c.check + 1) % 2 ^ 64 := by
  obtain ⟨id, u, hu⟩ := hstored
  have hneeds := needsAuthentication_of_stored hu
  refine ⟨fun user hserved => permitted_of_served hneeds hserved, fun remoteIP ab hguess hlimiter hblock => ?_⟩
  refine ⟨_, wrap_guessesWrong hneeds hguess hlimiter hblock, ?_⟩
  rw [AuthRateLimiter.failures_inc_mod, AuthRateLimiter.failures_cleanupLocked]

/-- One user with the password `s`, and an address with three failures that are remembered until `until_`. -/
def afterThree (until_ : ℤ) : AuthMiddlewareDefault where
  rateLimiter := .auth { newAuthRateLimiter (900 * 10 ^ 9) 5 with
    failedAuths := GoMap.empty.set "192.0.2.1" ⟨until_, 3⟩ }
  sessions := DefaultSessionStorage.fresh
  users := (DefaultDB.new.create ⟨[97], Vector.replicate 16 1⟩).toOption.getD DefaultDB.new

def onlyS : AuthEnv where
  authenticate := fun _ pass => pass = [115]
  splitHost := fun addr => if addr = "192.0.2.1:4711" then some "192.0.2.1" else none

/-- A guess of the password. -/
def guess : HTTPRequest where
  path := "/control/status"
  cookies := []
  basicAuth := some ([97], [116])
  remoteAddr := "192.0.2.1:4711"

theorem guess_guessesWrong (until_ : ℤ) : GuessesWrong onlyS (afterThree until_) guess "192.0.2.1" where
  noCookie := rfl
  haddr := rfl
  hcreds := ⟨[97], [116], rfl, fun _ _ => rfl⟩

/-- The fourth failure. -/
theorem wrap_protects_guess : ∃ ab', ((afterThree 5).wrap onlyS guess ⟨1, 2, 3⟩).1.rateLimiter = .auth ab' ∧
    ab'.failures "192.0.2.1" = 4 :=
  (wrap_protects onlyS (afterThree 5) guess ⟨1, 2, 3⟩ ⟨Vector.replicate 16 1, _, rfl⟩).2 "192.0.2.1" _
    (guess_guessesWrong 5) rfl (by rintro ⟨a, ha, hnum, -⟩; cases ha; revert hnum; decide)

/-- Three failures whose time is over are forgotten, and the next one is the first. -/
theorem not_incremented : ¬ ∀ (e : AuthEnv) (mw : AuthMiddlewareDefault) (r : HTTPRequest) (c : Clock)
    (remoteIP : String) (ab : AuthRateLimiter), (∃ id u, mw.users.userIDToUser.get id = some u) →
      GuessesWrong e mw r remoteIP → mw.rateLimiter = .auth ab → ¬ ab.Blocked remoteIP c.check →
      ∃ ab', (mw.wrap e r c).1.rateLimiter = .auth ab' ∧ ab'.failures remoteIP = ab.failures remoteIP + 1 := by
  intro h
  obtain ⟨ab', hab', hnum⟩ := h onlyS (afterThree 5) guess ⟨1, 6, 7⟩ "192.0.2.1" _
    ⟨Vector.replicate 16 1, _, rfl⟩ (guess_guessesWrong 5) rfl
    (by rintro ⟨a, ha, hmax, -⟩; cases ha; revert hmax; decide)
  cases hab'
  revert hnum
  decide

end AuthMiddlewareDefault

end AdGuardHome.Home
