import Mathlib.Algebra.Order.Ring.Int
import AdGuardHome.Lib.GoMap

/-!
# Users and session records

The users of the web interface, their sessions, and the records of sessions in the database.  Times are in
nanoseconds since the epoch.
-/

namespace AdGuardHome.Aghuser

open AdGuardHome.Lib

abbrev Bytes := List UInt8

abbrev Login := Bytes

abbrev UserID := Vector UInt8 16

abbrev SessionToken := Vector UInt8 16

structure User where
  login : Login
  id : UserID
  deriving DecidableEq, Repr

structure Session where
  expire : ℤ
  userLogin : Login
  token : SessionToken
  userID : UserID
  deriving DecidableEq, Repr

/-! ## Users -/

/-- The users by their identifiers and the identifiers by the logins. -/
structure DefaultDB where
  loginToUserID : GoMap Login UserID
  userIDToUser : GoMap UserID User
  synchronized : ∀ login id, loginToUserID.get login = some id →
    ∃ u, userIDToUser.get id = some u ∧ u.login = login

namespace DefaultDB

def new : DefaultDB := ⟨GoMap.empty, GoMap.empty, by simp⟩

def byLogin (db : DefaultDB) (login : Login) : Option User :=
  (db.loginToUserID.get login).bind db.userIDToUser.get

inductive CreateError where
  | emptyUserID
  | duplicatedUserID
  | duplicatedLogin
  deriving DecidableEq, Repr

def create (db : DefaultDB) (u : User) : Except CreateError DefaultDB :=
  if u.id = Vector.replicate 16 0 then .error .emptyUserID
  else if hid : db.userIDToUser.get u.id ≠ none then .error .duplicatedUserID
  else if db.loginToUserID.get u.login ≠ none then .error .duplicatedLogin
  else .ok
    { loginToUserID := db.loginToUserID.set u.login u.id
      userIDToUser := db.userIDToUser.set u.id u
      synchronized := by
        intro login id h
        rw [GoMap.get_set] at h
        split at h
        next hlogin =>
          cases h
          exact ⟨u, GoMap.get_set_self .., hlogin.symm⟩
        · obtain ⟨u', hu', hlogin'⟩ := db.synchronized login id h
          refine ⟨u', ?_, hlogin'⟩
          rw [GoMap.get_set_ne _ (fun hid' => hid ?_)]
          · exact hu'
          · rw [← hid', hu']
            simp }

theorem login_of_byLogin {db : DefaultDB} {login : Login} {u : User} (h : db.byLogin login = some u) :
    u.login = login := by
  obtain ⟨id, hid, hu⟩ := Option.bind_eq_some_iff.1 h
  obtain ⟨u', hu', hlogin⟩ := db.synchronized login id hid
  cases hu.symm.trans hu'
  exact hlogin

end DefaultDB

/-! ## Records -/

/-- Nanoseconds in a second. -/
def second : ℤ := 10 ^ 9

/-- The seconds since the epoch. -/
def unix (t : ℤ) : ℤ := t.fdiv second

/-- The low 16 bits of a number, the highest byte first. -/
def putUint16 (v : ℕ) : Bytes := [UInt8.ofNat (v / 2 ^ 8), UInt8.ofNat v]

/-- The low 32 bits of a number, the highest byte first. -/
def putUint32 (v : ℕ) : Bytes :=
  [UInt8.ofNat (v / 2 ^ 24), UInt8.ofNat (v / 2 ^ 16), UInt8.ofNat (v / 2 ^ 8), UInt8.ofNat v]

def uint16 (b₀ b₁ : UInt8) : ℕ := b₀.toNat * 2 ^ 8 + b₁.toNat

def uint32 (b₀ b₁ b₂ b₃ : UInt8) : ℕ :=
  b₀.toNat * 2 ^ 24 + b₁.toNat * 2 ^ 16 + b₂.toNat * 2 ^ 8 + b₃.toNat

/-- The expiry and the login of a record. -/
def bboltDecode : Bytes → Except String (ℤ × Login)
  | e₀ :: e₁ :: e₂ :: e₃ :: n₀ :: n₁ :: nameData =>
    let nameLen := uint16 n₀ n₁
    if nameData.length ≠ nameLen then
      .error ("login: expected length " ++ toString nameLen ++ ", got " ++ toString nameData.length)
    else .ok (uint32 e₀ e₁ e₂ e₃ * second, nameData)
  | data => .error ("length of the data is less than expected: got " ++ toString data.length)

def bboltEncode (s : Session) : Bytes :=
  putUint32 (unix s.expire % 2 ^ 32).toNat ++ putUint16 s.userLogin.length ++ s.userLogin

/-- The record holds the whole of the session's login and of the seconds of its expiry. -/
structure Session.Representable (s : Session) : Prop where
  login_lt : s.userLogin.length < 2 ^ 16
  expire_nonneg : 0 ≤ unix s.expire
  expire_lt : unix s.expire < 2 ^ 32

theorem uint16_putUint16 {v : ℕ} (h : v < 2 ^ 16) : uint16 (UInt8.ofNat (v / 2 ^ 8)) (UInt8.ofNat v) = v := by
  simp only [uint16, UInt8.toNat_ofNat']
  omega

theorem uint32_putUint32 {v : ℕ} (h : v < 2 ^ 32) :
    uint32 (UInt8.ofNat (v / 2 ^ 24)) (UInt8.ofNat (v / 2 ^ 16)) (UInt8.ofNat (v / 2 ^ 8)) (UInt8.ofNat v) = v := by
  simp only [uint32, UInt8.toNat_ofNat']
  omega

theorem putUint16_uint16 (b₀ b₁ : UInt8) : putUint16 (uint16 b₀ b₁) = [b₀, b₁] := by
  have h₀ := b₀.toNat_lt
  have h₁ := b₁.toNat_lt
  simp only [putUint16, uint16, List.cons.injEq, and_true, ← UInt8.toNat_inj, UInt8.toNat_ofNat']
  omega

theorem putUint32_uint32 (b₀ b₁ b₂ b₃ : UInt8) : putUint32 (uint32 b₀ b₁ b₂ b₃) = [b₀, b₁, b₂, b₃] := by
  have h₀ := b₀.toNat_lt
  have h₁ := b₁.toNat_lt
  have h₂ := b₂.toNat_lt
  have h₃ := b₃.toNat_lt
  simp only [putUint32, uint32, List.cons.injEq, and_true, ← UInt8.toNat_inj, UInt8.toNat_ofNat']
  omega

theorem uint16_lt (b₀ b₁ : UInt8) : uint16 b₀ b₁ < 2 ^ 16 := by
  have h₀ := b₀.toNat_lt
  have h₁ := b₁.toNat_lt
  unfold uint16
  omega

theorem uint32_lt (b₀ b₁ b₂ b₃ : UInt8) : uint32 b₀ b₁ b₂ b₃ < 2 ^ 32 := by
  have h₀ := b₀.toNat_lt
  have h₁ := b₁.toNat_lt
  have h₂ := b₂.toNat_lt
  have h₃ := b₃.toNat_lt
  unfold uint32
  omega

theorem unix_mul_second (n : ℤ) : unix (n * second) = n := Int.mul_fdiv_cancel n (by decide)

/-- A record is read back with the seconds of its expiry. -/
theorem bboltDecode_bboltEncode {s : Session} (h : s.Representable) :
    bboltDecode (bboltEncode s) = .ok (unix s.expire * second, s.userLogin) := by
  have hmod : unix s.expire % 2 ^ 32 = unix s.expire := Int.emod_eq_of_lt h.expire_nonneg h.expire_lt
  have hexpire : (unix s.expire).toNat < 2 ^ 32 := by
    have := h.expire_nonneg
    have := h.expire_lt
    omega
  simp only [bboltEncode, putUint32, putUint16, List.cons_append, List.nil_append, bboltDecode, hmod,
    uint16_putUint16 h.login_lt, uint32_putUint32 hexpire, ne_eq, not_true_eq_false, if_false]
  rw [Int.toNat_of_nonneg h.expire_nonneg]

/-- Exactly the records of sessions are read. -/
theorem bboltDecode_ok_iff (data : Bytes) :
    (∃ r, bboltDecode data = .ok r) ↔ ∃ s : Session, s.Representable ∧ bboltEncode s = data := by
  constructor
  · rintro ⟨r, h⟩
    unfold bboltDecode at h
    split at h
    next e₀ e₁ e₂ e₃ n₀ n₁ nameData =>
      dsimp only at h
      split at h
      · cases h
      next hlen =>
        have hunix := unix_mul_second (uint32 e₀ e₁ e₂ e₃)
        have hlt := uint32_lt e₀ e₁ e₂ e₃
        rw [not_not] at hlen
        refine ⟨⟨uint32 e₀ e₁ e₂ e₃ * second, nameData, Vector.replicate 16 0, Vector.replicate 16 0⟩, ⟨?_, ?_, ?_⟩, ?_⟩
        · show nameData.length < 2 ^ 16
          rw [hlen]
          exact uint16_lt n₀ n₁
        · show 0 ≤ unix _
          rw [hunix]
          omega
        · show unix _ < 2 ^ 32
          rw [hunix]
          omega
        · have hmod : ((uint32 e₀ e₁ e₂ e₃ : ℤ) % 2 ^ 32).toNat = uint32 e₀ e₁ e₂ e₃ := by omega
          simp only [bboltEncode, hunix, hmod, hlen, putUint32_uint32, putUint16_uint16]
          rfl
    · cases h
  · rintro ⟨s, hs, rfl⟩
    exact ⟨_, bboltDecode_bboltEncode hs⟩

end AdGuardHome.Aghuser
