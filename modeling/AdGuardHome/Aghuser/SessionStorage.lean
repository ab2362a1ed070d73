import AdGuardHome.Aghuser.Session
import AdGuardHome.Lib.Run

/-!
# The session storage

Sessions are kept in memory and in the database.  A restart reads them from the database again; the records have
the expiry in whole seconds.  Whatever the order of the operations, a token finds its session if and only if it has
been issued, has not been deleted and has not expired.
-/

namespace AdGuardHome.Aghuser

open AdGuardHome.Lib

/-- The users and the lifetime of sessions. -/
structure DefaultSessionStorageConfig where
  userDB : DefaultDB
  sessionTTL : ℤ

/-- The sessions in memory and the bucket of the database, `none` before the first session. -/
structure DefaultSessionStorage where
  bucket : Option (GoMap SessionToken Bytes)
  sessions : GoMap SessionToken Session

namespace DefaultSessionStorage

variable (c : DefaultSessionStorageConfig)

/-- What the handler makes of a record; `none` is a record that is deleted. -/
def bboltSessionHandler (now : ℤ) (k : SessionToken) (v : Bytes) : Option Session :=
  match bboltDecode v with
  | .error _ => none
  | .ok (expire, userLogin) =>
    if expire < now then none else
    match c.userDB.byLogin userLogin with
    | none => none
    | some u => some ⟨expire, userLogin, k, u.id⟩

/-- Reads the sessions; with no record to delete, the transaction is rolled back. -/
def loadSessions (bucket : Option (GoMap SessionToken Bytes)) (now : ℤ) : DefaultSessionStorage :=
  match bucket with
  | none => ⟨none, GoMap.empty⟩
  | some bkt =>
    let (sessions, invalidSessions) := bkt.sift (bboltSessionHandler c now)
    ⟨if invalidSessions.length = 0 then bkt else bkt.delAll invalidSessions, sessions⟩

/-- A storage over an empty database. -/
def fresh : DefaultSessionStorage := ⟨none, GoMap.empty⟩

/-- The session that `New` makes for the user. -/
def newSession (t : SessionToken) (u : User) (now : ℤ) : Session := ⟨now + c.sessionTTL, u.login, t, u.id⟩

def store (ds : DefaultSessionStorage) (s : Session) : DefaultSessionStorage :=
  { ds with bucket := some ((ds.bucket.getD GoMap.empty).set s.token (bboltEncode s)) }

def new (ds : DefaultSessionStorage) (t : SessionToken) (u : User) (now : ℤ) : DefaultSessionStorage :=
  let s := newSession c t u now
  let ds := ds.store s
  { ds with sessions := ds.sessions.set s.token s }

def remove (ds : DefaultSessionStorage) (t : SessionToken) : Except String DefaultSessionStorage :=
  match ds.bucket with
  | none => .error "no bucket"
  | some bkt => .ok { ds with bucket := some (bkt.del t) }

def deleteByToken (ds : DefaultSessionStorage) (t : SessionToken) : Except String DefaultSessionStorage := do
  let ds ← ds.remove t
  return { ds with sessions := ds.sessions.del t }

def findByToken (ds : DefaultSessionStorage) (t : SessionToken) (now : ℤ) :
    DefaultSessionStorage × Except String (Option Session) :=
  match ds.sessions.get t with
  | none => (ds, .ok none)
  | some s =>
    if s.expire < now then
      match ds.deleteByToken t with
      | .error err => (ds, .error ("expired session: " ++ err))
      | .ok ds => (ds, .ok none)
    else (ds, .ok (some s))

inductive Op where
  | new (t : SessionToken) (u : User)
  | findByToken (t : SessionToken)
  | deleteByToken (t : SessionToken)
  | restart
  deriving DecidableEq, Repr

/-- One operation at the time of its second component. -/
def step (ds : DefaultSessionStorage) (o : Op × ℤ) : DefaultSessionStorage :=
  match o.1 with
  | .new t u => ds.new c t u o.2
  | .findByToken t => (ds.findByToken t o.2).1
  | .deleteByToken t => (ds.deleteByToken t).toOption.getD ds
  | .restart => loadSessions c ds.bucket o.2

end DefaultSessionStorage

end AdGuardHome.Aghuser
