import AdGuardHome.Lib.GoMap
import AdGuardHome.Lib.Hex
import AdGuardHome.Lib.Lines
import Mathlib.Algebra.Group.Int.Defs

/-!
# The hash prefix checker

A host is blocked if the hash of it or of one of its parent domains is in the database of an upstream.  The
upstream is asked for the hashes with given prefixes, and the answers are cached by prefix, as bytes that begin
with the time at which the entry expires.  A result of `none` is a run-time panic: a slice bound out of range.
-/

namespace AdGuardHome.Hashprefix

open AdGuardHome.Lib

/-- Bytes of a string, of a DNS name or of a cache entry. -/
abbrev Bytes := List UInt8

/-- The length of the prefix of a hash. -/
def prefixLen : ℕ := 2

/-- The size of a hash. -/
def hashSize : ℕ := 32

/-- The size of the hexadecimal form of a hash. -/
def hexSize : ℕ := hashSize * 2

/-- The size of the expiry in an entry of the cache. -/
def expirySize : ℕ := 8

/-- The number of labels of a host that are hashed. -/
def subDomainNum : ℕ := 4

/-- The dot of a DNS name. -/
def dot : UInt8 := 46

/-- A hashed hostname. -/
abbrev HostnameHash := {b : Bytes // b.length = hashSize}

/-- `hash[:prefixLen]` -/
def HostnameHash.pref (h : HostnameHash) : Bytes := h.1.take prefixLen

/-- One of the hashes `a` is one of the hashes `b`. -/
def findMatch (a b : List HostnameHash) : Bool := a.any fun hash => b.contains hash

/-! ## Entries of the cache -/

/-- An item that is stored in the cache, with its expiry in nanoseconds. -/
structure CacheItem where
  expiry : ℤ
  hashes : List HostnameHash

/-- Nanoseconds in a second. -/
def nanos : ℤ := 1000000000

/-- The big-endian bytes of a number, the lowest `n` of them. -/
def bigEndian : ℕ → ℕ → Bytes
  | 0, _ => []
  | n + 1, v => bigEndian n (v / 256) ++ [UInt8.ofNat (v % 256)]

/-- The number with the big-endian bytes. -/
def ofBigEndian (data : Bytes) : ℕ := data.foldl (fun v b => v * 256 + b.toNat) 0

/-- The hashes that the bytes are cut into. -/
def toHashes : ℕ → Bytes → Option (List HostnameHash)
  | _, [] => some []
  | 0, _ :: _ => none
  | fuel + 1, b :: data =>
    if h : hashSize ≤ (b :: data).length then
      (toHashes fuel ((b :: data).drop hashSize)).map (⟨(b :: data).take hashSize, by simp at h ⊢; omega⟩ :: ·)
    else none

/-- Decodes an item; the seconds of its expiry are an `int64`. -/
def toCacheItem (data : Bytes) : Option CacheItem :=
  if data.length < expirySize then none
  else
    (toHashes data.length (data.drop expirySize)).map fun hashes =>
      { expiry := (ofBigEndian (data.take expirySize) : ℤ).bmod (2 ^ 64) * nanos, hashes := hashes }

/-- Encodes an item, with its expiry in seconds as a `uint64`. -/
def fromCacheItem (item : CacheItem) : Bytes :=
  bigEndian expirySize (item.expiry.fdiv nanos % 2 ^ 64).toNat ++ item.hashes.flatMap (·.1)

/-! ## Hashes of a host -/

/-- What the checker uses of other packages. -/
structure Env where
  /-- `publicsuffix.PublicSuffix`: the public suffix and whether it is of ICANN. -/
  publicSuffix : Bytes → Bytes × Bool
  /-- `netutil.Subdomains` -/
  subdomains : Bytes → List Bytes
  /-- `sha256.Sum256` -/
  sum256 : Bytes → HostnameHash

/-- `strings.LastIndexFunc` over the first `i` bytes, with so many dots seen: where the last dot is that counts. -/
def lastDotIndex (host : Bytes) : ℕ → ℕ → Option ℕ
  | 0, _ => none
  | i + 1, nDots =>
    let nDots := if host[i]? = some dot then nDots + 1 else nDots
    if nDots = subDomainNum then some i else lastDotIndex host i nDots

/-- The hashes that should be checked for the host. -/
def hostnameToHashes (env : Env) (host : Bytes) : List HostnameHash :=
  let pubSuf := if (env.publicSuffix host).2 then (env.publicSuffix host).1 else []
  let host := (lastDotIndex host host.length 0).elim host fun i => host.drop (i + 1)
  ((env.subdomains host).takeWhile (· ≠ pubSuf)).map env.sum256

/-! ## Questions and answers -/

/-- A failed exchange. -/
inductive Err
  /-- An error of the upstream. -/
  | upstream (text : String)
  /-- "getting hashes: %w" -/
  | gettingHashes (err : Err)

/-- A resource record of an answer. -/
inductive RR
  | txt (txt : List Bytes)
  | other

/-- The configuration of a checker. -/
structure Config where
  txtSuffix : Bytes
  cacheTime : ℤ

/-- The question for the prefixes of the hashes. -/
def getQuestion (conf : Config) (hashes : List HostnameHash) : Bytes :=
  (hashes.flatMap fun hash => hexEncode hash.pref ++ [dot]) ++ conf.txtSuffix

/-- The hash in a string of a TXT record, if it has one. -/
def decodeHash (t : Bytes) : Option HostnameHash :=
  if t.length ≠ hexSize then none
  else
    match hexDecode t with
    | none => none
    | some buf => if h : buf.length = hashSize then some ⟨buf, h⟩ else none

def appendHashesFromTXT (hashes : List HostnameHash) (txt : List Bytes) : List HostnameHash :=
  txt.foldl (fun hashes t => (decodeHash t).elim hashes fun hash => hashes ++ [hash]) hashes

/-- The hashes with those of a record; records other than TXT are skipped. -/
def appendHashes (hashes : List HostnameHash) : RR → List HostnameHash
  | .txt txt => appendHashesFromTXT hashes txt
  | .other => hashes

/-- Whether the answer matches one of the hashes, and the hashes that were received. -/
def processAnswer (hashesToRequest : List HostnameHash) (answer : List RR) : Bool × List HostnameHash :=
  let receivedHashes := answer.foldl appendHashes []
  (findMatch hashesToRequest receivedHashes, receivedHashes)

/-! ## The checker -/

/-- A checker: the entries of its cache by prefix. -/
structure Checker where
  cache : GoMap Bytes Bytes

namespace Checker

def new : Checker := ⟨GoMap.empty⟩

/-- The loop of `findInCache` from index `k` on: `n` hashes are left, and the first `i` of the list are those to
request.  They are written over the hashes that were looked at. -/
def findLoop (c : Checker) (now : ℤ) : ℕ → ℕ → ℕ → List HostnameHash → Option (Bool × Bool × List HostnameHash)
  | 0, _, i, hashes => if i = 0 then some (true, false, []) else some (false, false, hashes.take i)
  | n + 1, k, i, hashes =>
    match hashes[k]? with
    | none => none
    | some hash =>
      match c.cache.get hash.pref with
      | none => findLoop c now n (k + 1) (i + 1) (hashes.set i hash)
      | some data =>
        match toCacheItem data with
        | none => none
        | some item =>
          if item.expiry < now then findLoop c now n (k + 1) (i + 1) (hashes.set i hash)
          else if findMatch hashes item.hashes then some (true, true, [])
          else findLoop c now n (k + 1) i hashes

/-- Whether the answer is in the cache, whether it is that the host is blocked, and the hashes to request if not. -/
def findInCache (c : Checker) (now : ℤ) (hashes : List HostnameHash) : Option (Bool × Bool × List HostnameHash) :=
  findLoop c now hashes.length 0 0 hashes

variable (conf : Config)

/-- Stores the hashes with a prefix.  `clock` is the time of the call. -/
def setCache (clock : Bytes → ℤ) (c : Checker) (pref : Bytes) (hashes : List HostnameHash) : Checker :=
  ⟨c.cache.set pref (fromCacheItem { expiry := clock pref + conf.cacheTime, hashes := hashes })⟩

/-- The received hashes by prefix. -/
def hashToStore (respHashes : List HostnameHash) : GoMap Bytes (List HostnameHash) :=
  respHashes.foldl (fun m hash => m.set hash.pref ((m.get hash.pref).getD [] ++ [hash])) GoMap.empty

/-- Stores that there is no hash with the prefix, if the prefix is not in the cache. -/
def storeMissing (clock : Bytes → ℤ) (c : Checker) (hash : HostnameHash) : Checker :=
  match c.cache.get hash.pref with
  | none => setCache conf clock c hash.pref []
  | some _ => c

/-- Caches the hashes, and the prefixes without any.  No prefix is stored twice, so `clock` is by prefix and the
order of the map does not matter. -/
def storeInCache (clock : Bytes → ℤ) (c : Checker) (hashesToRequest respHashes : List HostnameHash) : Checker :=
  let c := (hashToStore respHashes).entries.foldl (fun c e => setCache conf clock c e.1 e.2) c
  hashesToRequest.foldl (storeMissing conf clock) c

variable (env : Env)

/-- Whether a request for the host should be blocked.  `now` is the time of the lookup in the cache and `clock` that
of the entries it stores; `exchange` is the upstream. -/
def check (now : ℤ) (clock : Bytes → ℤ) (exchange : Bytes → Except Err (List RR)) (host : Bytes) (c : Checker) :
    Option (Except Err Bool × Checker) :=
  match c.findInCache now (hostnameToHashes env host) with
  | none => none
  | some (true, blocked, _) => some (.ok blocked, c)
  | some (false, _, hashesToRequest) =>
    match exchange (getQuestion conf hashesToRequest) with
    | .error err => some (.error (.gettingHashes err), c)
    | .ok answer =>
      let (matched, receivedHashes) := processAnswer hashesToRequest answer
      some (.ok matched, storeInCache conf clock c hashesToRequest receivedHashes)

/-- A check, or an eviction of entries from the cache. -/
inductive Op
  | check (now : ℤ) (clock : Bytes → ℤ) (exchange : Bytes → Except Err (List RR)) (host : Bytes)
  | evict (keys : List Bytes)

def step (c : Checker) : Op → Checker
  | .check now clock exchange host => (c.check conf env now clock exchange host).elim c Prod.snd
  | .evict keys => ⟨c.cache.delAll keys⟩

end Checker

end AdGuardHome.Hashprefix
