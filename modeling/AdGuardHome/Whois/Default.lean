import AdGuardHome.Aghnet.Text
import AdGuardHome.Client.RuntimeIndex
import AdGuardHome.Lib.News
import AdGuardHome.Whois.Parse

/-!
# WHOIS lookups (`internal/whois/whois.go`)

A server is asked for an address, and the servers that it redirects to after it.  What is found is in a cache for some
time, also that nothing was found, and a lookup says whether it has changed (`process_cases`).
-/

namespace AdGuardHome.Whois

open AdGuardHome.Lib AdGuardHome.Net AdGuardHome.Aghnet AdGuardHome.Client

/-! ## Servers -/

/-- `net.SplitHostPort`, `none` for its errors: the port is behind the last colon, and a host with colons is in
brackets. -/
def splitHostPort (hostport : Bytes) : Option (Bytes × Bytes) :=
  let port := (hostport.reverse.takeWhile (· ≠ 58)).reverse
  let before := hostport.take (hostport.length - port.length - 1)
  if 58 ∉ hostport then none
  else if hostport.head? = some 91 then
    let host := hostport.tail.takeWhile (· ≠ 93)
    if before = 91 :: host ++ [93] ∧ 91 ∉ hostport.tail ∧ 93 ∉ port then some (host, port) else none
  else if 58 ∈ before ∨ 91 ∈ hostport ∨ 93 ∈ hostport then none
  else some (before, port)

/-- `net.JoinHostPort` -/
def joinHostPort (host port : Bytes) : Bytes :=
  if 58 ∈ host then 91 :: host ++ [93, 58] ++ port else host ++ 58 :: port

example : splitHostPort (joinHostPort (text "::1") (text "43")) = some (text "::1", text "43") := by decide

/-- `DefaultServer` -/
def defaultServer : Bytes := text "whois.arin.net"

/-- What the server at an address sends back for a request, or the error of the connection. -/
abbrev Network := Bytes → Bytes → Except String Bytes

/-- `Default.query` -/
def query (net : Network) (target serverAddr : Bytes) : Except String Bytes :=
  let addr := ((splitHostPort serverAddr).map Prod.fst).getD []
  let target := if addr = defaultServer then text "n + " ++ target else target
  net serverAddr (target ++ text "\r\n")

/-! ## Lookups -/

/-- `cacheItem` -/
structure CacheItem where
  expiry : ℤ
  info : WhoisInfo

/-- Times are in nanoseconds. -/
structure Default where
  cache : GoMap Addr CacheItem
  serverAddr : Bytes
  portStr : Bytes
  cacheTTL : ℤ
  maxRedirects : ℕ
  maxInfoLen : ℕ

/-- `Info{}` -/
def emptyInfo : WhoisInfo := ⟨"", "", ""⟩

/-- A string of Go, which is a list of bytes, with one character for each of them. -/
def goString (bs : Bytes) : String := String.ofList (bs.map fun b => Char.ofNat b.toNat)

/-- The `Info` of what a response has. -/
def infoOf (kv : GoMap Bytes Bytes) : WhoisInfo :=
  let value := fun key => goString ((kv.get (text key)).getD [])
  ⟨value "city", value "country", value "orgname"⟩

namespace Default

-- `strings.ToLower`, and `netutil.IsSpecialPurpose`
variable (toLower : Bytes → Bytes) (isSpecialPurpose : Addr → Bool) (net : Network) (now stored : ℤ)

/-- The loop of `queryAll`, with the redirects that are left. -/
def queryFrom (w : Default) (target : Bytes) : ℕ → Bytes → Except String (GoMap Bytes Bytes)
  | 0, _ => .error "whois: redirect loop"
  | n + 1, server =>
    match query net target server with
    | .error err => .error err
    | .ok data =>
      let info := whoisParse toLower data w.maxInfoLen
      match info.get (text "whois") with
      | none => .ok info
      | some redir =>
        let redir := toLower redir
        w.queryFrom target n (if (splitHostPort redir).isNone then joinHostPort redir w.portStr else redir)

def queryAll (w : Default) (target : Bytes) : Except String (GoMap Bytes Bytes) :=
  w.queryFrom toLower net target w.maxRedirects (joinHostPort w.serverAddr w.portStr)

/-- `toCacheItem`, put into the cache. -/
def store (w : Default) (ip : Addr) (info : WhoisInfo) : Default :=
  { w with cache := w.cache.set ip ⟨stored + w.cacheTTL, info⟩ }

/-- `Default.requestInfo`.  After an error the cache has an empty info. -/
def requestInfo (w : Default) (ip : Addr) (cached : Option WhoisInfo) : (Option WhoisInfo × Bool) × Default :=
  match w.queryAll toLower net (text (addrString ip)) with
  | .error _ => ((none, true), w.store stored ip emptyInfo)
  | .ok kv =>
    let info := infoOf kv
    let changed := cached ≠ some info
    ((if info = emptyInfo then none else some info, changed), w.store stored ip info)

/-- `Default.findInCache` -/
def findInCache (w : Default) (ip : Addr) : Option WhoisInfo × Bool :=
  match w.cache.get ip with
  | none => (none, false)
  | some item => (some item.info, decide (item.expiry < now))

/-- `Default.Process` -/
def process (w : Default) (ip : Addr) : (Option WhoisInfo × Bool) × Default :=
  if isSpecialPurpose ip then ((none, false), w)
  else
    match w.findInCache now ip with
    | (some wi, false) => ((if wi = emptyInfo then none else some wi, false), w)
    | (wi, _) => w.requestInfo toLower net stored ip wi

/-! ## What a lookup does -/

/-- Whether the servers are asked. -/
def asks (w : Default) (ip : Addr) : Bool :=
  !isSpecialPurpose ip && (w.cache.get ip).all fun item => decide (item.expiry < now)

/-- What the servers say, which is nothing after an error. -/
def answer (w : Default) (ip : Addr) : WhoisInfo :=
  match w.queryAll toLower net (text (addrString ip)) with
  | .error _ => emptyInfo
  | .ok kv => infoOf kv

/-- The info in the cache. -/
def cached (w : Default) (ip : Addr) : Option WhoisInfo := (w.cache.get ip).map (·.info)

variable {toLower isSpecialPurpose net now stored} {w : Default} {ip : Addr}

/-- A caller that takes the info only if it has changed gets it just if it is news. -/
theorem requestInfo_eq :
    (w.requestInfo toLower net stored ip (w.cached ip)).2 = w.store stored ip (w.answer toLower net ip) ∧
      (if (w.requestInfo toLower net stored ip (w.cached ip)).1.2 then
        (w.requestInfo toLower net stored ip (w.cached ip)).1.1 else none) =
        if News.IsNews emptyInfo (w.cached ip) (w.answer toLower net ip) then some (w.answer toLower net ip)
        else none := by
  unfold requestInfo answer
  cases w.queryAll toLower net (text (addrString ip)) with
  | error err =>
    refine ⟨rfl, ?_⟩
    rw [if_neg fun hnews : News.IsNews _ _ _ => hnews.1 rfl]
    rfl
  | ok kv =>
    refine ⟨rfl, ?_⟩
    dsimp only
    by_cases hempty : infoOf kv = emptyInfo
    · rw [if_pos hempty, if_neg fun hnews : News.IsNews _ _ _ => hnews.1 hempty, ite_self]
    · rw [if_neg hempty]
      by_cases hsame : w.cached ip = some (infoOf kv)
      · rw [if_neg fun hnews : News.IsNews _ _ _ => hnews.2 hsame]
        simp [hsame]
      · have hnews : News.IsNews emptyInfo (w.cached ip) (infoOf kv) := ⟨hempty, hsame⟩
        rw [if_pos hnews]
        simp [hsame]

/-- Either the cache is used and nothing is news, or the servers are asked and their answer is in the cache. -/
theorem process_cases :
    (w.asks isSpecialPurpose now ip = false ∧ (w.process toLower isSpecialPurpose net now stored ip).2 = w ∧
        (w.process toLower isSpecialPurpose net now stored ip).1.2 = false) ∨
      (w.asks isSpecialPurpose now ip = true ∧
        (w.process toLower isSpecialPurpose net now stored ip).2 = w.store stored ip (w.answer toLower net ip) ∧
        (if (w.process toLower isSpecialPurpose net now stored ip).1.2 then
          (w.process toLower isSpecialPurpose net now stored ip).1.1 else none) =
          if News.IsNews emptyInfo (w.cached ip) (w.answer toLower net ip) then some (w.answer toLower net ip)
          else none) := by
  have hrequest := @requestInfo_eq toLower net stored w ip
  unfold process asks findInCache
  unfold cached at hrequest ⊢
  cases hspecial : isSpecialPurpose ip with
  | true => exact .inl ⟨rfl, rfl, rfl⟩
  | false =>
    cases hget : w.cache.get ip with
    | none =>
      rw [hget] at hrequest
      exact .inr ⟨rfl, hrequest⟩
    | some item =>
      rw [hget] at hrequest
      by_cases hexpired : item.expiry < now
      · simp only [hexpired, decide_true]
        exact .inr ⟨by simp [hexpired], hrequest⟩
      · simp only [hexpired, decide_false]
        exact .inl ⟨by simp [hexpired], rfl, rfl⟩

theorem cached_store (info : WhoisInfo) (ip' : Addr) :
    (w.store stored ip info).cached ip' = if ip' = ip then some info else w.cached ip' := by
  unfold cached store
  rw [GoMap.get_set]
  split <;> rfl

end Default

end AdGuardHome.Whois
