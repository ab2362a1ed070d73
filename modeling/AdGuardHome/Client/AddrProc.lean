import AdGuardHome.Client.RuntimeSources
import AdGuardHome.Lib.Chan
import AdGuardHome.Whois.Default

/-!
# The address processor (`internal/client/addrproc.go`, `internal/rdns/rdns.go`)

The addresses of clients wait in a channel for a goroutine that looks them up, with rDNS and with WHOIS, and updates
the storage with what has changed.  No accepted address is lost or overtaken (`processed_run`), and although only changes
are passed on, the storage has what was found last, whatever the caches lose and the other sources reload (`shown_run`).
-/

namespace AdGuardHome.Rdns

open AdGuardHome.Lib AdGuardHome.Net

/-! ## Reverse lookups -/

/-- `cacheItem` -/
structure CacheItem where
  expiry : ℤ
  host : String

/-- Times are in nanoseconds. -/
structure Default where
  cache : GoMap Addr CacheItem
  cacheTTL : ℤ

/-- What an `Exchanger` returns. -/
structure Exchanged where
  host : String
  ttl : ℤ
  err : Option String

namespace Default

variable (now stored : ℤ) (exchange : Addr → Exchanged)

/-- `Default.findInCache` -/
def findInCache (r : Default) (ip : Addr) : String × Bool :=
  match r.cache.get ip with
  | none => ("", true)
  | some item => (item.host, decide (item.expiry < now))

/-- `Default.Process`.  An error of the exchange is only logged. -/
def process (r : Default) (ip : Addr) : (String × Bool) × Default :=
  let (fromCache, expired) := r.findInCache now ip
  if !expired then ((fromCache, false), r)
  else
    let res := exchange ip
    let ttl := max res.ttl r.cacheTTL
    ((res.host, fromCache = "" || res.host ≠ fromCache), { r with cache := r.cache.set ip ⟨stored + ttl, res.host⟩ })

/-- Whether the exchanger is asked. -/
def asks (r : Default) (ip : Addr) : Bool := (r.cache.get ip).all fun item => decide (item.expiry < now)

/-- The name in the cache. -/
def cached (r : Default) (ip : Addr) : Option String := (r.cache.get ip).map (·.host)

variable {now stored exchange} {r : Default} {ip : Addr}

/-- Either the cache is used and nothing is news, or the exchanger is asked and its name is in the cache. -/
theorem process_cases :
    (r.asks now ip = false ∧ (r.process now stored exchange ip).2 = r ∧
        (r.process now stored exchange ip).1.2 = false) ∨
      (r.asks now ip = true ∧
        (∀ ip', (r.process now stored exchange ip).2.cached ip' =
          if ip' = ip then some (exchange ip).host else r.cached ip') ∧
        (if (r.process now stored exchange ip).1.2 then (r.process now stored exchange ip).1.1 else "") =
          if News.IsNews "" (r.cached ip) (exchange ip).host then (exchange ip).host else "") := by
  have hset : ∀ (item : CacheItem) (ip' : Addr), ({ r with cache := r.cache.set ip item } : Default).cached ip' =
      if ip' = ip then some item.host else r.cached ip' := by
    intro item ip'
    unfold cached
    rw [GoMap.get_set]
    split <;> rfl
  have hnews : ∀ fromCache host : String, r.cached ip = some fromCache ∨ (r.cached ip = none ∧ fromCache = "") →
      (if (fromCache = "" || host ≠ fromCache : Bool) then host else "") =
        if News.IsNews "" (r.cached ip) host then host else "" := by
    intro fromCache host hcache
    by_cases hblank : host = ""
    · rw [hblank, ite_self, ite_self]
    · unfold News.IsNews
      rcases hcache with hcache | ⟨hcache, rfl⟩
      · by_cases hsame : host = fromCache
        · subst hsame
          simp [hcache, hblank]
        · simp [hcache, hblank, hsame, Ne.symm hsame]
      · simp [hcache, hblank]
  unfold process asks findInCache
  unfold cached at hnews ⊢
  cases hget : r.cache.get ip with
  | none =>
    rw [hget] at hnews
    exact .inr ⟨rfl, fun ip' => (hset _ ip').trans rfl, hnews _ _ (.inr ⟨rfl, rfl⟩)⟩
  | some item =>
    rw [hget] at hnews
    by_cases hexpired : item.expiry < now
    · simp only [hexpired, decide_true]
      exact .inr ⟨by simp [hexpired], fun ip' => (hset _ ip').trans rfl, hnews _ _ (.inl rfl)⟩
    · simp only [hexpired, decide_false]
      exact .inl ⟨by simp [hexpired], rfl, rfl⟩

end Default

end AdGuardHome.Rdns

namespace AdGuardHome.Client

open AdGuardHome.Lib AdGuardHome.Net

/-! ## The processor -/

/-- `defaultQueueSize` -/
def defaultQueueSize : ℕ := 255

/-- `defaultIPTTL`, an hour. -/
def defaultIPTTL : ℤ := 3600000000000

structure DefaultAddrProc where
  clientIPs : Chan Addr defaultQueueSize
  /-- `none` is an `rdns.Empty`. -/
  rdns : Option Rdns.Default
  /-- `none` is a `whois.Empty`. -/
  whois : Option Whois.Default
  isClosed : Bool
  usePrivateRDNS : Bool

/-- `DefaultAddrProcConfig`, with what the processor keeps of it. -/
structure DefaultAddrProcConfig where
  useRDNS : Bool
  usePrivateRDNS : Bool
  useWHOIS : Bool

/-- The functions of other packages. -/
structure AddrProcEnv where
  /-- `netutil.IsSpecialPurpose` -/
  isSpecialPurpose : Addr → Bool
  /-- `SubnetSet.Contains` of the private subnets. -/
  privateSubnets : Addr → Bool
  /-- `strings.ToLower` -/
  toLower : Whois.Bytes → Whois.Bytes

/-- A time before and one after the requests of a lookup, and what is answered to them. -/
structure Moment where
  now : ℤ
  stored : ℤ
  exchange : Addr → Rdns.Exchanged
  net : Whois.Network

namespace DefaultAddrProc

/-- `newWHOIS` -/
def newWHOIS : Whois.Default := ⟨GoMap.empty, Whois.defaultServer, Whois.text "43", defaultIPTTL, 5, 250⟩

/-- `NewDefaultAddrProc`, before the initial addresses are processed. -/
def new (c : DefaultAddrProcConfig) : DefaultAddrProc where
  clientIPs := .make Addr defaultQueueSize
  rdns := if c.useRDNS then some ⟨GoMap.empty, defaultIPTTL⟩ else none
  whois := if c.useWHOIS then some newWHOIS else none
  isClosed := false
  usePrivateRDNS := c.usePrivateRDNS

/-- `DefaultAddrProc.Process`, and whether the address is queued; `none` is the panic of a send to a closed channel. -/
def process (p : DefaultAddrProc) (ip : Addr) : Option (Bool × DefaultAddrProc) :=
  if p.isClosed then some (false, p)
  else if p.clientIPs.closed then none
  else
    match p.clientIPs.send ip with
    | some ch => some (true, { p with clientIPs := ch })
    | none => some (false, p)

/-- `DefaultAddrProc.Close`; `none` is the panic of a second close of the channel. -/
def close (p : DefaultAddrProc) : Option (Option String × DefaultAddrProc) :=
  if p.isClosed then some (some "use of closed address processor", p)
  else if p.clientIPs.closed then none
  else some (none, { p with clientIPs := p.clientIPs.close, isClosed := true })

/-- `Addr.IsLoopback` -/
def isLoopback (ip : Addr) : Bool :=
  match ip.unmap with
  | .invalid => false
  | .v4 a => a >>> 24 = 127
  | .v6 a _ => a = 1

variable (env : AddrProcEnv)

def shouldResolve (p : DefaultAddrProc) (ip : Addr) : Bool :=
  !isLoopback ip && (p.usePrivateRDNS || !env.privateSubnets ip)

/-- `processRDNS`: the name, which is empty if it has not changed. -/
def processRDNS (m : Moment) (p : DefaultAddrProc) (ip : Addr) : String × DefaultAddrProc :=
  if !p.shouldResolve env ip then ("", p)
  else
    match p.rdns with
    | none => ("", p)
    | some r =>
      let ((host, changed), r) := r.process m.now m.stored m.exchange ip
      (if changed then host else "", { p with rdns := some r })

/-- `processWHOIS`: the info, which is nil if it has not changed. -/
def processWHOIS (m : Moment) (p : DefaultAddrProc) (ip : Addr) : Option WhoisInfo × DefaultAddrProc :=
  match p.whois with
  | none => (none, p)
  | some w =>
    let ((info, changed), w) := w.process env.toLower env.isSpecialPurpose m.net m.now m.stored ip
    (if changed then info else none, { p with whois := some w })

/-- The name that is found when the exchanger is asked for it. -/
def foundName (m : Moment) (p : DefaultAddrProc) (ip : Addr) : Option String :=
  if p.shouldResolve env ip && p.rdns.any (·.asks m.now ip) then some (m.exchange ip).host else none

/-- The info that is found when the servers are asked for it. -/
def foundInfo (m : Moment) (p : DefaultAddrProc) (ip : Addr) : Option WhoisInfo :=
  p.whois.bind fun w =>
    if w.asks env.isSpecialPurpose m.now ip then some (w.answer env.toLower m.net ip) else none

variable {env} {m : Moment} {p : DefaultAddrProc} {ip : Addr}

/-- A call never panics, and refuses an address only after a close or when the channel is full. -/
theorem process_cases (h : p.clientIPs.closed = p.isClosed) (ip : Addr) :
    (∃ ch : Chan Addr defaultQueueSize, p.process ip = some (true, { p with clientIPs := ch }) ∧
        ch.buf = p.clientIPs.buf ++ [ip] ∧ ch.closed = p.clientIPs.closed ∧ p.isClosed = false) ∨
      (p.process ip = some (false, p) ∧ (p.isClosed = true ∨ p.clientIPs.buf.length = defaultQueueSize)) := by
  unfold process
  cases hclosed : p.isClosed with
  | true => exact .inr ⟨rfl, .inl rfl⟩
  | false =>
    have hopen : p.clientIPs.closed = false := h.trans hclosed
    cases hsend : p.clientIPs.send ip with
    | some ch =>
      obtain ⟨hbuf, hch, -⟩ := Chan.send_eq_some hsend
      exact .inl ⟨ch, by simp [hopen], hbuf, hch.trans hopen.symm, rfl⟩
    | none =>
      have hfull := mt (@Chan.send_isSome _ _ p.clientIPs ip hopen).2 (by simp [hsend])
      exact .inr ⟨by simp [hopen], .inr (Nat.le_antisymm p.clientIPs.length_le (not_lt.1 hfull))⟩

theorem rdns_process {b : Bool} {p' : DefaultAddrProc} (h : p.process ip = some (b, p')) :
    p'.rdns = p.rdns ∧ p'.whois = p.whois := by
  unfold process at h
  split at h
  · cases h
    exact ⟨rfl, rfl⟩
  · split at h
    · cases h
    · split at h <;> cases h <;> exact ⟨rfl, rfl⟩

theorem rdns_close {err : Option String} {p' : DefaultAddrProc} (h : p.close = some (err, p')) :
    p'.rdns = p.rdns ∧ p'.whois = p.whois := by
  unfold close at h
  split at h
  · cases h
    exact ⟨rfl, rfl⟩
  · split at h <;> cases h
    exact ⟨rfl, rfl⟩

theorem processRDNS_keeps : (p.processRDNS env m ip).2.clientIPs = p.clientIPs ∧
    (p.processRDNS env m ip).2.isClosed = p.isClosed ∧ (p.processRDNS env m ip).2.whois = p.whois := by
  unfold processRDNS
  split
  · exact ⟨rfl, rfl, rfl⟩
  · split <;> exact ⟨rfl, rfl, rfl⟩

theorem processWHOIS_keeps : (p.processWHOIS env m ip).2.clientIPs = p.clientIPs ∧
    (p.processWHOIS env m ip).2.isClosed = p.isClosed ∧ (p.processWHOIS env m ip).2.rdns = p.rdns := by
  unfold processWHOIS
  split <;> exact ⟨rfl, rfl, rfl⟩

/-- The name in the cache. -/
def cachedName (p : DefaultAddrProc) (ip : Addr) : Option String := p.rdns.bind (·.cached ip)

/-- The info in the cache. -/
def cachedInfo (p : DefaultAddrProc) (ip : Addr) : Option WhoisInfo := p.whois.bind (·.cached ip)

/-- What is found goes into the cache, and it is passed on if it is news. -/
theorem processRDNS_cases (env : AddrProcEnv) (m : Moment) (p : DefaultAddrProc) (ip : Addr) :
    (p.foundName env m ip = none ∧ (p.processRDNS env m ip).1 = "" ∧
        (p.processRDNS env m ip).2.cachedName = p.cachedName) ∨
      ∃ name, p.foundName env m ip = some name ∧
        (p.processRDNS env m ip).1 = (if News.IsNews "" (p.cachedName ip) name then name else "") ∧
        ∀ ip', (p.processRDNS env m ip).2.cachedName ip' = if ip' = ip then some name else p.cachedName ip' := by
  unfold foundName processRDNS cachedName
  cases hresolve : p.shouldResolve env ip with
  | false => exact .inl ⟨rfl, rfl, rfl⟩
  | true =>
    cases hrdns : p.rdns with
    | none => exact .inl ⟨rfl, rfl, by simp [hrdns]⟩
    | some r =>
      rcases @Rdns.Default.process_cases m.now m.stored m.exchange r ip with
        ⟨hasks, hsame, hchanged⟩ | ⟨hasks, hcached, hnews⟩
      · refine .inl ⟨by simp [hasks], ?_, ?_⟩
        · simp [hchanged]
        · simp [hsame]
      · refine .inr ⟨(m.exchange ip).host, by simp [hasks], hnews, ?_⟩
        exact hcached

theorem processWHOIS_cases (env : AddrProcEnv) (m : Moment) (p : DefaultAddrProc) (ip : Addr) :
    (p.foundInfo env m ip = none ∧ (p.processWHOIS env m ip).1 = none ∧
        (p.processWHOIS env m ip).2.cachedInfo = p.cachedInfo) ∨
      ∃ info, p.foundInfo env m ip = some info ∧
        (p.processWHOIS env m ip).1 =
          (if News.IsNews Whois.emptyInfo (p.cachedInfo ip) info then some info else none) ∧
        ∀ ip', (p.processWHOIS env m ip).2.cachedInfo ip' = if ip' = ip then some info else p.cachedInfo ip' := by
  unfold foundInfo processWHOIS cachedInfo
  cases hwhois : p.whois with
  | none => exact .inl ⟨rfl, rfl, by simp [hwhois]⟩
  | some w =>
    rcases @Whois.Default.process_cases env.toLower env.isSpecialPurpose m.net m.now m.stored w ip with
      ⟨hasks, hsame, hchanged⟩ | ⟨hasks, hstored, hnews⟩
    · refine .inl ⟨by simp [hasks], ?_, ?_⟩
      · simp [hchanged]
      · simp [hsame]
    · refine .inr ⟨w.answer env.toLower m.net ip, by simp [hasks], hnews, fun ip' => ?_⟩
      dsimp only [Option.bind_some]
      rw [hstored, Whois.Default.cached_store]

end DefaultAddrProc

/-! ## The goroutine -/

/-- Where the goroutine of `process` is. -/
inductive Goroutine
  | receiving
  /-- At `processRDNS`. -/
  | resolving (ip : Addr)
  /-- At `processWHOIS`. -/
  | querying (ip : Addr) (host : String)
  /-- At `UpdateAddress`. -/
  | updating (ip : Addr) (host : String) (info : Option WhoisInfo)
  | finished

/-- The address that the goroutine has received and not updated yet. -/
def Goroutine.inHand : Goroutine → Option Addr
  | .receiving => none
  | .resolving ip => some ip
  | .querying ip _ => some ip
  | .updating ip _ _ => some ip
  | .finished => none

/-- The operation is that of the processor. -/
def RuntimeStorage.Op.isUpdateAddress : RuntimeStorage.Op → Bool
  | .updateAddress .. => true
  | _ => false

/-- The steps of the parties, in any order: the callers of the processor, its goroutine, the caches, and those that
change the storage for other reasons. -/
inductive Act
  | process (ip : Addr)
  | close
  | receive
  | resolve (m : Moment)
  | query (m : Moment)
  /-- With the persistent clients of the moment. -/
  | update (index : Index)
  | loseName (ip : Addr)
  | loseInfo (ip : Addr)
  | other (op : RuntimeStorage.Op) (h : op.isUpdateAddress = false)

/-- The step does not find a persistent client with the address. -/
def Act.Unclaimed (ip : Addr) : Act → Prop
  | .update index => index.findByIP ip = none
  | _ => True

/-- The processor, its goroutine and the storage, and what was done so far. -/
structure Processing where
  proc : DefaultAddrProc
  goroutine : Goroutine
  storage : RuntimeStorage
  /-- The addresses that were queued. -/
  accepted : List Addr
  updated : List Addr
  /-- The names that the exchanger was asked for. -/
  names : List (Addr × String)
  /-- The infos that the servers were asked for. -/
  infos : List (Addr × WhoisInfo)
  panicked : Bool

namespace Processing

def start (c : DefaultAddrProcConfig) : Processing := ⟨.new c, .receiving, .new, [], [], [], [], false⟩

variable (env : AddrProcEnv) (runtimeSourceDHCP : Bool)

/-- The step of a party; the goroutine waits when it is not at this step. -/
def step (s : Processing) : Act → Processing
  | .process ip =>
    match s.proc.process ip with
    | none => { s with panicked := true }
    | some (true, p) => { s with proc := p, accepted := s.accepted ++ [ip] }
    | some (false, p) => { s with proc := p }
  | .close =>
    match s.proc.close with
    | none => { s with panicked := true }
    | some (_, p) => { s with proc := p }
  | .receive =>
    match s.goroutine with
    | .receiving =>
      match s.proc.clientIPs.recv with
      | none => s
      | some (none, ch) => { s with proc := { s.proc with clientIPs := ch }, goroutine := .finished }
      | some (some ip, ch) => { s with proc := { s.proc with clientIPs := ch }, goroutine := .resolving ip }
    | _ => s
  | .resolve m =>
    match s.goroutine with
    | .resolving ip =>
      let (host, p) := s.proc.processRDNS env m ip
      { s with
        proc := p, goroutine := .querying ip host,
        names := s.names ++ ((s.proc.foundName env m ip).map fun name => (ip, name)).toList }
    | _ => s
  | .query m =>
    match s.goroutine with
    | .querying ip host =>
      let (info, p) := s.proc.processWHOIS env m ip
      { s with
        proc := p, goroutine := .updating ip host info,
        infos := s.infos ++ ((s.proc.foundInfo env m ip).map fun info => (ip, info)).toList }
    | _ => s
  | .update index =>
    match s.goroutine with
    | .updating ip host info =>
      { s with
        storage := s.storage.updateAddress index ip host info, goroutine := .receiving,
        updated := s.updated ++ [ip] }
    | _ => s
  | .loseName ip =>
    { s with proc := { s.proc with rdns := s.proc.rdns.map fun r => { r with cache := r.cache.del ip } } }
  | .loseInfo ip =>
    { s with proc := { s.proc with whois := s.proc.whois.map fun w => { w with cache := w.cache.del ip } } }
  | .other op _ => { s with storage := s.storage.step runtimeSourceDHCP op }

variable {env runtimeSourceDHCP} {s : Processing}

/-! ## No address is lost -/

/-- The accepted addresses are those that were updated, the one in hand and those that wait. -/
structure Ordered (s : Processing) : Prop where
  sound : s.panicked = false
  closed : s.proc.clientIPs.closed = s.proc.isClosed
  accepted : s.accepted = s.updated ++ s.goroutine.inHand.toList ++ s.proc.clientIPs.buf
  finished : s.goroutine = .finished → s.proc.isClosed = true ∧ s.proc.clientIPs.buf = []

theorem ordered_start (c : DefaultAddrProcConfig) : (start c).Ordered := ⟨rfl, rfl, rfl, nofun⟩

theorem Ordered.step (h : s.Ordered) (a : Act) : (s.step env runtimeSourceDHCP a).Ordered := by
  cases a with
  | process ip =>
    unfold Processing.step
    rcases DefaultAddrProc.process_cases h.closed ip with ⟨ch, hprocess, hbuf, hclosed, hopen⟩ | ⟨hprocess, -⟩
    · simp only [hprocess]
      refine ⟨h.sound, hclosed.trans h.closed, ?_, fun hfin => ?_⟩
      · simp only [hbuf, h.accepted, List.append_assoc]
      · rw [(h.finished hfin).1] at hopen
        cases hopen
    · simp only [hprocess]
      exact ⟨h.sound, h.closed, h.accepted, h.finished⟩
  | close =>
    unfold Processing.step DefaultAddrProc.close
    cases hclosed : s.proc.isClosed with
    | true => exact ⟨h.sound, h.closed, h.accepted, h.finished⟩
    | false =>
      have hopen : s.proc.clientIPs.closed = false := h.closed.trans hclosed
      simp only [hopen, Bool.false_eq_true, if_false]
      exact ⟨h.sound, rfl, h.accepted, fun hfin => ⟨rfl, (h.finished hfin).2⟩⟩
  | receive =>
    unfold Processing.step
    have haccepted := h.accepted
    cases hat : s.goroutine with
    | receiving =>
      rw [hat] at haccepted
      dsimp only
      cases hrecv : s.proc.clientIPs.recv with
      | none => exact h
      | some result =>
        obtain ⟨_ | ip, ch⟩ := result
        · obtain ⟨hempty, hclosed, rfl⟩ := Chan.recv_eq_some_none hrecv
          exact ⟨h.sound, h.closed, haccepted, fun _ => ⟨h.closed.symm.trans hclosed, hempty⟩⟩
        · obtain ⟨hbuf, hclosed⟩ := Chan.recv_eq_some_some hrecv
          refine ⟨h.sound, hclosed.trans h.closed, ?_, nofun⟩
          rw [haccepted, hbuf]
          simp [Goroutine.inHand]
    | _ => exact h
  | resolve m =>
    unfold Processing.step
    have haccepted := h.accepted
    cases hat : s.goroutine with
    | resolving ip =>
      obtain ⟨hips, hclosed, -⟩ := @DefaultAddrProc.processRDNS_keeps env m s.proc ip
      rw [hat, ← hips] at haccepted
      exact ⟨h.sound, (congrArg Chan.closed hips).trans (h.closed.trans hclosed.symm), haccepted, nofun⟩
    | _ => exact h
  | query m =>
    unfold Processing.step
    have haccepted := h.accepted
    cases hat : s.goroutine with
    | querying ip host =>
      obtain ⟨hips, hclosed, -⟩ := @DefaultAddrProc.processWHOIS_keeps env m s.proc ip
      rw [hat, ← hips] at haccepted
      exact ⟨h.sound, (congrArg Chan.closed hips).trans (h.closed.trans hclosed.symm), haccepted, nofun⟩
    | _ => exact h
  | update index =>
    unfold Processing.step
    have haccepted := h.accepted
    cases hat : s.goroutine with
    | updating ip host info =>
      rw [hat] at haccepted
      refine ⟨h.sound, h.closed, ?_, nofun⟩
      simpa [Goroutine.inHand] using haccepted
    | _ => exact h
  | loseName ip => exact ⟨h.sound, h.closed, h.accepted, h.finished⟩
  | loseInfo ip => exact ⟨h.sound, h.closed, h.accepted, h.finished⟩
  | other op hop => exact ⟨h.sound, h.closed, h.accepted, h.finished⟩

theorem ordered_run (c : DefaultAddrProcConfig) (acts : List Act) :
    (run (step env runtimeSourceDHCP) (start c) acts).Ordered :=
  run_invariant (fun _ a h => h.step a) (ordered_start c) acts

/-! ### The goroutine alone -/

/-- The steps of the goroutine up to the next address. -/
def round (m : Moment) (index : Index) : List Act := [.resolve m, .query m, .update index, .receive]

/-- What the goroutine has in hand is updated; the rest is as before. -/
theorem run_update (s : Processing) (m : Moment) (index : Index) :
    let t := run (step env runtimeSourceDHCP) s [.resolve m, .query m, .update index]
    t.goroutine = (if s.goroutine matches .finished then .finished else .receiving) ∧
      t.proc.clientIPs = s.proc.clientIPs ∧ t.accepted = s.accepted := by
  obtain ⟨p, goroutine, storage, accepted, updated, names, infos, panicked⟩ := s
  cases goroutine with
  | receiving => exact ⟨rfl, rfl, rfl⟩
  | finished => exact ⟨rfl, rfl, rfl⟩
  | updating ip host info => exact ⟨rfl, rfl, rfl⟩
  | querying ip host => exact ⟨rfl, (@DefaultAddrProc.processWHOIS_keeps env m p ip).1, rfl⟩
  | resolving ip =>
    have hips := (@DefaultAddrProc.processRDNS_keeps env m p ip).1
    have hips' := (@DefaultAddrProc.processWHOIS_keeps env m (p.processRDNS env m ip).2 ip).1
    exact ⟨rfl, hips'.trans hips, rfl⟩

/-- After a round the goroutine has the next address in hand, if there is one. -/
theorem run_round (h : s.Ordered) (m : Moment) (index : Index) :
    let t := run (step env runtimeSourceDHCP) s (round m index)
    t.accepted = s.accepted ∧ t.proc.clientIPs.buf = s.proc.clientIPs.buf.tail ∧
      (s.proc.clientIPs.buf = [] → t.goroutine.inHand = none) := by
  have hrun := @run_append _ _ (step env runtimeSourceDHCP) s [.resolve m, .query m, .update index] [.receive]
  obtain ⟨hat, hips, haccepted⟩ := @run_update env runtimeSourceDHCP s m index
  intro t
  have ht : t = (run (step env runtimeSourceDHCP) s [.resolve m, .query m, .update index]).step env runtimeSourceDHCP
      .receive := hrun
  generalize run (step env runtimeSourceDHCP) s [.resolve m, .query m, .update index] = u at ht hat hips haccepted
  rw [ht, ← hips, ← haccepted]
  unfold step
  by_cases hfin : s.goroutine = .finished
  · rw [hfin] at hat
    have hbuf := (h.finished hfin).2
    rw [← hips] at hbuf
    simp [hat, hbuf, Goroutine.inHand]
  · have hreceiving : u.goroutine = .receiving := by
      rw [hat]
      cases hs : s.goroutine <;> first | rfl | exact absurd hs hfin
    rw [hreceiving]
    dsimp only
    cases hrecv : u.proc.clientIPs.recv with
    | none =>
      have hempty := Chan.buf_of_recv_none hrecv
      exact ⟨rfl, by rw [hempty]; rfl, fun _ => by rw [hreceiving]; rfl⟩
    | some result =>
      obtain ⟨_ | ip, ch⟩ := result
      · obtain ⟨hempty, -, rfl⟩ := Chan.recv_eq_some_none hrecv
        exact ⟨rfl, by rw [hempty]; rfl, fun _ => rfl⟩
      · obtain ⟨hbuf, -⟩ := Chan.recv_eq_some_some hrecv
        rw [hbuf]
        exact ⟨rfl, rfl, nofun⟩

/-- Enough rounds update everything that was accepted. -/
theorem run_rounds (h : s.Ordered) (m : Moment) (index : Index) {n : ℕ} (hn : s.proc.clientIPs.buf.length < n) :
    (run (step env runtimeSourceDHCP) s (List.replicate n (round m index)).flatten).updated = s.accepted := by
  induction n generalizing s with
  | zero => exact absurd hn (Nat.not_lt_zero _)
  | succ n ih =>
    obtain ⟨haccepted, hbuf, hlast⟩ := run_round h m index
    have hnext : (run (step env runtimeSourceDHCP) s (round m index)).Ordered :=
      run_invariant (fun _ a h => h.step a) h _
    rw [List.replicate_succ, List.flatten_cons, run_append, ← haccepted]
    cases n with
    | zero =>
      have hempty : s.proc.clientIPs.buf = [] := List.length_eq_zero_iff.1 (Nat.lt_one_iff.1 hn)
      have hall := hnext.accepted
      rw [hlast hempty, hbuf, hempty, Option.toList_none, List.tail_nil, List.append_nil, List.append_nil] at hall
      exact hall.symm
    | succ n =>
      refine ih hnext ?_
      rw [hbuf, List.length_tail]
      omega

/-- In every interleaving the channel is neither closed twice nor used after that, the addresses are updated in the
order in which they were queued, and none is lost: each of them was updated, is in hand or waits, and the goroutine alone
updates the rest in a round for each of them.  A call refuses an address only after a close or when the channel is full. -/
theorem processed_run (c : DefaultAddrProcConfig) (acts : List Act) :
    let s := run (step env runtimeSourceDHCP) (start c) acts
    s.panicked = false ∧
      s.accepted = s.updated ++ s.goroutine.inHand.toList ++ s.proc.clientIPs.buf ∧
      (s.goroutine = .finished → s.updated = s.accepted) ∧
      (∀ m index n, s.proc.clientIPs.buf.length < n →
        (run (step env runtimeSourceDHCP) s (List.replicate n (round m index)).flatten).updated = s.accepted) ∧
      ∀ ip, (s.step env runtimeSourceDHCP (.process ip)).accepted = s.accepted ++ [ip] ∨
        s.proc.isClosed = true ∨ s.proc.clientIPs.buf.length = defaultQueueSize := by
  intro s
  have h : s.Ordered := ordered_run c acts
  refine ⟨h.sound, h.accepted, fun hfin => ?_, fun m index n hn => run_rounds h m index hn, fun ip => ?_⟩
  · rw [h.accepted, hfin, (h.finished hfin).2]
    simp [Goroutine.inHand]
  · rcases DefaultAddrProc.process_cases h.closed ip with ⟨ch, hprocess, -⟩ | ⟨-, hrefused⟩
    · refine .inl ?_
      simp only [step, hprocess]
    · exact .inr hrefused

/-! ## What the storage has -/

end Processing

namespace RuntimeStorage

theorem rdns_updateAddress (s : RuntimeStorage) (index : Index) (ip : Addr) (host : String) (info : Option WhoisInfo)
    (ip' : Addr) : (s.updateAddress index ip host info).runtimeIndex.names ip' .rdns =
      if ip' = ip ∧ host ≠ "" then some (Runtime.cleanHosts [host]) else s.runtimeIndex.names ip' .rdns := by
  have hhost : (if host ≠ "" then s.runtimeIndex.setInfo ip .rdns [host] else s.runtimeIndex).names ip' .rdns =
      if ip' = ip ∧ host ≠ "" then some (Runtime.cleanHosts [host]) else s.runtimeIndex.names ip' .rdns := by
    by_cases hblank : host = ""
    · simp [hblank]
    · simp [hblank, RuntimeIndex.names_setInfo _ _ _ (rfl : Source.rdns.hasNames = true)]
  have hwhois : ∀ (ri : RuntimeIndex) (info : WhoisInfo),
      (ri.modify ip fun rc => rc.setWHOIS info).names ip' .rdns = ri.names ip' .rdns := by
    intro ri info
    unfold RuntimeIndex.names
    rw [RuntimeIndex.client_modify]
    by_cases hip : ip' = ip
    · subst hip
      rw [if_pos rfl]
      exact RuntimeIndex.names_getD ri ip' .rdns
    · rw [if_neg hip]
  unfold updateAddress
  dsimp only
  split
  · exact hhost
  · split
    · exact hhost
    · exact (hwhois _ _).trans hhost

/-- A persistent client with the address keeps the info away. -/
theorem whois_updateAddress (s : RuntimeStorage) (index : Index) (ip : Addr) (host : String)
    (info : Option WhoisInfo) (ip' : Addr) (hindex : ip' = ip → index.findByIP ip = none) :
    (s.updateAddress index ip host info).runtimeIndex.whois ip' =
      if ip' = ip then info.or (s.runtimeIndex.whois ip') else s.runtimeIndex.whois ip' := by
  have hhost : (if host ≠ "" then s.runtimeIndex.setInfo ip .rdns [host] else s.runtimeIndex).whois ip' =
      s.runtimeIndex.whois ip' := by
    split
    · exact RuntimeIndex.whois_setInfo _ _ _ _ _
    · rfl
  unfold updateAddress
  dsimp only
  cases info with
  | none =>
    rw [Option.none_or, ite_self]
    exact hhost
  | some info =>
    dsimp only
    by_cases hip : ip' = ip
    · subst hip
      rw [hindex rfl]
      simp only [Option.isSome_none, Bool.false_eq_true, if_false, if_true, Option.some_or]
      unfold RuntimeIndex.whois
      rw [RuntimeIndex.client_modify, if_pos rfl]
      rfl
    · rw [if_neg hip, ← hhost]
      split
      · rfl
      · unfold RuntimeIndex.whois
        rw [RuntimeIndex.client_modify, if_neg hip]

/-- The other operations touch neither the names of reverse lookups nor the infos. -/
theorem keeps_step (runtimeSourceDHCP : Bool) (s : RuntimeStorage) {op : Op} (hop : op.isUpdateAddress = false)
    (ip : Addr) : (s.step runtimeSourceDHCP op).runtimeIndex.names ip .rdns = s.runtimeIndex.names ip .rdns ∧
      (s.step runtimeSourceDHCP op).runtimeIndex.whois ip = s.runtimeIndex.whois ip := by
  have hreload : ∀ {src : Source} (pairs : List (Addr × String)), src.hasNames = true → src ≠ .rdns →
      (reloadSource s.runtimeIndex src pairs).names ip .rdns = s.runtimeIndex.names ip .rdns ∧
        (reloadSource s.runtimeIndex src pairs).whois ip = s.runtimeIndex.whois ip := by
    intro src pairs hsrc hne
    have hrel := reloaded_reloadSource s.runtimeIndex hsrc pairs
    exact ⟨hrel.names ip .rdns hne.symm, hrel.whois ip⟩
  cases op with
  | reloadARP refreshed =>
    cases refreshed with
    | none => exact ⟨rfl, rfl⟩
    | some ns =>
      unfold step reloadARP addFromSystemARP
      dsimp only
      split
      · dsimp only
        split
        · exact ⟨rfl, rfl⟩
        · exact hreload _ rfl nofun
      · exact ⟨rfl, rfl⟩
  | hostsFile records => exact hreload _ rfl nofun
  | updateDHCP leases =>
    unfold step
    dsimp only
    split
    · exact hreload _ rfl nofun
    · exact ⟨rfl, rfl⟩
  | updateAddress index ip host info => cases hop
  | clientRuntime ip' host =>
    unfold step clientRuntime
    dsimp only
    split
    · exact ⟨rfl, rfl⟩
    · split
      · exact ⟨rfl, rfl⟩
      · split
        · exact ⟨rfl, rfl⟩
        · refine ⟨?_, RuntimeIndex.whois_setInfo _ _ _ _ _⟩
          rw [RuntimeIndex.names_setInfo _ _ _ rfl, if_neg fun h => nomatch h.2]

end RuntimeStorage

namespace Processing

variable {env : AddrProcEnv} {runtimeSourceDHCP : Bool} {s : Processing}

/-- What was found for an address. -/
def of {V : Type} (found : List (Addr × V)) (ip : Addr) : List V := (found.filter (·.1 = ip)).map Prod.snd

theorem of_concat {V : Type} (found : List (Addr × V)) (ip' ip : Addr) (v : V) :
    of (found ++ [(ip', v)]) ip = of found ip ++ if ip' = ip then [v] else [] := by
  unfold of
  rw [List.filter_append, List.map_append]
  by_cases h : ip' = ip <;> simp [h]

/-- The name that the storage has from reverse lookups, or is about to have. -/
def shownName (s : Processing) (ip : Addr) : Option String :=
  let stored := (s.storage.runtimeIndex.names ip .rdns).map (·.headD "")
  match s.goroutine with
  | .querying ip' host | .updating ip' host _ => if ip = ip' ∧ host ≠ "" then some host else stored
  | _ => stored

/-- The info that the storage has, or is about to have. -/
def shownInfo (s : Processing) (ip : Addr) : Option WhoisInfo :=
  let stored := s.storage.runtimeIndex.whois ip
  match s.goroutine with
  | .updating ip' _ info => if ip = ip' then info.or stored else stored
  | _ => stored

/-- The last name that was found is shown. -/
def NamesTracked (s : Processing) : Prop :=
  ∀ ip, News.Tracks "" (s.proc.cachedName ip) (s.shownName ip) (of s.names ip)

/-- The last info that was found for the address is shown. -/
def InfoTracked (ip : Addr) (s : Processing) : Prop :=
  News.Tracks Whois.emptyInfo (s.proc.cachedInfo ip) (s.shownInfo ip) (of s.infos ip)

/-- The caches, what is shown and what was found are the same. -/
structure Same (s t : Processing) : Prop where
  rdns : t.proc.rdns = s.proc.rdns
  whois : t.proc.whois = s.proc.whois
  shownName : t.shownName = s.shownName
  shownInfo : t.shownInfo = s.shownInfo
  names : t.names = s.names
  infos : t.infos = s.infos

theorem same_process (s : Processing) (ip : Addr) : s.Same (s.step env runtimeSourceDHCP (.process ip)) := by
  simp only [step]
  cases hprocess : s.proc.process ip with
  | none => exact ⟨rfl, rfl, rfl, rfl, rfl, rfl⟩
  | some res =>
    obtain ⟨queued, p⟩ := res
    obtain ⟨hrdns, hwhois⟩ := DefaultAddrProc.rdns_process hprocess
    cases queued <;> exact ⟨hrdns, hwhois, rfl, rfl, rfl, rfl⟩

theorem same_close (s : Processing) : s.Same (s.step env runtimeSourceDHCP .close) := by
  simp only [step]
  cases hclose : s.proc.close with
  | none => exact ⟨rfl, rfl, rfl, rfl, rfl, rfl⟩
  | some res =>
    obtain ⟨hrdns, hwhois⟩ := DefaultAddrProc.rdns_close hclose
    exact ⟨hrdns, hwhois, rfl, rfl, rfl, rfl⟩

theorem same_receive (s : Processing) : s.Same (s.step env runtimeSourceDHCP .receive) := by
  obtain ⟨p, goroutine, storage, accepted, updated, names, infos, panicked⟩ := s
  simp only [step]
  cases goroutine with
  | receiving =>
    cases p.clientIPs.recv with
    | none => exact ⟨rfl, rfl, rfl, rfl, rfl, rfl⟩
    | some result =>
      obtain ⟨_ | ip, ch⟩ := result <;> exact ⟨rfl, rfl, rfl, rfl, rfl, rfl⟩
  | _ => exact ⟨rfl, rfl, rfl, rfl, rfl, rfl⟩

theorem same_other (s : Processing) {op : RuntimeStorage.Op} (hop : op.isUpdateAddress = false) :
    s.Same (s.step env runtimeSourceDHCP (.other op hop)) := by
  have hkeeps := RuntimeStorage.keeps_step runtimeSourceDHCP s.storage hop
  refine ⟨rfl, rfl, funext fun ip => ?_, funext fun ip => ?_, rfl, rfl⟩
  · unfold shownName step
    dsimp only
    rw [(hkeeps ip).1]
  · unfold shownInfo step
    dsimp only
    rw [(hkeeps ip).2]

theorem NamesTracked.congr {t : Processing} (h : s.NamesTracked) (hcached : t.proc.cachedName = s.proc.cachedName)
    (hshown : t.shownName = s.shownName) (hnames : t.names = s.names) : t.NamesTracked := by
  intro ip
  rw [hcached, hshown, hnames]
  exact h ip

theorem NamesTracked.same {t : Processing} (h : s.NamesTracked) (hsame : s.Same t) : t.NamesTracked := by
  refine h.congr ?_ hsame.shownName hsame.names
  unfold DefaultAddrProc.cachedName
  rw [hsame.rdns]

/-- A name that is found goes into the cache, and to the update if it is news. -/
theorem NamesTracked.resolve (h : s.NamesTracked) (m : Moment) :
    (s.step env runtimeSourceDHCP (.resolve m)).NamesTracked := by
  simp only [step]
  cases hat : s.goroutine with
  | resolving ip =>
    intro ip'
    have hip := h ip'
    have hshown : s.shownName ip' = (s.storage.runtimeIndex.names ip' .rdns).map (·.headD "") := by
      simp [shownName, hat]
    rcases DefaultAddrProc.processRDNS_cases env m s.proc ip with
      ⟨hfound, hhost, hcached⟩ | ⟨name, hfound, hhost, hcached⟩
    · rw [hshown] at hip
      simpa [shownName, hhost, hfound, hcached] using hip
    · simp only [hfound, hcached, Option.map_some, Option.toList_some, of_concat]
      by_cases heq : ip' = ip
      · subst heq
        have hfind := hip.find name
        rw [hshown] at hfind
        rw [if_pos rfl, if_pos rfl]
        convert hfind using 1
        simp only [shownName, hhost]
        by_cases hnews : News.IsNews "" (s.proc.cachedName ip') name
        · simp [hnews, hnews.1]
        · simp [hnews]
      · rw [hshown] at hip
        simpa [shownName, heq, Ne.symm heq] using hip
  | _ => exact h

theorem NamesTracked.step (h : s.NamesTracked) (a : Act) : (s.step env runtimeSourceDHCP a).NamesTracked := by
  cases a with
  | process ip => exact h.same (same_process s ip)
  | close => exact h.same (same_close s)
  | receive => exact h.same (same_receive s)
  | resolve m => exact h.resolve m
  | query m =>
    simp only [Processing.step]
    cases hat : s.goroutine with
    | querying ip host =>
      refine h.congr ?_ (funext fun ip' => ?_) rfl
      · unfold DefaultAddrProc.cachedName
        rw [DefaultAddrProc.processWHOIS_keeps.2.2]
      · simp [shownName, hat]
    | _ => exact h
  | update index =>
    simp only [Processing.step]
    cases hat : s.goroutine with
    | updating ip host info =>
      refine h.congr rfl (funext fun ip' => ?_) rfl
      simp only [shownName, hat, RuntimeStorage.rdns_updateAddress]
      by_cases heq : ip' = ip ∧ host ≠ ""
      · rw [if_pos heq, if_pos heq, Option.map_some, Runtime.headD_cleanHosts]
      · rw [if_neg heq, if_neg heq]
    | _ => exact h
  | loseName ip =>
    intro ip'
    have hcached : (s.step env runtimeSourceDHCP (.loseName ip)).proc.cachedName ip' =
        if ip' = ip then none else s.proc.cachedName ip' := by
      unfold Processing.step DefaultAddrProc.cachedName
      cases s.proc.rdns with
      | none => simp
      | some r =>
        simp only [Option.map_some, Option.bind_some, Rdns.Default.cached, GoMap.get_del]
        split <;> rfl
    rw [hcached]
    split
    · exact (h ip').lose
    · exact h ip'
  | loseInfo ip => exact h
  | other op hop => exact h.same (same_other s hop)

theorem InfoTracked.congr {ip : Addr} {t : Processing} (h : s.InfoTracked ip)
    (hcached : t.proc.cachedInfo = s.proc.cachedInfo) (hshown : t.shownInfo = s.shownInfo)
    (hinfos : t.infos = s.infos) : t.InfoTracked ip := by
  unfold InfoTracked
  rw [hcached, hshown, hinfos]
  exact h

theorem InfoTracked.same {ip : Addr} {t : Processing} (h : s.InfoTracked ip) (hsame : s.Same t) : t.InfoTracked ip := by
  refine h.congr ?_ hsame.shownInfo hsame.infos
  unfold DefaultAddrProc.cachedInfo
  rw [hsame.whois]

/-- An info that is found goes into the cache, and to the update if it is news. -/
theorem InfoTracked.query {ip : Addr} (h : s.InfoTracked ip) (m : Moment) :
    (s.step env runtimeSourceDHCP (.query m)).InfoTracked ip := by
  simp only [step]
  cases hat : s.goroutine with
  | querying ip' host =>
    have hshown : s.shownInfo ip = s.storage.runtimeIndex.whois ip := by
      simp [shownInfo, hat]
    unfold InfoTracked at h ⊢
    rcases DefaultAddrProc.processWHOIS_cases env m s.proc ip' with
      ⟨hfound, hinfo, hcached⟩ | ⟨info, hfound, hinfo, hcached⟩
    · rw [hshown] at h
      simpa [shownInfo, hinfo, hfound, hcached] using h
    · simp only [hfound, hcached, Option.map_some, Option.toList_some, of_concat]
      by_cases heq : ip = ip'
      · subst heq
        have hfind := h.find info
        rw [hshown] at hfind
        rw [if_pos rfl, if_pos rfl]
        convert hfind using 1
        simp only [shownInfo, hinfo, if_true]
        split <;> rfl
      · rw [hshown] at h
        simpa [shownInfo, heq, Ne.symm heq] using h
  | _ => exact h

theorem InfoTracked.step {ip : Addr} (h : s.InfoTracked ip) {a : Act} (ha : a.Unclaimed ip) :
    (s.step env runtimeSourceDHCP a).InfoTracked ip := by
  cases a with
  | process ip' => exact h.same (same_process s ip')
  | close => exact h.same (same_close s)
  | receive => exact h.same (same_receive s)
  | resolve m =>
    simp only [Processing.step]
    cases hat : s.goroutine with
    | resolving ip' =>
      refine h.congr ?_ (funext fun ip' => ?_) rfl
      · unfold DefaultAddrProc.cachedInfo
        rw [DefaultAddrProc.processRDNS_keeps.2.2]
      · simp [shownInfo, hat]
    | _ => exact h
  | query m => exact h.query m
  | update index =>
    simp only [Processing.step]
    cases hat : s.goroutine with
    | updating ip' host info =>
      have hshown : s.shownInfo ip = if ip = ip' then info.or (s.storage.runtimeIndex.whois ip)
          else s.storage.runtimeIndex.whois ip := by
        simp [shownInfo, hat]
      unfold InfoTracked at h ⊢
      rw [hshown] at h
      have hindex : ip = ip' → index.findByIP ip' = none := fun heq => heq ▸ ha
      simp only [shownInfo]
      rw [RuntimeStorage.whois_updateAddress _ _ _ _ _ _ hindex]
      exact h
    | _ => exact h
  | loseName ip' => exact h
  | loseInfo ip' =>
    have hcached : (s.step env runtimeSourceDHCP (.loseInfo ip')).proc.cachedInfo ip =
        if ip = ip' then none else s.proc.cachedInfo ip := by
      simp only [Processing.step, DefaultAddrProc.cachedInfo]
      cases s.proc.whois with
      | none => simp
      | some w =>
        simp only [Option.map_some, Option.bind_some, Whois.Default.cached, GoMap.get_del]
        split <;> rfl
    unfold InfoTracked at h ⊢
    rw [hcached]
    split
    · exact h.lose
    · exact h
  | other op hop => exact h.same (same_other s hop)

theorem tracked_start (c : DefaultAddrProcConfig) (ip : Addr) :
    (start c).NamesTracked ∧ (start c).InfoTracked ip := by
  have hname : ∀ ip, (start c).proc.cachedName ip = none := by
    intro ip
    unfold start DefaultAddrProc.new DefaultAddrProc.cachedName
    cases c.useRDNS <;> rfl
  have hinfo : (start c).proc.cachedInfo ip = none := by
    unfold start DefaultAddrProc.new DefaultAddrProc.cachedInfo
    cases c.useWHOIS <;> rfl
  refine ⟨fun ip => ?_, ?_⟩
  · rw [hname]
    exact News.tracks_nil ""
  · unfold InfoTracked
    rw [hinfo]
    exact News.tracks_nil Whois.emptyInfo

/-- While the goroutine does not have the address in hand, the storage has the last name that the exchanger has found
for it, and if no persistent client had the address at an update, the last info that the WHOIS servers have found.
Neither the caches, which keep what has not changed from the storage, nor the reloads of other sources matter. -/
theorem shown_run (c : DefaultAddrProcConfig) (acts : List Act) (ip : Addr) :
    let s := run (step env runtimeSourceDHCP) (start c) acts
    s.goroutine.inHand ≠ some ip →
      (s.storage.runtimeIndex.names ip .rdns).map (·.headD "") = News.last "" (of s.names ip) ∧
      ((∀ a ∈ acts, a.Unclaimed ip) →
        s.storage.runtimeIndex.whois ip = News.last Whois.emptyInfo (of s.infos ip)) := by
  intro s hidle
  have hnames : s.NamesTracked := run_invariant (fun _ a h => h.step a) (tracked_start c ip).1 acts
  refine ⟨?_, fun hunclaimed => ?_⟩
  · rw [← (hnames ip).eq_last]
    unfold shownName
    cases hat : s.goroutine with
    | querying ip' host =>
      have hne : ip ≠ ip' := fun h => hidle (by rw [hat, h]; rfl)
      simp [hne]
    | updating ip' host info =>
      have hne : ip ≠ ip' := fun h => hidle (by rw [hat, h]; rfl)
      simp [hne]
    | _ => rfl
  · have hinfo : s.InfoTracked ip := run_invariant_of_meets (fun _ _ h ha => h.step ha) (tracked_start c ip).2
      (meets_of_forall (fun a ha _ => hunclaimed a ha) _)
    rw [← hinfo.eq_last]
    unfold shownInfo
    cases hat : s.goroutine with
    | updating ip' host info =>
      have hne : ip ≠ ip' := fun h => hidle (by rw [hat, h]; rfl)
      simp [hne]
    | _ => rfl

/-- No address is private or special. -/
def publicEnv : AddrProcEnv := ⟨fun _ => false, fun _ => false, id⟩

def resolver : Addr := .v4 0x08080808

/-- A moment at which a name and a city are found. -/
def oneMoment (now : ℤ) : Moment :=
  ⟨now, now, fun _ => ⟨"dns.google", 0, none⟩, fun _ _ => .ok (Whois.text "city: Oslo")⟩

/-- The resolver is looked up twice, for the second time when the caches have expired and nothing has changed. -/
def resolverActs (index : Index) : List Act :=
  [.process resolver, .process resolver, .receive] ++ round (oneMoment 0) index ++
    round (oneMoment (2 * defaultIPTTL)) Index.new

theorem shown_run_resolver :
    let s := run (step publicEnv false) (start ⟨true, true, true⟩) (resolverActs Index.new)
    (s.storage.runtimeIndex.names resolver .rdns).map (·.headD "") = some "dns.google" ∧
      s.storage.runtimeIndex.whois resolver = some ⟨"Oslo", "", ""⟩ := by
  intro s
  obtain ⟨hname, hinfo⟩ := @shown_run publicEnv false ⟨true, true, true⟩ (resolverActs Index.new) resolver
    (by decide +kernel)
  refine ⟨hname.trans (by decide +kernel), (hinfo fun a ha => ?_).trans (by decide +kernel)⟩
  simp only [resolverActs, round, List.mem_append, List.mem_cons, List.not_mem_nil, or_false] at ha
  rcases ha with ((rfl | rfl | rfl) | (rfl | rfl | rfl | rfl)) | (rfl | rfl | rfl | rfl) <;> trivial

/-- The clients of the index, one of which has the address of the resolver. -/
def claimed : Index := { Index.new with ipToUID := GoMap.empty.set resolver 0 }

/-- The info that is found while a persistent client has the address is not shown after the client is gone, although it
is found again. -/
theorem not_shown_claimed :
    ¬ ∀ c acts ip, (run (step publicEnv false) (start c) acts).goroutine.inHand ≠ some ip →
      (run (step publicEnv false) (start c) acts).storage.runtimeIndex.whois ip =
        News.last Whois.emptyInfo (of (run (step publicEnv false) (start c) acts).infos ip) := by
  intro h
  have hwhois := h ⟨true, true, true⟩ (resolverActs claimed) resolver (by decide +kernel)
  revert hwhois
  decide +kernel

end Processing

end AdGuardHome.Client
