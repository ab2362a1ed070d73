import AdGuardHome.Configmigrate.Yaml
import Mathlib.Algebra.Group.Int.Defs
import Mathlib.Algebra.Group.Nat.Defs

/-!
# The migrations of the configuration

One function for each schema version, and the migrator that runs those between two versions.  The files that the
first two remove are not a part of the document.
-/

namespace AdGuardHome.Configmigrate

open AdGuardHome.Lib

/-- The most recent schema version. -/
def lastSchemaVersion : ℕ := 34

/-- The document with another schema version. -/
def setVersion (n : ℤ) (m : Fields) : Fields := Fields.set m "schema_version" (.int n)

/-- A product of `int64` numbers. -/
def mul64 (a b : ℤ) : ℤ := (a * b).bmod (2 ^ 64)

/-- An hour in nanoseconds. -/
def hour : ℤ := 3600000000000

/-- A day in nanoseconds. -/
def day : ℤ := 24 * hour

/-! ## Versions 1 to 12 -/

def migrateTo1 (m : Fields) : Except Err Fields := .ok (setVersion 1 m)

def migrateTo2 (m : Fields) : Except Err Fields := onDoc (renameVal .any · "coredns" "dns") (setVersion 2 m)

def migrateTo3 (m : Fields) : Except Err Fields :=
  setVersion 3 m |> onObj "dns" fun dns => do
    match ← fieldVal .any dns "bootstrap_dns" with
    | none => .ok dns
    | some bootstrapDNS => put dns "bootstrap_dns" (.list [bootstrapDNS])

def migrateTo4 (m : Fields) : Except Err Fields :=
  setVersion 4 m |> onDoc (onArrAnyway "clients" fun _ =>
    onElemObj (put · "use_global_blocked_services" (.bool true)) .ok)

def migrateTo5 (env : Env) (m : Fields) : Except Err Fields := do
  let m := setVersion 5 m
  let (doc, user) ← moveVal .str (some m) [] "auth_name" "name"
  match ← strVal doc "auth_pass" with
  | none => .ok (doc.getD m)
  | some pass =>
    match env.generateFromPassword pass with
    | none => .error .passwordHash
    | some hash => do
      let doc ← put (drop doc "auth_pass") "users" (.list [.map (Fields.set user "password" (.str hash))])
      .ok (doc.getD m)

/-- The identifier of a client, if it has one. -/
def clientID (i : ℕ) (c : Obj) (id : String) : Except Err (List Val) :=
  match strVal c id with
  | .error err => .error (.client i err)
  | .ok val => .ok (if val.getD "" = "" then [] else [.str (val.getD "")])

def migrateTo6 (m : Fields) : Except Err Fields :=
  setVersion 6 m |> onDoc (onArr "clients" fun i => onElemObj (fun c => do
    let ip ← clientID i c "ip"
    let mac ← clientID i c "mac"
    put c "ids" (.list (ip ++ mac))) fun client => .error (.clientType i client.goType))

def dhcpv4Moves : List Move :=
  [⟨.str, "gateway_ip", "gateway_ip"⟩, ⟨.str, "subnet_mask", "subnet_mask"⟩, ⟨.str, "range_start", "range_start"⟩,
    ⟨.str, "range_end", "range_end"⟩, ⟨.int, "lease_duration", "lease_duration"⟩,
    ⟨.int, "icmp_timeout_msec", "icmp_timeout_msec"⟩]

def migrateTo7 (m : Fields) : Except Err Fields :=
  let m := setVersion 7 m
  match objVal (some m) "dhcp" with
  | .ok (some dhcp) => do
    let (dhcp, dhcpv4) ← moveAll dhcpv4Moves dhcp []
    let dhcp ← put dhcp "dhcpv4" (.map dhcpv4)
    .ok (store m "dhcp" dhcp)
  | _ => .ok m

def migrateTo8 (m : Fields) : Except Err Fields :=
  setVersion 8 m |> onObj "dns" fun dns => do
    match ← strVal dns "bind_host" with
    | none => .ok dns
    | some bindHost => put (drop dns "bind_host") "bind_hosts" (.list [.str bindHost])

def migrateTo9 (m : Fields) : Except Err Fields :=
  setVersion 9 m |> onObj "dns" (renameVal .str · "autohost_tld" "local_domain_name")

/-- `strings.Split` by a separator of two characters. -/
def splitSep (a b : Char) : List Char → List (List Char)
  | [] => [[]]
  | [c] => [[c]]
  | c :: d :: s =>
    if c = a ∧ d = b then [] :: splitSep a b s
    else
      match splitSep a b (d :: s) with
      | [] => [[c]]
      | p :: ps => (c :: p) :: ps

/-- The domains of an upstream, with their brackets, and the rest. -/
def cutDomains : List Char → Option (List Char × List Char)
  | '[' :: '/' :: after =>
    match splitSep '/' ']' after with
    | [doms, ups] => some (['[', '/'] ++ doms ++ ['/', ']'], ups)
    | _ => none
  | ups => some ([], ups)

/-- Inserts a port into a QUIC upstream's hostname if it is missing. -/
def addQUICPort (env : Env) (ups : String) (port : ℕ) : String :=
  if ups.toList.head? = none ∨ ups.toList.head? = some '#' then ups
  else
    match cutDomains ups.toList with
    | none => ups
    | some (doms, withPort) =>
      if ¬ withPort.tails.any fun s => [':', '/', '/'].isPrefixOf s then ups
      else
        match env.parseURL (String.ofList withPort) with
        | none => ups
        | some upsURL =>
          if upsURL.scheme ≠ "quic" ∨ env.splitHost upsURL.host ≠ some upsURL.host then ups
          else String.ofList doms ++ upsURL.withHost (upsURL.host ++ ":" ++ toString port)

def quicPort : ℕ := 784

/-- Inserts a port into each QUIC upstream's hostname of the list under the key. -/
def addQUICPorts (env : Env) (k : String) (dns : Obj) : Except Err Obj := do
  match ← fieldVal .arr dns k with
  | none => .ok dns
  | some ups => do
    let ups ← onElems (fun _ u =>
      if Ty.str.has u then .ok (.str (addQUICPort env u.toStr quicPort)) else .error (.upstreamType u.goType)) ups
    put dns k ups

def migrateTo10 (env : Env) (m : Fields) : Except Err Fields :=
  setVersion 10 m |> onObj "dns" fun dns => do
    let dns ← addQUICPorts env "upstream_dns" dns
    addQUICPorts env "local_ptr_upstreams" dns

def migrateTo11 (m : Fields) : Except Err Fields := do
  let m := setVersion 11 m
  let rlimit ← intVal (some m) "rlimit_nofile"
  let os := [("group", .str ""), ("rlimit_nofile", .int (rlimit.getD 0)), ("user", .str "")]
  .ok (Fields.set (Fields.del m "rlimit_nofile") "os" (.map os))

def migrateTo12 (m : Fields) : Except Err Fields :=
  setVersion 12 m |> onObj "dns" fun dns => do
    let qlogIvl ← intVal dns "querylog_interval"
    put dns "querylog_interval" (.dur (mul64 (qlogIvl.getD 90) day))

/-! ## Versions 13 to 22 -/

def migrateTo13 (m : Fields) : Except Err Fields := do
  let m := setVersion 13 m
  match ← objVal (some m) "dns" with
  | none => .ok m
  | some dns =>
    match ← objVal (some m) "dhcp" with
    | none => .ok m
    | some dhcp =>
      match ← fieldVal .str dns "local_domain_name" with
      | none => .ok m
      | some name => do
        let dhcp ← put dhcp "local_domain_name" name
        .ok (store (store m "dhcp" dhcp) "dns" (drop dns "local_domain_name"))

def runtimeClients : Fields :=
  [("whois", .bool true), ("arp", .bool true), ("rdns", .bool false), ("dhcp", .bool true), ("hosts", .bool true)]

def migrateTo14 (m : Fields) : Except Err Fields := do
  let m := setVersion 14 m
  let persistent ← fieldVal .arr (some m) "clients"
  let clients := fun runtimeSources =>
    Val.map [("persistent", persistent.getD (.list [])), ("runtime_sources", .map runtimeSources)]
  match ← objVal (some m) "dns" with
  | none => .ok (Fields.set m "clients" (clients runtimeClients))
  | some dns => do
    let (dns, runtimeSources) ← moveVal .bool dns runtimeClients "resolve_clients" "rdns"
    .ok (store (Fields.set m "clients" (clients runtimeSources)) "dns" dns)

def qlogDefaults : Fields :=
  [("ignored", .list []), ("enabled", .bool true), ("file_enabled", .bool true), ("interval", .str "2160h"),
    ("size_memory", .int 1000)]

def qlogMoves : List Move :=
  [⟨.bool, "querylog_enabled", "enabled"⟩, ⟨.bool, "querylog_file_enabled", "file_enabled"⟩,
    ⟨.any, "querylog_interval", "interval"⟩, ⟨.int, "querylog_size_memory", "size_memory"⟩]

def migrateTo15 (m : Fields) : Except Err Fields := do
  let m := setVersion 15 m
  match ← objVal (some m) "dns" with
  | none => .ok m
  | some dns => do
    let (dns, qlog) ← moveAll qlogMoves dns qlogDefaults
    .ok (store (Fields.set m "querylog" (.map qlog)) "dns" dns)

def statsDefaults : Fields := [("enabled", .bool true), ("interval", .int 1), ("ignored", .list [])]

def migrateTo16 (m : Fields) : Except Err Fields := do
  let m := setVersion 16 m
  match ← objVal (some m) "dns" with
  | none => .ok m
  | some dns =>
    match ← intVal dns "statistics_interval" with
    | none => .ok (Fields.set m "statistics" (.map statsDefaults))
    | some statsIvl =>
      let stats := if statsIvl = 0 then Fields.set statsDefaults "enabled" (.bool false)
        else Fields.set statsDefaults "interval" (.int statsIvl)
      .ok (store (Fields.set m "statistics" (.map stats)) "dns" (drop dns "statistics_interval"))

/-- A flag whose type does not matter. -/
def flag (o : Obj) (k : String) : Bool :=
  match boolVal o k with
  | .ok b => b.getD false
  | .error _ => false

def migrateTo17 (m : Fields) : Except Err Fields :=
  setVersion 17 m |> onObj "dns" fun dns =>
    put dns "edns_client_subnet"
      (.map [("enabled", .bool (flag dns "edns_client_subnet")), ("use_custom", .bool false), ("custom_ip", .str "")])

def safeSearch : Fields :=
  [("enabled", .bool true), ("bing", .bool true), ("duckduckgo", .bool true), ("google", .bool true),
    ("pixabay", .bool true), ("yandex", .bool true), ("youtube", .bool true)]

def migrateTo18 (m : Fields) : Except Err Fields :=
  setVersion 18 m |> onObj "dns" fun dns => do
    let dns ← put dns "safe_search" (.map safeSearch)
    let (dns, safeSearch) ← moveVal .bool dns safeSearch "safesearch_enabled" "enabled"
    put dns "safe_search" (.map safeSearch)

/-- The safe search of a client; an error is only logged. -/
def clientSafeSearch (c : Obj) : Except Err Obj :=
  match moveVal .bool c safeSearch "safesearch_enabled" "enabled" with
  | .ok (c, safeSearch) => put c "safe_search" (.map safeSearch)
  | .error _ => put c "safe_search" (.map safeSearch)

def migrateTo19 (m : Fields) : Except Err Fields :=
  setVersion 19 m |> onObj "clients" (onArrAnyway "persistent" fun _ => onElemObj clientSafeSearch .ok)

def migrateTo20 (m : Fields) : Except Err Fields :=
  setVersion 20 m |> onObj "statistics" fun stats => do
    let ivl ← intVal stats "interval"
    let ivl := if ivl.getD 0 = 0 then 1 else ivl.getD 0
    put stats "interval" (.dur (mul64 ivl day))

def schedule : Val := .map [("time_zone", .str "Local")]

def migrateTo21 (m : Fields) : Except Err Fields :=
  setVersion 21 m |> onObj "dns" fun dns => do
    let (dns, svcs) ← moveVal .arr dns [("schedule", schedule)] "blocked_services" "ids"
    put dns "blocked_services" (.map svcs)

/-- The blocked services of a client. -/
def clientServices (i : ℕ) (c : Obj) : Except Err Obj :=
  match fieldVal .arr c "blocked_services" with
  | .error err => .error (.persistent i err)
  | .ok none => .ok c
  | .ok (some services) => put c "blocked_services" (.map [("ids", services), ("schedule", schedule)])

def migrateTo22 (m : Fields) : Except Err Fields :=
  setVersion 22 m |> onObj "clients" (onArr "persistent" fun i =>
    onElemObj (clientServices i) fun p => .error (.persistentType i p.goType))

/-! ## Versions 23 to 34 -/

def migrateTo23 (env : Env) (m : Fields) : Except Err Fields := do
  let m := setVersion 23 m
  match ← strVal (some m) "bind_host" with
  | none => .ok m
  | some bindHost =>
    match env.parseAddr bindHost with
    | none => .error (.bindHost bindHost)
    | some addrPort => do
      let bindPort ← intVal (some m) "bind_port"
      let sessionTTL ← intVal (some m) "web_session_ttl"
      let http := [("address", .str (addrPort (bindPort.getD 0 % 2 ^ 16).toNat)),
        ("session_ttl", .str (env.durationString (mul64 (sessionTTL.getD 0) hour)))]
      let m := Fields.set m "http" (.map http)
      .ok (Fields.del (Fields.del (Fields.del m "bind_host") "bind_port") "web_session_ttl")

def logMoves : List Move :=
  [⟨.str, "log_file", "file"⟩, ⟨.int, "log_max_backups", "max_backups"⟩, ⟨.int, "log_max_size", "max_size"⟩,
    ⟨.int, "log_max_age", "max_age"⟩, ⟨.bool, "log_compress", "compress"⟩, ⟨.bool, "log_localtime", "local_time"⟩,
    ⟨.bool, "verbose", "verbose"⟩]

/-- The document with an object, unless that is empty. -/
def setNonempty (m : Fields) (k : String) (obj : Fields) : Fields :=
  if obj.isEmpty then m else Fields.set m k (.map obj)

def migrateTo24 (m : Fields) : Except Err Fields := do
  let m := setVersion 24 m
  let (doc, log) ← moveAll logMoves (some m) []
  .ok (setNonempty (doc.getD m) "log" log)

def migrateTo25 (m : Fields) : Except Err Fields := do
  let m := setVersion 25 m
  match ← objVal (some m) "http" with
  | none => .ok m
  | some http => do
    let (doc, pprof) ← moveVal .bool (some m) [("enabled", .bool false), ("port", .int 6060)] "debug_pprof" "enabled"
    let http ← put http "pprof" (.map pprof)
    .ok (store (doc.getD m) "http" http)

def filteringMoves : List Move :=
  [⟨.bool, "filtering_enabled", "filtering_enabled"⟩, ⟨.int, "filters_update_interval", "filters_update_interval"⟩,
    ⟨.bool, "parental_enabled", "parental_enabled"⟩, ⟨.bool, "safebrowsing_enabled", "safebrowsing_enabled"⟩,
    ⟨.int, "safebrowsing_cache_size", "safebrowsing_cache_size"⟩,
    ⟨.int, "safesearch_cache_size", "safesearch_cache_size"⟩, ⟨.int, "parental_cache_size", "parental_cache_size"⟩,
    ⟨.obj, "safe_search", "safe_search"⟩, ⟨.arr, "rewrites", "rewrites"⟩,
    ⟨.obj, "blocked_services", "blocked_services"⟩, ⟨.bool, "protection_enabled", "protection_enabled"⟩,
    ⟨.str, "blocking_mode", "blocking_mode"⟩, ⟨.str, "blocking_ipv4", "blocking_ipv4"⟩,
    ⟨.str, "blocking_ipv6", "blocking_ipv6"⟩, ⟨.int, "blocked_response_ttl", "blocked_response_ttl"⟩,
    ⟨.any, "protection_disabled_until", "protection_disabled_until"⟩,
    ⟨.str, "parental_block_host", "parental_block_host"⟩,
    ⟨.str, "safebrowsing_block_host", "safebrowsing_block_host"⟩]

def migrateTo26 (m : Fields) : Except Err Fields := do
  let m := setVersion 26 m
  match ← objVal (some m) "dns" with
  | none => .ok m
  | some dns => do
    let (dns, filtering) ← moveAll filteringMoves dns []
    .ok (setNonempty (store m "dns" dns) "filtering" filtering)

/-- The rule for the root domain in place of the dot. -/
def rootRule (host : Val) : Val := if Ty.str.has host ∧ host.toStr = "." then .str "|.^" else host

/-- Replaces the dots among the ignored hosts of the object under the key. -/
def replaceDot (key : String) (m : Fields) : Except Err Fields :=
  m |> onObj key (onArr "ignored" fun _ host => .ok (rootRule host))

def migrateTo27 (m : Fields) : Except Err Fields := do
  let m ← replaceDot "querylog" (setVersion 27 m)
  replaceDot "statistics" m

def migrateTo28 (m : Fields) : Except Err Fields :=
  setVersion 28 m |> onObj "dns" fun dns => do
    let mode := if flag dns "all_servers" then UpstreamMode.parallel
      else if flag dns "fastest_addr" then .fastestAddr else .loadBalance
    let dns ← put dns "upstream_mode" (.mode mode)
    .ok (drop (drop dns "all_servers") "fastest_addr")

/-- The path of a filter whose URL is an absolute path. -/
def filterPath (env : Env) (i : ℕ) (v : Val) : Except Err (Option String) :=
  match v.assertObj with
  | none => .error (.filterType i v.goType)
  | some f =>
    match strVal f "url" with
    | .ok (some u) => .ok (if env.isAbs u then some u else none)
    | _ => .ok none

def migrateTo29 (env : Env) (m : Fields) : Except Err Fields := do
  let m := setVersion 29 m
  match ← fieldVal .arr (some m) "filters" with
  | none => .ok m
  | some filters => do
    let paths ← mapIdxM (filterPath env) 0 filters.toList
    let paths := env.join [env.dataDir, "userfilters", "*"] :: paths.reduceOption
    m |> onObj "filtering" fun fltConf => put fltConf "safe_fs_patterns" (.strs paths)

def migrateTo30 (m : Fields) : Except Err Fields :=
  setVersion 30 m |> onObj "dns" fun dnsConf => do
    match ← intVal dnsConf "cache_size" with
    | none => .ok dnsConf
    | some cacheSize => put dnsConf "cache_enabled" (.bool (cacheSize > 0))

def migrateTo31 (m : Fields) : Except Err Fields :=
  setVersion 31 m |> onObj "filtering" (onArr "rewrites" fun _ => onElemObj (put · "enabled" (.bool true)) .ok)

def migrateTo32 (m : Fields) : Except Err Fields :=
  setVersion 32 m |> onObj "dns" fun dnsConf => do
    let dnsConf ← put dnsConf "cache_optimistic_answer_ttl" (.str "30s")
    put dnsConf "cache_optimistic_max_age" (.str "12h")

/-- Sets whether the ignored hosts under the key are enabled; none if the object or its hosts are not there. -/
def setIgnoredEnabled (k : String) (m : Fields) : Except Err (Option Fields) := do
  match ← objVal (some m) k with
  | none => .ok none
  | some conf =>
    match ← fieldVal .arr conf "ignored" with
    | none => .ok none
    | some ignored => do
      let conf ← put conf "ignored_enabled" (.bool (ignored.toList.length > 0))
      .ok (some (store m k conf))

def migrateTo33 (m : Fields) : Except Err Fields := do
  let m := setVersion 33 m
  match ← setIgnoredEnabled "querylog" m with
  | none => .ok m
  | some m => do
    let m' ← setIgnoredEnabled "statistics" m
    .ok (m'.getD m)

def dohDefaults : Fields :=
  [("routes", .list [.str "GET /dns-query", .str "POST /dns-query", .str "GET /dns-query/\x7bClientID\x7d",
    .str "POST /dns-query/\x7bClientID\x7d"])]

def migrateTo34 (m : Fields) : Except Err Fields := do
  let m := setVersion 34 m
  match ← objVal (some m) "http" with
  | none => .ok m
  | some http =>
    match ← objVal (some m) "tls" with
    | none => .ok m
    | some tls => do
      let http ← put http "doh" (.map dohDefaults)
      let (tls, doh) ← moveVal .bool tls dohDefaults "allow_unencrypted_doh" "insecure_enabled"
      let http ← put http "doh" (.map doh)
      .ok (store (store m "http" http) "tls" tls)

/-! ## The migrator -/

/-- The migrations by the version that they migrate from. -/
def upgrades (env : Env) : List (Fields → Except Err Fields) :=
  [migrateTo1, migrateTo2, migrateTo3, migrateTo4, migrateTo5 env, migrateTo6, migrateTo7, migrateTo8, migrateTo9,
    migrateTo10 env, migrateTo11, migrateTo12, migrateTo13, migrateTo14, migrateTo15, migrateTo16, migrateTo17,
    migrateTo18, migrateTo19, migrateTo20, migrateTo21, migrateTo22, migrateTo23 env, migrateTo24, migrateTo25,
    migrateTo26, migrateTo27, migrateTo28, migrateTo29 env, migrateTo30, migrateTo31, migrateTo32, migrateTo33,
    migrateTo34]

/-- Runs the migrations one after another, the first of them from the version `cur`. -/
def runUpgrades : ℕ → List (Fields → Except Err Fields) → Fields → Except Err Fields
  | _, [], m => .ok m
  | cur, migrate :: rest, m =>
    match migrate m with
    | .error err => .error (.migrating cur (cur + 1) err)
    | .ok m => runUpgrades (cur + 1) rest m

/-- Upgrades the document from the current to the target version. -/
def upgradeConfigSchema (env : Env) (current target : ℕ) (diskConf : Fields) : Except Err Fields :=
  runUpgrades current (((upgrades env).take target).drop current) diskConf

/-- The version of a document as a `uint`. -/
def schemaVersion (diskConf : Fields) : Except Err ℕ := do
  let current ← intVal (some diskConf) "schema_version"
  .ok (current.getD 0 % 2 ^ 64).toNat

/-- Upgrades the document to the target version, and returns whether it was upgraded. -/
def migrate (env : Env) (body : List (String × Yaml)) (target : ℕ) : Except Err (List (String × Yaml) × Bool) := do
  let diskConf := decodeFields body
  let current ← schemaVersion diskConf
  if target < current then .error (.unknownCurrent current)
  else if lastSchemaVersion < target then .error (.unknownTarget target)
  else if current = target then .ok (body, false)
  else do
    let diskConf ← upgradeConfigSchema env current target diskConf
    .ok (encodeFields env diskConf, true)

end AdGuardHome.Configmigrate
