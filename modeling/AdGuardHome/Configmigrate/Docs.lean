import Mathlib.Data.Set.Insert
import AdGuardHome.Configmigrate.Frames

/-!
# The documentation of the migrations

Each migration documents the keys of the document before it and after it.  A value that is not under a key named
before it stays where it is; a value under a key that is named goes where the documentation has it, as it is or
converted.  `Clear` is what a document must be like for a migration to do so.
-/

namespace AdGuardHome.Configmigrate

open AdGuardHome.Lib

/-! ## Documentation -/

/-- A value that is documented with another form: its path, its new path, and the new value, which may depend on the
rest of the document. -/
structure Conversion where
  src : Path
  dst : Path
  conv : Fields → Val → Val
  keeps : ∀ m v w, Kept v w → Kept (conv m v) (conv m w)

/-- What a documentation says of the keys that it names.  Keys that it has after the migration as they were before it
are left out: they are as good as not named. -/
structure Doc where
  /-- The values that have a new path, with everything in them. -/
  moved : Set (Path × Path) := ∅
  /-- The values that have a new form. -/
  converted : Set Conversion := ∅
  /-- The objects of which nothing is written before the migration, but which are there. -/
  sections : Set Path := ∅

/-- The paths with values written before the migration. -/
def Doc.before (d : Doc) : Set Path := {t | (∃ dst, (t, dst) ∈ d.moved) ∨ ∃ c ∈ d.converted, c.src = t}

/-- The documentation names the path, or something above or under it.  The schema version is named by all of them. -/
def Doc.Named (d : Doc) (p : Path) : Prop :=
  [.key "schema_version"] <+: p ∨ p ∈ d.sections ∨ ∃ t ∈ d.before, p <+: t ∨ t <+: p

/-- Where the documentation has the value at a path after the migration, and what it is there. -/
inductive Doc.Takes (d : Doc) (m : Fields) : Path → Val → Path → Val → Prop
  | stays (p : Path) (v : Val) : ¬ d.Named p → d.Takes m p v p v
  | moved (src dst q : Path) (v : Val) : (src, dst) ∈ d.moved → d.Takes m (src ++ q) v (dst ++ q) v
  | converted (c : Conversion) (v : Val) : c ∈ d.converted → d.Takes m c.src v c.dst (c.conv m v)

/-! ## Conversions -/

section conversions

variable {v w : Val}

theorem Kept.toStr (h : Kept v w) : v.toStr = w.toStr := by
  cases h <;> rfl

theorem Kept.toInt (h : Kept v w) : v.toInt = w.toInt := by
  cases h <;> rfl

/-- A change of a text; other values are left as they are. -/
def Val.mapStr (f : String → String) : Val → Val
  | .str s => .str (f s)
  | v => v

theorem Kept.mapStr (f : String → String) (h : Kept v w) : Kept (v.mapStr f) (w.mapStr f) := by
  cases h with
  | same => exact .same _
  | map m m' => exact .map m m'
  | list l l' hlen => exact .list l l' hlen

/-- The conversion of a text. -/
def ofStr (src dst : Path) (f : Fields → String → Val) : Conversion where
  src := src
  dst := dst
  conv m v := f m v.toStr
  keeps m v w h := by rw [h.toStr]; exact .same _

/-- The conversion of a number. -/
def ofInt (src dst : Path) (f : Fields → ℤ → Val) : Conversion where
  src := src
  dst := dst
  conv m v := f m v.toInt
  keeps m v w h := by rw [h.toInt]; exact .same _

/-- A value that comes from several ones. -/
def ofDoc (src dst : Path) (f : Fields → Val) : Conversion where
  src := src
  dst := dst
  conv m _ := f m
  keeps _ _ _ _ := .same _

/-- A change of a text in its place. -/
def inPlace (path : Path) (f : String → String) : Conversion where
  src := path
  dst := path
  conv _ v := v.mapStr f
  keeps _ _ _ h := h.mapStr f

end conversions

/-! ## The documentation of each migration -/

/-- The days of a number in nanoseconds. -/
def days (n : ℤ) : Val := .dur (n * day)

/-- The number under a key, zero without one. -/
def numberOf (m : Fields) (k : String) : ℤ := ((Fields.get m k).map Val.toInt).getD 0

/-- The address of the web interface. -/
def httpAddress (env : Env) (host : String) (port : ℤ) : Val :=
  .str (((env.parseAddr host).map fun addrPort => addrPort port.toNat).getD "")

/-- Whether a flag is set. -/
def IsOn (m : Fields) (p : Path) : Prop := (Fields.walk m p).map Val.toBool = some true

instance (m : Fields) (p : Path) : Decidable (IsOn m p) := inferInstanceAs (Decidable (_ = some true))

/-- The upstream mode of the two flags. -/
def modeOf (m : Fields) : Val :=
  .mode (if IsOn m ["dns", "all_servers"] then .parallel else if IsOn m ["dns", "fastest_addr"] then .fastestAddr
    else .loadBalance)

/-- The move of one value. -/
def move (src dst : Path) : Set (Path × Path) := {(src, dst)}

/-- The keys of an object that are documented under the same names in another one. -/
def sameKeys (src dst : Path) (keys : List String) : Set (Path × Path) :=
  {r | ∃ k ∈ keys, r ∈ move (src ++ [.key k]) (dst ++ [.key k])}

/-- The keys of an object that are documented under other names in another one. -/
def otherKeys (src dst : Path) (keys : List (String × String)) : Set (Path × Path) :=
  {r | ∃ k ∈ keys, r ∈ move (src ++ [.key k.1]) (dst ++ [.key k.2])}

/-- The keys of the DHCP server for IPv4, which version 7 has in an object of its own. -/
def dhcpv4Keys : List String :=
  ["gateway_ip", "subnet_mask", "range_start", "range_end", "lease_duration", "icmp_timeout_msec"]

/-- The keys of the query log before version 15 and from then on. -/
def qlogKeys : List (String × String) :=
  [("querylog_enabled", "enabled"), ("querylog_file_enabled", "file_enabled"), ("querylog_interval", "interval"),
    ("querylog_size_memory", "size_memory")]

/-- The keys of the log before version 24 and from then on. -/
def logKeys : List (String × String) :=
  [("log_file", "file"), ("log_max_backups", "max_backups"), ("log_max_size", "max_size"), ("log_max_age", "max_age"),
    ("log_compress", "compress"), ("log_localtime", "local_time"), ("verbose", "verbose")]

/-- The keys of the filtering, which version 26 has in a section of their own. -/
def filteringKeys : List String :=
  ["filtering_enabled", "filters_update_interval", "parental_enabled", "safebrowsing_enabled",
    "safebrowsing_cache_size", "safesearch_cache_size", "parental_cache_size", "safe_search", "rewrites",
    "blocked_services", "protection_enabled", "blocking_mode", "blocking_ipv4", "blocking_ipv6",
    "blocked_response_ttl", "protection_disabled_until", "parental_block_host", "safebrowsing_block_host"]

/-- The documentation of the migration to a version. -/
def doc (env : Env) : ℕ → Doc
  | 2 => { moved := move ["coredns"] ["dns"] }
  | 3 => { moved := move ["dns", "bootstrap_dns"] ["dns", "bootstrap_dns", .idx 0] }
  | 5 => {
      moved := move ["auth_name"] ["users", .idx 0, "name"]
      converted := {ofStr ["auth_pass"] ["users", .idx 0, "password"] fun _ pass =>
        .str ((env.generateFromPassword pass).getD "")} }
  | 7 => { moved := sameKeys ["dhcp"] ["dhcp", "dhcpv4"] dhcpv4Keys }
  | 8 => { moved := move ["dns", "bind_host"] ["dns", "bind_hosts", .idx 0] }
  | 9 => { moved := move ["dns", "autohost_tld"] ["dns", "local_domain_name"] }
  | 10 => {
      converted := {c | ∃ i, c = inPlace ["dns", "upstream_dns", .idx i] (addQUICPort env · 784) ∨
        c = inPlace ["dns", "local_ptr_upstreams", .idx i] (addQUICPort env · 784)} }
  | 11 => { moved := move ["rlimit_nofile"] ["os", "rlimit_nofile"] }
  -- The documentation of this one, and that of the migration to version 22, name the key without the section it is in.
  | 12 => { converted := {ofInt ["querylog_interval"] ["querylog_interval"] fun _ n => days n} }
  | 13 => { moved := move ["dns", "local_domain_name"] ["dhcp", "local_domain_name"] }
  | 14 => {
      moved := move ["dns", "resolve_clients"] ["clients", "runtime_sources", "rdns"] ∪
        move ["clients"] ["clients", "persistent"] }
  | 15 => {
      moved := otherKeys ["dns"] ["querylog"] qlogKeys
      sections := {[Seg.key "querylog"]} }
  | 16 => {
      converted := {ofInt ["dns", "statistics_interval"] ["statistics", "enabled"] fun _ n => .bool (n ≠ 0),
        ofInt ["dns", "statistics_interval"] ["statistics", "interval"] fun _ n => .int (if n = 0 then 1 else n)}
      sections := {[Seg.key "statistics"]} }
  | 17 => { moved := move ["dns", "edns_client_subnet"] ["dns", "edns_client_subnet", "enabled"] }
  | 18 => { moved := move ["dns", "safesearch_enabled"] ["dns", "safe_search", "enabled"] }
  | 19 => {
      moved := {r | ∃ i, r ∈ move ["clients", "persistent", .idx i, "safesearch_enabled"]
        ["clients", "persistent", .idx i, "safe_search", "enabled"]} }
  | 20 => { converted := {ofInt ["statistics", "interval"] ["statistics", "interval"] fun _ n => days n} }
  | 21 => { moved := move ["dns", "blocked_services"] ["dns", "blocked_services", "ids"] }
  | 22 => {
      moved := {r | ∃ i, r ∈ move ["persistent", .idx i, "blocked_services"]
        ["persistent", .idx i, "blocked_services", "ids"]} }
  | 23 => {
      converted := {
        ofStr ["bind_host"] ["http", "address"] fun m host => httpAddress env host (numberOf m "bind_port"),
        ofDoc ["bind_port"] ["http", "address"] fun m =>
          httpAddress env (((Fields.get m "bind_host").map Val.toStr).getD "") (numberOf m "bind_port"),
        ofInt ["web_session_ttl"] ["http", "session_ttl"] fun _ n => .str (env.durationString (n * hour))} }
  | 24 => { moved := otherKeys [] ["log"] logKeys }
  | 25 => { moved := move ["debug_pprof"] ["http", "pprof", "enabled"] }
  | 26 => { moved := sameKeys ["dns"] ["filtering"] filteringKeys }
  | 27 => {
      converted := {c | ∃ i, ∃ k ∈ ["querylog", "statistics"],
        c = inPlace [.key k, "ignored", .idx i] fun host => if host = "." then "|.^" else host} }
  | 28 => {
      converted := {ofDoc ["dns", "all_servers"] ["dns", "upstream_mode"] modeOf,
        ofDoc ["dns", "fastest_addr"] ["dns", "upstream_mode"] modeOf} }
  | 34 => { moved := move ["tls", "allow_unencrypted_doh"] ["http", "insecure_enabled"] }
  | _ => {}

/-! ## Documents that a migration keeps -/

section conditions

variable (m : Fields) (p : Path)

def Has : Prop := Fields.walk m p ≠ none

def Absent : Prop := Fields.walk m p = none

/-- There is no null at the path. -/
def NotNull : Prop := Fields.walk m p ≠ some .null

/-- There is nothing at the path but an empty object. -/
def EmptyAt : Prop := ∀ v, Fields.walk m p = some v → v = .map []

/-- There is nothing under the path. -/
def HollowAt : Prop := ∀ s, Fields.walk m (p ++ [s]) = none

/-- There is nothing at the path but a flag. -/
def FlagAt : Prop := ∀ v, Fields.walk m p = some v → ∃ b, v = .bool b

end conditions

/-- The document is one that the migration to the version loses nothing of: there is nothing where it writes, what
it moves is not null where a type is asked of it, and there is something to move it to. -/
def Clear : ℕ → Fields → Prop
  | 2, m => Has m ["coredns"] → Absent m ["dns"]
  | 4, m => ∀ i, Absent m ["clients", .idx i, "use_global_blocked_services"]
  | 5, m => NotNull m ["auth_name"] ∧ (Has m ["auth_name"] → Has m ["auth_pass"]) ∧
      (Has m ["auth_pass"] → Absent m ["users"])
  | 6, m => ∀ i, Absent m ["clients", .idx i, "ids"]
  | 7, m => (∀ mv ∈ dhcpv4Moves, NotNull m ["dhcp", .key mv.srcKey]) ∧ EmptyAt m ["dhcp", "dhcpv4"]
  | 8, m => NotNull m ["dns", "bind_host"] ∧ (Has m ["dns", "bind_host"] → Absent m ["dns", "bind_hosts"])
  | 9, m => NotNull m ["dns", "autohost_tld"] ∧
      (Has m ["dns", "autohost_tld"] → Absent m ["dns", "local_domain_name"])
  | 11, m => NotNull m ["rlimit_nofile"] ∧ EmptyAt m ["os"]
  | 12, m => Absent m ["querylog_interval"] ∧ Absent m ["dns", "querylog_interval"]
  | 13, m => NotNull m ["dns", "local_domain_name"] ∧
      (Has m ["dns", "local_domain_name"] → Has m ["dhcp"] ∧ Absent m ["dhcp", "local_domain_name"])
  | 14, m => NotNull m ["clients"] ∧ NotNull m ["dns", "resolve_clients"]
  | 15, m => (∀ mv ∈ qlogMoves, mv.ty = .any ∨ NotNull m ["dns", .key mv.srcKey]) ∧
      (Has m ["dns"] → HollowAt m ["querylog"])
  | 16, m => Has m ["dns"] → HollowAt m ["statistics"]
  | 17, m => FlagAt m ["dns", "edns_client_subnet"]
  | 18, m => NotNull m ["dns", "safesearch_enabled"] ∧ EmptyAt m ["dns", "safe_search"]
  | 19, m => ∀ i, FlagAt m ["clients", "persistent", .idx i, "safesearch_enabled"] ∧
      EmptyAt m ["clients", "persistent", .idx i, "safe_search"]
  | 20, m => ∀ v, Fields.walk m ["statistics", "interval"] = some v →
      v.toInt ≠ 0 ∧ mul64 v.toInt day = v.toInt * day
  | 21, m => NotNull m ["dns", "blocked_services"]
  | 22, m => ∀ i, Absent m ["persistent", .idx i, "blocked_services"] ∧
      Absent m ["clients", "persistent", .idx i, "blocked_services"]
  | 23, m => (Has m ["bind_host"] → EmptyAt m ["http"] ∧ 0 ≤ numberOf m "bind_port" ∧
        numberOf m "bind_port" < 2 ^ 16 ∧
        mul64 (numberOf m "web_session_ttl") hour = numberOf m "web_session_ttl" * hour) ∧
      (Absent m ["bind_host"] → Absent m ["bind_port"] ∧ Absent m ["web_session_ttl"])
  | 24, m => (∀ mv ∈ logMoves, NotNull m [.key mv.srcKey]) ∧
      ((∃ mv ∈ logMoves, Has m [.key mv.srcKey]) → EmptyAt m ["log"])
  | 25, m => NotNull m ["debug_pprof"] ∧ (Has m ["debug_pprof"] → Has m ["http"]) ∧ EmptyAt m ["http", "pprof"]
  | 26, m => (∀ mv ∈ filteringMoves, mv.ty = .any ∨ NotNull m ["dns", .key mv.srcKey]) ∧
      ((∃ mv ∈ filteringMoves, Has m ["dns", .key mv.srcKey]) → EmptyAt m ["filtering"])
  | 28, m => FlagAt m ["dns", "all_servers"] ∧ FlagAt m ["dns", "fastest_addr"] ∧ Absent m ["dns", "upstream_mode"]
  | 29, m => Has m ["filters"] → Absent m ["filtering", "safe_fs_patterns"]
  | 30, m => Has m ["dns", "cache_size"] → Absent m ["dns", "cache_enabled"]
  | 31, m => ∀ i, Absent m ["filtering", "rewrites", .idx i, "enabled"]
  | 32, m => Absent m ["dns", "cache_optimistic_answer_ttl"] ∧ Absent m ["dns", "cache_optimistic_max_age"]
  | 33, m => Has m ["querylog", "ignored"] → Absent m ["querylog", "ignored_enabled"] ∧
      (Has m ["statistics", "ignored"] → Absent m ["statistics", "ignored_enabled"])
  | 34, m => Absent m ["tls", "allow_unencrypted_doh"] ∧ (Has m ["tls"] → EmptyAt m ["http", "doh"])
  | _, _ => True

end AdGuardHome.Configmigrate
