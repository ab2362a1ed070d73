import AdGuardHome.Aghnet.IPMut
import AdGuardHome.Lib.GoMap

/-!
# The ipset manager (`internal/ipset/ipset_linux.go`)

The manager adds the addresses of a host to the ipsets of the kernel that the configuration has for its domain.  The
connections to the kernel are parameters: what they answer to the queries of the configuration, and the error of every
call of `Add`.
-/

namespace AdGuardHome.Ipset

open AdGuardHome.Lib AdGuardHome.Aghnet

/-- `netfilter.ProtoFamily` -/
abbrev ProtoFamily := UInt8

def protoIPv4 : ProtoFamily := 2

def protoIPv6 : ProtoFamily := 10

structure Props where
  name : String
  typeName : String
  family : ProtoFamily
  isPersistent : Bool
deriving DecidableEq

/-- `ipset.HeaderPolicy`, with no family for a nil one. -/
structure HeaderPolicy where
  family : Option UInt8
  typeName : String

/-- What the manager uses of other packages and of the kernel. -/
structure IpsetEnv where
  /-- `strings.ToLower` -/
  toLower : String → String
  /-- `%q` of `fmt`. -/
  quote : String → String
  /-- `ProtoFamily.String` -/
  familyString : ProtoFamily → String
  /-- The error of dialing a family, and whether it is `EPROTONOSUPPORT`. -/
  dial : ProtoFamily → Except (String × Bool) Unit
  listAll : Except String (List Props)
  /-- The answer to the query of a header for the name at a place of a line. -/
  header : ℕ → ℕ → String → Except String (Option HeaderPolicy)

/-- An address of a record: `net.IP` of four or sixteen bytes. -/
structure IPAddr where
  bytes : IP
  valid : bytes.length = 4 ∨ bytes.length = 16
deriving DecidableEq

/-- `IP.To16` -/
def IPAddr.to16 (ip : IPAddr) : IP :=
  if ip.bytes.length = 4 then List.replicate 10 0 ++ [255, 255] ++ ip.bytes else ip.bytes

structure IPInIpsetEntry where
  ipsetName : String
  ipArr : IP
deriving DecidableEq

/-- `manager`.  The set of entries is a list. -/
structure Manager where
  nameToIpset : GoMap String Props
  domainToIpsets : GoMap String (List Props)
  addedIPs : List IPInIpsetEntry

/-! ## The configuration -/

/-- `unicode.IsSpace` -/
def isSpace (c : Char) : Bool :=
  c.toNat ∈ [0x09, 0x0a, 0x0b, 0x0c, 0x0d, 0x20, 0x85, 0xa0, 0x1680, 0x2028, 0x2029, 0x202f, 0x205f, 0x3000]
    || 0x2000 ≤ c.toNat && c.toNat ≤ 0x200a

/-- `strings.TrimSpace` -/
def trimSpace (cs : List Char) : List Char :=
  ((cs.dropWhile isSpace).reverse.dropWhile isSpace).reverse

def parseIpsetConfigLine (env : IpsetEnv) (confStr : String) : Except String (List String × List String) :=
  let confStr := trimSpace confStr.toList
  match confStr.splitOn '/' with
  | [hosts, names] =>
    let ipsetNames := (names.splitOn ',').map trimSpace
    if ipsetNames.any (·.isEmpty) then
      .error ("invalid value " ++ env.quote (String.ofList confStr) ++ ": empty ipset name")
    else
      .ok ((hosts.splitOn ',').map fun host => env.toLower (String.ofList (trimSpace host)),
        ipsetNames.map String.ofList)
  | _ => .error ("invalid value " ++ env.quote (String.ofList confStr) ++ ": expected one slash")

namespace Manager

def ipsetProps (env : IpsetEnv) (line place : ℕ) (name : String) : Except String Props :=
  match env.header line place name with
  | .error err => .error err
  | .ok none => .error "empty response or no family data"
  | .ok (some res) =>
    match res.family with
    | none => .error "empty response or no family data"
    | some family =>
      if family ≠ protoIPv4 ∧ family ≠ protoIPv6 then
        .error ("unexpected ipset family " ++ env.quote (env.familyString family))
      else .ok ⟨name, res.typeName, family, false⟩

/-- The properties of a name of a line: the known ones, or those of its header. -/
def nameProps (env : IpsetEnv) (currentlyKnown : GoMap String Props) (line place : ℕ) (n : String) :
    Except String Props :=
  match currentlyKnown.get n with
  | none => .error ("unknown ipset " ++ env.quote n)
  | some p =>
    if p.family ≠ protoIPv4 ∧ p.family ≠ protoIPv6 then
      match ipsetProps env line place n with
      | .error err => .error (env.quote "" ++ " " ++ env.quote "" ++ " making header query: " ++ err)
      | .ok p => .ok p
    else .ok p

/-- `ipsets`, for the names of a line from a place on. -/
def ipsets (env : IpsetEnv) (currentlyKnown : GoMap String Props) (line : ℕ) (m : Manager) :
    ℕ → List String → Except String (List Props × Manager)
  | _, [] => .ok ([], m)
  | place, n :: names =>
    match nameProps env currentlyKnown line place n with
    | .error err => .error err
    | .ok p =>
      match ipsets env currentlyKnown line { m with nameToIpset := m.nameToIpset.set n p } (place + 1) names with
      | .error err => .error err
      | .ok (sets, m) => .ok (p :: sets, m)

/-- The loop over the hosts of a line. -/
def appendSets (sets : List Props) (m : Manager) (host : String) : Manager :=
  { m with domainToIpsets := m.domainToIpsets.set host ((m.domainToIpsets.get host).getD [] ++ sets) }

/-- The loop of `parseIpsetConfig`, from a line on. -/
def parseLines (env : IpsetEnv) (currentlyKnown : GoMap String Props) :
    ℕ → List String → Manager → Except String Manager
  | _, [], m => .ok m
  | i, confStr :: conf, m =>
    match parseIpsetConfigLine env confStr with
    | .error err => .error ("config line at idx " ++ toString i ++ ": " ++ err)
    | .ok (hosts, ipsetNames) =>
      match ipsets env currentlyKnown i m 0 ipsetNames with
      | .error err => .error ("getting ipsets from config line at idx " ++ toString i ++ ": " ++ err)
      | .ok (sets, m) => parseLines env currentlyKnown (i + 1) conf (hosts.foldl (appendSets sets) m)

def known (all : List Props) : GoMap String Props := all.foldl (fun m p => m.set p.name p) GoMap.empty

def parseIpsetConfig (env : IpsetEnv) (ipsetConf : List String) (m : Manager) : Except String Manager :=
  match env.listAll with
  | .error err => .error err
  | .ok all => parseLines env (known all) 0 ipsetConf m

def dialNetfilter (env : IpsetEnv) : Except (String × Bool) Unit :=
  match env.dial protoIPv4 with
  | .error (err, unsupported) => .error ("dialing v4: " ++ err, unsupported)
  | .ok _ =>
    match env.dial protoIPv6 with
    | .error (err, unsupported) => .error ("dialing v6: " ++ err, unsupported)
    | .ok _ => .ok ()

def empty : Manager := ⟨GoMap.empty, GoMap.empty, []⟩

/-- `NewManager`, `none` for no manager. -/
def newManager (env : IpsetEnv) (conf : List String) : Except String (Option Manager) :=
  if conf.length = 0 then .ok none
  else
    match dialNetfilter env with
    | .error (err, unsupported) =>
      if unsupported then .ok none else .error ("ipset: dialing netfilter: " ++ err)
    | .ok _ =>
      match parseIpsetConfig env conf empty with
      | .error err => .error ("ipset: getting ipsets: " ++ err)
      | .ok m => .ok (some m)

/-! ## Adding addresses -/

/-- The loop of `lookupHost`. -/
def lookupLoop (m : Manager) : ℕ → List Char → Option (List Props)
  | 0, _ => none
  | fuel + 1, host =>
    match m.domainToIpsets.get (String.ofList host) with
    | some sets => some sets
    | none =>
      match host.idxOf? '.' with
      | none => none
      | some i => lookupLoop m fuel (host.drop (i + 1))

def lookupHost (m : Manager) (host : String) : List Props :=
  match m.lookupLoop (host.toList.length + 1) host.toList with
  | some sets => sets
  | none => (m.domainToIpsets.get "").getD []

/-- A result with the addresses that were sent to the kernel, with the names of their sets. -/
structure Outcome where
  mgr : Manager
  sent : List (String × IPAddr)
  result : Except String ℕ

/-- The addresses that are not in the cache of a set. -/
def newEntries (m : Manager) (set : Props) (ips : List IPAddr) : List IPAddr :=
  ips.filter fun ip => !m.addedIPs.contains ⟨set.name, ip.to16⟩

/-- `addIPs`; `connErr` is the error of the connection. -/
def addIPs (env : IpsetEnv) (connErr : Option String) (m : Manager) (host : String) (set : Props)
    (ips : List IPAddr) : Outcome :=
  if ips.length = 0 then ⟨m, [], .ok 0⟩
  else
    let entries := m.newEntries set ips
    if entries.length = 0 then ⟨m, [], .ok 0⟩
    else if set.family ≠ protoIPv4 ∧ set.family ≠ protoIPv6 then
      ⟨m, [], .error ("unexpected family " ++ env.familyString set.family ++ " for ipset " ++ env.quote set.name)⟩
    else
      match connErr with
      | some err =>
        ⟨m, [], .error ("adding " ++ env.quote host ++ "[" ++ " ".intercalate (ips.map (·.bytes.string)) ++ "] to "
          ++ env.quote set.name ++ " " ++ env.quote set.typeName ++ ": " ++ err)⟩
      | none =>
        let added :=
          if ((m.nameToIpset.get set.name).map (·.isPersistent)).getD false then
            entries.map fun ip => ⟨set.name, ip.to16⟩
          else []
        ⟨{ m with addedIPs := m.addedIPs ++ added }, entries.map fun ip => (set.name, ip), .ok entries.length⟩

/-- The loop of `addToSets`, from the set with a number on.  The connection answers to each set with an error or not. -/
def addToSets (env : IpsetEnv) (conn : ℕ → Option String) (host : String) (ip4s ip6s : List IPAddr) :
    ℕ → List Props → Outcome → Outcome
  | _, [], o => o
  | k, set :: sets, o =>
    match o.result with
    | .error _ => o
    | .ok n =>
      let ips :=
        if set.family = protoIPv4 then some ip4s else if set.family = protoIPv6 then some ip6s else none
      match ips with
      | none =>
        { o with result := .error (env.quote set.name ++ " " ++ env.quote set.typeName ++ " unexpected family "
            ++ env.quote (env.familyString set.family)) }
      | some ips =>
        let step := addIPs env (conn k) o.mgr host set ips
        addToSets env conn host ip4s ip6s (k + 1) sets
          ⟨step.mgr, o.sent ++ step.sent, step.result.map fun nn => n + nn⟩

def add (env : IpsetEnv) (conn : ℕ → Option String) (m : Manager) (host : String) (ip4s ip6s : List IPAddr) :
    Outcome :=
  let sets := m.lookupHost host
  if sets.length = 0 then ⟨m, [], .ok 0⟩
  else addToSets env conn host ip4s ip6s 0 sets ⟨m, [], .ok 0⟩

end Manager

end AdGuardHome.Ipset
