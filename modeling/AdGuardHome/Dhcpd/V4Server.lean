import AdGuardHome.Aghnet.Addr
import AdGuardHome.Dhcp.BitSet
import AdGuardHome.Dhcpd.Config
import AdGuardHome.Lib.Heap
import AdGuardHome.Lib.Run

/-!
# The DHCPv4 server

The lease operations of `v4_unix.go`.  Leases are records on a heap: the list, the host index and the
address index hold pointers to them, and the handlers rewrite them in place.  A call's own argument is
put on the heap when the call stores it.  The outcomes of the ICMP probes and the readings of the clock
are arguments of the operations.

`step` applies one operation; the results about whole runs are in the modules that import this one.
-/

namespace AdGuardHome.Dhcpd

open AdGuardHome.Net AdGuardHome.Lib AdGuardHome.Dhcp AdGuardHome.Aghnet

/-- What the server takes from `strings` and `netutil` for hostnames. -/
structure HostEnv where
  /-- `strings.ToLower`. -/
  toLower : String → String
  /-- `netutil.IsValidHostOuterRune`. -/
  isValidHostOuterRune : Char → Bool
  /-- `netutil.ValidateHostname`, `true` for no error. -/
  validateHostname : String → Bool

/-- The errors of the lease operations. -/
inductive Err
  | noValidParts
  | invalidHostname
  | invalidIP
  | invalidMAC
  | gatewayIP
  | notInSubnet
  | outOfRange
  | duplicatedHostname
  | duplicatedIP
  | staticLeaseExists
  | leaseIsDifferent
  | leaseNotFound
  /-- An index out of range, on which the source panics. -/
  | fault
deriving DecidableEq

/-- `v4Server`, without the configuration. -/
structure V4Server where
  heap : Heap Lease
  leases : List Ref
  hostsIndex : GoMap String Ref
  ipIndex : GoMap Addr Ref
  leasedOffsets : BitSet

namespace V4Server

variable (env : HostEnv) (conf : V4ServerConf)

/-- A server with no leases. -/
def empty : V4Server := ⟨.empty, [], .empty, .empty, .newBitSet⟩

/-- The record behind a pointer. -/
def lease (s : V4Server) (r : Ref) : Lease := s.heap.get r

/-- Rewrites the record behind a pointer. -/
def modify (s : V4Server) (r : Ref) (f : Lease → Lease) : V4Server := { s with heap := s.heap.modify r f }

/-- Allocates a record; the pointer is `s.heap.next`. -/
def alloc (s : V4Server) (l : Lease) : V4Server := { s with heap := s.heap.alloc l }

/-! ## Hostnames -/

/-- `strings.TrimSuffix(s, "-")`, on characters. -/
def trimDash (cs : List Char) : List Char := if cs.getLast? = some '-' then cs.dropLast else cs

/-- Lower-cases the hostname and joins its valid parts with dashes. -/
def normalizeHostname (hostname : String) : Except Err String :=
  if hostname = "" then .ok "" else
  let norm := env.toLower hostname
  let parts := (norm.toList.splitOnP fun c => c != '.' && !env.isValidHostOuterRune c).filter (· ≠ [])
  if parts = [] then .error .noValidParts else
  .ok (String.ofList (trimDash (List.intercalate ['-'] parts)))

/-- The normalized hostname, or one generated from the address, or an empty one. -/
def validHostnameForClient (cliHostname : String) (ip : Addr) : String :=
  let hostname := match normalizeHostname env cliHostname with
    | .ok h => h
    | .error _ => ""
  let hostname := if hostname = "" then generateHostname ip else hostname
  if env.validateHostname hostname then hostname else ""

/-! ## Adding and removing leases -/

/-- `defaultHwAddrLen` zero bytes. -/
def blockedHWAddr : HardwareAddr := List.replicate 6 0

/-- Blocklists the address of the lease for the lease time. -/
def blocklistLease (s : V4Server) (r : Ref) (now : Time) : V4Server :=
  s.modify r fun l => { l with hwAddr := blockedHWAddr, hostname := "", expiry := now + conf.leaseTime }

/-- Removes a lease by its index, nothing if there is none. -/
def rmLeaseByIndex (s : V4Server) (i : ℕ) : V4Server :=
  match s.leases[i]? with
  | none => s
  | some r =>
    let l := s.lease r
    let (offset, ok) := conf.ipRange.offset (to16 l.ip)
    { s with
      leases := s.leases.eraseIdx i
      leasedOffsets := if ok then s.leasedOffsets.set offset false else s.leasedOffsets
      hostsIndex := s.hostsIndex.del l.hostname
      ipIndex := s.ipIndex.del l.ip }

/-- Whether `rmDynamicLease` for `lease` takes `l` out. -/
def sameProps (lease l : Lease) : Bool := l.hwAddr == lease.hwAddr || l.ip == lease.ip

/-- Empties the hostname of `r` if it is the hostname of `p`. -/
def clearHostname (s : V4Server) (p r : Ref) : V4Server :=
  if (s.lease r).hostname = (s.lease p).hostname then s.modify r fun l => { l with hostname := "" } else s

/-- The loop of `rmDynamicLease`.  It ranges over the backing array as it was at the start, of which
`s.leases` is the part still in use and `stale` the entries behind it that the removals left in place; the
first number is that of the turns left. -/
def rmDynamicLoop (p : Ref) : ℕ → ℕ → V4Server → List Ref → V4Server × List Ref × Except Err Unit
  | 0, _, s, stale => (s, stale, .ok ())
  | k + 1, i, s, stale =>
    match (s.leases ++ stale)[i]? with
    | none => (s, stale, .error .fault)
    | some r =>
      let isStatic := (s.lease r).isStatic
      if sameProps (s.lease p) (s.lease r) then
        if isStatic then (s, stale, .error .staticLeaseExists) else
        let s' := s.rmLeaseByIndex conf i
        let stale' := if i < s.leases.length then s.leases.drop (s.leases.length - 1) ++ stale else stale
        if i = s'.leases.length then (s', stale', .ok ()) else
        match s'.leases[i]? with
        | none => (s', stale', .error .fault)
        | some r' => rmDynamicLoop p k (i + 1) (s'.clearHostname p r') stale'
      else
        rmDynamicLoop p k (i + 1) (if isStatic then s else s.clearHostname p r) stale

/-- Removes the dynamic leases with the same properties as `p`, an error if a static one is found.  The
stale entries are returned for the loop of `handleRelease`. -/
def rmDynamicLease (s : V4Server) (p : Ref) : V4Server × List Ref × Except Err Unit :=
  rmDynamicLoop conf p s.leases.length 0 s []

/-- Stores a lease in the list, the indexes and the bit set, at the given offset. -/
def store (s : V4Server) (r : Ref) (offset : BitVec 64) : V4Server :=
  let l := s.lease r
  { s with
    hostsIndex := if l.hostname ≠ "" then s.hostsIndex.set l.hostname r else s.hostsIndex
    ipIndex := s.ipIndex.set l.ip r
    leases := s.leases ++ [r]
    leasedOffsets := s.leasedOffsets.set offset true }

/-- Adds a dynamic or static lease. -/
def addLease (s : V4Server) (r : Ref) : V4Server × Except Err Unit :=
  let l := s.lease r
  let (offset, inOffset) := conf.ipRange.offset (to16 l.ip)
  if l.isStatic && !conf.subnet.contains l.ip then (s, .error .notInSubnet)
  else if !l.isStatic && !inOffset then (s, .error .outOfRange)
  else if l.hostname ≠ "" ∧ (s.hostsIndex.get l.hostname).isSome then (s, .error .duplicatedHostname)
  else (s.store r offset, .ok ())

/-- Removes a lease with the same properties. -/
def rmLease (s : V4Server) (l : Lease) : V4Server × Except Err Unit :=
  if s.leases = [] then (s, .ok ()) else
  match s.leases.findIdx? fun r => (s.lease r).ip == l.ip with
  | none => (s, .error .leaseNotFound)
  | some i =>
    match s.leases[i]? with
    | none => (s, .error .fault)
    | some r =>
      if (s.lease r).hwAddr ≠ l.hwAddr ∨ (s.lease r).hostname ≠ l.hostname then (s, .error .leaseIsDifferent)
      else (s.rmLeaseByIndex conf i, .ok ())

/-! ## Reloading -/

/-- The body of the loop of `ResetLeases`: a lease that cannot be added is logged and left out. -/
def resetLease (s : V4Server) (l : Lease) : V4Server :=
  let l := if l.isStatic then l else { l with hostname := validHostnameForClient env l.hostname l.ip }
  ((s.alloc l).addLease conf s.heap.next).1

/-- `ResetLeases` -/
def resetLeases (s : V4Server) (leases : List Lease) : V4Server :=
  leases.foldl (resetLease env conf)
    { s with leasedOffsets := .newBitSet, hostsIndex := .empty, ipIndex := .empty, leases := [] }

/-! ## Static leases -/

/-- What `AddStaticLease` does to its argument before it is stored. -/
def prepareStatic (l : Lease) : Except Err Lease :=
  let l := { l with ip := l.ip.unmap }
  if l.ip.is4 = false then .error .invalidIP
  else if .v4 conf.gatewayIP = l.ip then .error .gatewayIP
  else
    let l := { l with isStatic := true }
    if validateMAC l.hwAddr = false then .error .invalidMAC
    else if l.hostname = "" then .ok l
    else match normalizeHostname env l.hostname with
      | .error e => .error e
      | .ok hostname =>
        if env.validateHostname hostname = false then .error .invalidHostname
        else .ok { l with hostname := hostname }

/-- Removes the dynamic leases with the same properties, then adds the static lease `r`. -/
def updateStaticLease (s : V4Server) (r : Ref) : V4Server × Except Err Unit :=
  match s.rmDynamicLease conf r with
  | (s', _, .error e) => (s', .error e)
  | (s', _, .ok ()) => s'.addLease conf r

/-- `AddStaticLease`. -/
def addStaticLease (s : V4Server) (l : Lease) : V4Server × Except Err Unit :=
  match prepareStatic env conf l with
  | .error e => (s, .error e)
  | .ok l => (s.alloc l).updateStaticLease conf s.heap.next

/-- Finds a lease by its hardware address. -/
def findLease (s : V4Server) (mac : HardwareAddr) : Option Ref :=
  s.leases.find? fun r => mac == (s.lease r).hwAddr

/-- Whether the index names a lease of another client. -/
def takenByOther (s : V4Server) (l : Lease) : Option Ref → Bool
  | none => false
  | some dup => (s.lease dup).hwAddr != l.hwAddr

/-- Checks the argument of `UpdateStaticLease` and normalizes its hostname. -/
def validateStaticLease (s : V4Server) (l : Lease) : Except Err Lease :=
  match normalizeHostname env l.hostname with
  | .error e => .error e
  | .ok hostname =>
    if hostname ≠ "" ∧ env.validateHostname hostname = false then .error .invalidHostname
    else if hostname ≠ "" ∧ s.takenByOther l (s.hostsIndex.get hostname) then .error .duplicatedHostname
    else if s.takenByOther l (s.ipIndex.get l.ip) then .error .duplicatedIP
    else if .v4 conf.gatewayIP = l.ip then .error .gatewayIP
    else if conf.subnet.contains l.ip = false then .error .notInSubnet
    else .ok { l with hostname := hostname }

/-- `UpdateStaticLease`. -/
def updateStatic (s : V4Server) (l : Lease) : V4Server × Except Err Unit :=
  match s.findLease l.hwAddr with
  | none => (s, .error .leaseNotFound)
  | some found =>
    match s.validateStaticLease env conf l with
    | .error e => (s, .error e)
    | .ok l =>
      match s.rmLease conf (s.lease found) with
      | (s', .error e) => (s', .error e)
      | (s', .ok ()) => (s'.alloc l).addLease conf s'.heap.next

/-- `RemoveStaticLease`. -/
def removeStaticLease (s : V4Server) (l : Lease) : V4Server × Except Err Unit :=
  if l.ip.is4 = false then (s, .error .invalidIP)
  else if validateMAC l.hwAddr = false then (s, .error .invalidMAC)
  else s.rmLease conf l

/-! ## Allocation -/

/-- The first address of the range whose bit is not set. -/
def nextIP (s : V4Server) : Option (BitVec 32) :=
  (conf.ipRange.find fun ip =>
    let (offset, ok) := conf.ipRange.offset ip
    ok && !s.leasedOffsets.isSet offset).bind to4

/-- The first expired dynamic lease. -/
def findExpiredLease (s : V4Server) (now : Time) : Option Ref :=
  s.leases.find? fun r => !(s.lease r).isStatic && decide ((s.lease r).expiry < now)

/-- `copy(dst, src)` on bytes. -/
def copyBytes (dst src : List UInt8) : List UInt8 := src.take dst.length ++ dst.drop src.length

/-- Reserves a lease for a client: a new one on a free address, else an expired one. -/
def reserveLease (s : V4Server) (mac : HardwareAddr) (now : Time) : V4Server × Except Err (Option Ref) :=
  match s.nextIP conf with
  | none =>
    match s.findExpiredLease now with
    | none => (s, .ok none)
    | some r => (s.modify r fun l => { l with hwAddr := copyBytes l.hwAddr mac }, .ok (some r))
  | some ip =>
    match (s.alloc { (default : Lease) with ip := .v4 ip, hwAddr := mac }).addLease conf s.heap.next with
    | (s', .error e) => (s', .error e)
    | (s', .ok ()) => (s', .ok (some s.heap.next))

/-- A turn of `allocateLease` in which a host answered the probe: the clock at the reservation and at the
blocklisting. -/
structure Answered where
  reservedAt : Time
  blockedAt : Time

/-- Allocates a lease.  The list has the turns in which the probe was answered; in the turn after them the
address is found free.  Without an ICMP timeout no probe is sent. -/
def allocateLease (mac : HardwareAddr) (now : Time) :
    List Answered → V4Server → V4Server × Except Err (Option Ref)
  | [], s => s.reserveLease conf mac now
  | p :: ps, s =>
    match s.reserveLease conf mac p.reservedAt with
    | (s', .error e) => (s', .error e)
    | (s', .ok none) => (s', .ok none)
    | (s', .ok (some r)) =>
      if conf.icmpTimeout = 0 then (s', .ok (some r))
      else allocateLease mac now ps (s'.blocklistLease conf r p.blockedAt)

/-- The hostname that `commitLease` settles on: the wanted one if it is free, else the previous one, or a
generated one for a lease without a hostname. -/
def committedHostname (s : V4Server) (l : Lease) (hostname : String) : String :=
  let hostname := validHostnameForClient env hostname l.ip
  if (s.hostsIndex.get hostname).isSome then
    if l.hostname = "" then generateHostname l.ip else l.hostname
  else hostname

/-- Refreshes the lease and takes the wanted hostname into account. -/
def commitLease (s : V4Server) (r : Ref) (hostname : String) (now : Time) : V4Server :=
  let l := s.lease r
  let prev := l.hostname
  let hostname := committedHostname env s l hostname
  let hosts := if prev ≠ "" ∧ prev ≠ hostname then s.hostsIndex.del prev else s.hostsIndex
  { s with
    heap := s.heap.modify r fun l => { l with hostname := hostname, expiry := now + conf.leaseTime }
    hostsIndex := if hostname ≠ "" then hosts.set hostname r else hosts
    ipIndex := s.ipIndex.set l.ip r }

/-! ## Messages -/

/-- The parts of a DHCPv4 message that the handlers read.  `none` is an absent address. -/
structure Request where
  mac : HardwareAddr
  requestedIP : Option (BitVec 32)
  clientIP : Option (BitVec 32)
  serverID : Option (BitVec 32)
  hostName : String
deriving DecidableEq

/-- The address that a DECLINE or a RELEASE is about. -/
def Request.ip (req : Request) : Option (BitVec 32) :=
  match req.requestedIP with
  | some ip => some ip
  | none => req.clientIP

/-- `ip != nil && !ip.IsUnspecified()`. -/
def specified : Option (BitVec 32) → Bool
  | none => false
  | some ip => ip != 0

/-- `handleDiscover`. -/
def handleDiscover (s : V4Server) (mac : HardwareAddr) (now : Time) (probes : List Answered) :
    V4Server × Except Err (Option Ref) :=
  match s.findLease mac with
  | some r => (s, .ok (some r))
  | none => allocateLease conf mac now probes s

/-- Whether the pair of hardware address and address is leased; the flag tells that the client holds
another address. -/
def checkLease (s : V4Server) (mac : HardwareAddr) (ip : Option (BitVec 32)) : Option Ref × Bool :=
  match ip with
  | none => (none, false)
  | some ip =>
    match s.leases.find? fun r => (s.lease r).hwAddr == mac with
    | none => (none, false)
    | some r => if (s.lease r).ip = .v4 ip then (some r, false) else (none, true)

/-- A DHCPREQUEST in SELECTING state; the flag tells that a reply is needed. -/
def handleSelecting (s : V4Server) (req : Request) (sid : BitVec 32) : Option Ref × Bool :=
  if to16 (.v4 sid) ≠ to16 conf.dnsIPAddr then (none, false)
  else if specified req.clientIP then (none, false)
  else if req.requestedIP = none then (none, false)
  else match s.checkLease req.mac req.requestedIP with
    | (_, true) => (none, true)
    | (l, false) => (l, true)

/-- A DHCPREQUEST in INIT-REBOOT state. -/
def handleInitReboot (s : V4Server) (req : Request) (reqIP : BitVec 32) : Option Ref × Bool :=
  if specified req.clientIP then (none, false)
  else if conf.subnet.contains (.v4 reqIP) = false then (none, true)
  else match s.checkLease req.mac (some reqIP) with
    | (_, true) => (none, true)
    | (none, false) => (none, false)
    | (some r, false) => (some r, true)

/-- A DHCPREQUEST in RENEWING or REBINDING state. -/
def handleRenew (s : V4Server) (req : Request) : Option Ref × Bool :=
  if specified req.clientIP = false then (none, false)
  else match s.checkLease req.mac req.clientIP with
    | (_, true) => (none, true)
    | (none, false) => (none, false)
    | (some r, false) => (some r, true)

/-- Tells the three kinds of DHCPREQUEST apart. -/
def handleByRequestType (s : V4Server) (req : Request) : Option Ref × Bool :=
  match req.serverID.filter (· ≠ 0), req.requestedIP.filter (· ≠ 0) with
  | some sid, _ => s.handleSelecting conf req sid
  | none, some reqIP => s.handleInitReboot conf req reqIP
  | none, none => s.handleRenew req

/-- `handleRequest`: a dynamic lease that is found is committed. -/
def handleRequest (s : V4Server) (req : Request) (now : Time) : V4Server × Option Ref × Bool :=
  match s.handleByRequestType conf req with
  | (none, needsReply) => (s, none, needsReply)
  | (some r, needsReply) =>
    if (s.lease r).isStatic then (s, some r, needsReply)
    else (s.commitLease env conf r req.hostName now, some r, needsReply)

/-- The lease of a client on an address. -/
def findLeaseForIP (s : V4Server) (ip : Option (BitVec 32)) (mac : HardwareAddr) : Option Ref :=
  match ip with
  | none => none
  | some ip => s.leases.find? fun r => (s.lease r).hwAddr == mac && (s.lease r).ip == .v4 ip

/-- `handleDecline`; `committedAt` is the clock after the allocation. -/
def handleDecline (s : V4Server) (req : Request) (now committedAt : Time) (probes : List Answered) :
    V4Server × Except Err Unit :=
  match s.findLeaseForIP req.ip req.mac with
  | none => (s, .ok ())
  | some old =>
    match s.rmDynamicLease conf old with
    | (s, _, .error e) => (s, .error e)
    | (s, _, .ok ()) =>
      match allocateLease conf req.mac now probes s with
      | (s, .error e) => (s, .error e)
      | (s, .ok none) => (s, .ok ())
      | (s, .ok (some new)) =>
        (s.modify new fun l =>
          { l with hostname := (s.lease old).hostname, expiry := committedAt + conf.leaseTime }).addLease conf new

/-- The loop of `handleRelease`, over the same backing array as the loop that it calls. -/
def releaseLoop (mac : HardwareAddr) (ip : Addr) : ℕ → ℕ → V4Server → List Ref → V4Server × Except Err Unit
  | 0, _, s, _ => (s, .ok ())
  | k + 1, i, s, stale =>
    match (s.leases ++ stale)[i]? with
    | none => (s, .error .fault)
    | some r =>
      if (s.lease r).hwAddr ≠ mac ∨ (s.lease r).ip ≠ ip then releaseLoop mac ip k (i + 1) s stale
      else match s.rmDynamicLease conf r with
        | (s', _, .error e) => (s', .error e)
        | (s', stale', .ok ()) => releaseLoop mac ip k (i + 1) s' (stale' ++ stale)

/-- `handleRelease`. -/
def handleRelease (s : V4Server) (req : Request) : V4Server × Except Err Unit :=
  match req.ip with
  | none => (s, .ok ())
  | some ip => releaseLoop conf req.mac (.v4 ip) s.leases.length 0 s []

/-! ## Runs -/

/-- An operation, with the readings of the clock and the outcomes of the probes. -/
inductive Op
  | discover (req : Request) (now : Time) (probes : List Answered)
  | request (req : Request) (now : Time)
  | decline (req : Request) (now committedAt : Time) (probes : List Answered)
  | release (req : Request)
  | addStatic (l : Lease)
  | updateStatic (l : Lease)
  | removeStatic (l : Lease)

/-- The state after an operation.  `packetHandler` drops the messages with an invalid hardware address. -/
def step (s : V4Server) : Op → V4Server
  | .discover req now probes =>
    if validateMAC req.mac then (s.handleDiscover conf req.mac now probes).1 else s
  | .request req now => if validateMAC req.mac then (s.handleRequest env conf req now).1 else s
  | .decline req now committedAt probes =>
    if validateMAC req.mac then (s.handleDecline conf req now committedAt probes).1 else s
  | .release req => if validateMAC req.mac then (s.handleRelease conf req).1 else s
  | .addStatic l => (s.addStaticLease env conf l).1
  | .updateStatic l => (s.updateStatic env conf l).1
  | .removeStatic l => (s.removeStaticLease conf l).1

end V4Server

end AdGuardHome.Dhcpd
