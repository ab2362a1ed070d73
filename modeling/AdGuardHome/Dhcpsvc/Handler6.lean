import AdGuardHome.Aghnet.Addr
import AdGuardHome.Dhcpsvc.Handler4
import AdGuardHome.Dhcpsvc.Options6

/-!
# DHCPv6 messages

The handlers of `handler6.go`, with what they use of `v6.go` and `options6.go`, and the server taking the packets of
both families.  An answer is given by its type, its IA_NA option and its status code; the options that repeat the
message or the configuration are left out.
-/

namespace AdGuardHome.Dhcpsvc

open AdGuardHome.Net AdGuardHome.Lib AdGuardHome.Dhcp

/-- What the handlers use of other packages: `strings.ToLower`, `netutil.IsValidHostname`, and whether
`DHCPv6DUID.DecodeFromBytes` takes the data. -/
structure Env6 where
  toLower : GoString → GoString
  isValidHostname : GoString → Bool
  decodesDUID : List UInt8 → Bool

/-! ## Options -/

def optClientID : UInt16 := 1
def optServerID : UInt16 := 2
def optIATA : UInt16 := 4
def optRapidCommit : UInt16 := 14
def optClientFQDN : UInt16 := 39

/-- A DHCPv6 message with the frame that it came in.  Ethernet addresses have six bytes. -/
structure Message6 where
  srcMAC : HardwareAddr
  isEthernet : srcMAC.length = 6
  /-- The identifier of the server on the interface. -/
  duidData : List UInt8
  options : List DHCPv6Option

/-- The key of the client, `macToKey`. -/
def Message6.key (req : Message6) : MacKey := ⟨req.srcMAC, by rw [req.isEthernet]; rfl⟩

def findOption6 (opts : List DHCPv6Option) (code : UInt16) : Option (List UInt8) :=
  (opts.find? fun opt => opt.code == code).map DHCPv6Option.data

def clientDUID6 (opts : List DHCPv6Option) : Option (List UInt8) := findOption6 opts optClientID

def serverDUID6 (opts : List DHCPv6Option) : Option (List UInt8) := findOption6 opts optServerID

def clientFQDN6 (req : Message6) : GoString :=
  match findOption6 req.options optClientFQDN with
  | some (_ :: fqdn) => ⟨fqdn⟩
  | _ => ""

/-- `clientIDNoServer`, whether it finds an identifier. -/
def clientIDNoServer (env : Env6) (opts : List DHCPv6Option) : Bool :=
  (serverDUID6 opts).isNone && (clientDUID6 opts).any env.decodesDUID

/-- `clientIDMatchingServer`, whether it finds an identifier. -/
def clientIDMatchingServer (env : Env6) (opts : List DHCPv6Option) (serverDUID : List UInt8) : Bool :=
  serverDUID6 opts == some serverDUID && (clientDUID6 opts).any env.decodesDUID

/-- `IANAOption.requestedAddr` -/
def IANAOption.requestedAddr (opt : IANAOption) : Option Addr :=
  (opt.nested.head?.map IAAddrOption.addr).filter (· ≠ .invalid)

/-- The option as an IA_NA option, if it is a well-formed one. -/
def iana? (opt : DHCPv6Option) : Option IANAOption :=
  if opt.code = optIANA then (IANAOption.unmarshalBinary opt.data).toOption else none

def firstIANA (req : Message6) : Option IANAOption := req.options.findSome? iana?

/-- `firstIANAAddr`; `none` is for the zero values. -/
def firstIANAAddr (req : Message6) : Option (UInt32 × Addr) :=
  req.options.findSome? fun opt => (iana? opt).bind fun iana => iana.requestedAddr.map (iana.id, ·)

/-! ## Answers -/

inductive StatusCode
  | success
  | noAddrsAvail
  | noBinding
  | notOnLink
deriving DecidableEq

/-- The IA_NA option of an answer. -/
inductive RespIANA
  | absent
  /-- `newIANAWithStatus` -/
  | status (iaid : UInt32) (code : StatusCode)
  /-- `Encode` of the option. -/
  | encoded (opt : IANAOption)
deriving DecidableEq

/-- An ADVERTISE or REPLY message. -/
structure Reply6 where
  advertise : Bool
  iana : RespIANA
  rapidCommit : Bool
  /-- The top-level status code. -/
  status : Option StatusCode
deriving DecidableEq

/-- A REPLY with an IA_NA option. -/
def Reply6.reply (iana : RespIANA) : Reply6 := ⟨false, iana, false, none⟩

/-- The REPLY of `newSuccessRespOpts`. -/
def Reply6.success (iana : RespIANA) : Reply6 := ⟨false, iana, false, some .success⟩

namespace DHCPServer

variable (env : Env6) (conf : ServerConf)

/-- `iaNAFromLease`.  The times are those of `newDHCPInterfaceV6`. -/
def iaNAFromLease (i : Ref) (lease : Option Lease) (iaid : UInt32) : RespIANA :=
  match lease with
  | none => .status iaid .noAddrsAvail
  | some l =>
    let ttl := (conf.iface i).leaseTTL
    .encoded ⟨[⟨l.ip, ttl, ttl⟩], iaid, ttl.tdiv 2, (ttl * 4).tdiv 5⟩

/-! ## Leases of DHCPv6 clients -/

/-- How `commit` ends. -/
inductive Committed
  | ok
  | failed
  /-- The source panics. -/
  | fault
deriving DecidableEq

/-- What `commit` makes of the lease: a hostname if it has no valid one, and a new expiry. -/
def committedLease (i : Ref) (req : Message6) (now : Time) (l : Lease) : Lease :=
  setExpiry (now + (conf.iface i).leaseTTL)
    { l with hostname :=
        if env.isValidHostname l.hostname then l.hostname
        else if env.isValidHostname (clientFQDN6 req) then clientFQDN6 req
        else Aghnet.generateHostname l.ip }

/-- The end of a `commit` that the index or the database refuses. -/
def uncommit (s : DHCPServer) (i r : Ref) : DHCPServer × Committed :=
  match s.ifaceRemoveLease conf i (s.lease r) with
  | .error .fault => (s, .fault)
  | .error _ => (s, .failed)
  | .ok s' => (s', .failed)

/-- `commit`.  `stored` is whether the database takes the leases. -/
def commit (s : DHCPServer) (i r : Ref) (req : Message6) (now : Time) (stored : Bool) : DHCPServer × Committed :=
  let s := s.modify r (committedLease env conf i req now)
  match s.indexUpdate env.toLower i r with
  | .error .fault => (s, .fault)
  | .error _ => s.uncommit conf i r
  | .ok s' => if stored then (s', .ok) else s'.uncommit conf i r

/-- `allocateForSolicit`.  The only error is the panic of the source. -/
def allocateForSolicit (s : DHCPServer) (i : Ref) (req : Message6) (now : Time) (order : List MacKey) :
    Except Err (DHCPServer × Option Ref) :=
  match (s.iface i).leases.get req.key with
  | some r => .ok (s, some r)
  | none =>
    match s.allocateLease env.toLower conf i req.srcMAC req.key now order with
    | .error .fault => .error .fault
    | .error _ => .ok (s, none)
    | .ok (s', r) => .ok (s', some r)

/-- The IA_NA option of a lease that is to be committed; `none` is for the panic of the source. -/
def commitIANA (s : DHCPServer) (i r : Ref) (req : Message6) (iaid : UInt32) (now : Time) (stored : Bool) :
    DHCPServer × Option RespIANA :=
  match s.commit env conf i r req now stored with
  | (s, .ok) => (s, some (iaNAFromLease conf i (s.lease r) iaid))
  | (s, .failed) => (s, some (.status iaid .noAddrsAvail))
  | (s, .fault) => (s, none)

/-- `ianaForRequest` -/
def ianaForRequest (s : DHCPServer) (i : Ref) (req : Message6) (iaid : UInt32) (now : Time) (order : List MacKey)
    (stored : Bool) : DHCPServer × Option RespIANA :=
  match (s.iface i).leases.get req.key with
  | some r => s.commitIANA env conf i r req iaid now stored
  | none =>
    match s.allocateLease env.toLower conf i req.srcMAC req.key now order with
    | .error .fault => (s, none)
    | .error _ => (s, some (.status iaid .noAddrsAvail))
    | .ok (s', r) => s'.commitIANA env conf i r req iaid now stored

/-- `ianaForUpdate` -/
def ianaForUpdate (s : DHCPServer) (i : Ref) (req : Message6) (reqIANA : IANAOption) (now : Time) (stored : Bool) :
    DHCPServer × Option RespIANA :=
  match reqIANA.requestedAddr with
  | none => (s, some .absent)
  | some reqIP =>
    match ((s.iface i).leases.get req.key).filter fun r => (s.lease r).ip == reqIP with
    | none => (s, some (.status reqIANA.id .noBinding))
    | some r => s.commitIANA env conf i r req reqIANA.id now stored

/-- `leaseForIANAAddr`: the identifier and the lease, if the message has an address. -/
def leaseForIANAAddr (s : DHCPServer) (i : Ref) (req : Message6) : Option (UInt32 × Option Ref) :=
  (firstIANAAddr req).map fun (iaid, ip) =>
    (iaid, ((s.iface i).leases.get req.key).filter fun r => (s.lease r).ip == ip)

/-! ## Handlers -/

/-- `handleSolicit` -/
def handleSolicit (s : DHCPServer) (i : Ref) (req : Message6) (now : Time) (order : List MacKey) (stored : Bool) :
    DHCPServer × Option Reply6 :=
  if clientIDNoServer env req.options = false then (s, none)
  else match firstIANA req with
    | none => (s, none)
    | some iana =>
      match s.allocateForSolicit env conf i req now order with
      | .error _ => (s, none)
      | .ok (s, none) => (s, some ⟨true, iaNAFromLease conf i none iana.id, false, none⟩)
      | .ok (s, some r) =>
        if (findOption6 req.options optRapidCommit).isNone then
          (s, some ⟨true, iaNAFromLease conf i (s.lease r) iana.id, false, none⟩)
        else match s.commit env conf i r req now stored with
          | (s, .ok) => (s, some ⟨false, iaNAFromLease conf i (s.lease r) iana.id, true, none⟩)
          | (s, .failed) => (s, some ⟨true, iaNAFromLease conf i none iana.id, false, none⟩)
          | (s, .fault) => (s, none)

/-- `handleRequest` -/
def handleRequest6 (s : DHCPServer) (i : Ref) (req : Message6) (now : Time) (order : List MacKey) (stored : Bool) :
    DHCPServer × Option Reply6 :=
  if clientIDMatchingServer env req.options req.duidData = false then (s, none)
  else match firstIANA req with
    | none => (s, some (.reply .absent))
    | some iana =>
      if iana.requestedAddr.any fun reqIP => !(conf.iface i).subnet.contains reqIP then
        (s, some (.reply (.status iana.id .notOnLink)))
      else
        let (s, respIANA) := s.ianaForRequest env conf i req iana.id now order stored
        (s, respIANA.map .reply)

/-- `handleRenew` and `handleRebind` of a message whose identifiers are fine. -/
def handleUpdate (s : DHCPServer) (i : Ref) (req : Message6) (now : Time) (stored : Bool) :
    DHCPServer × Option Reply6 :=
  match firstIANA req with
  | none => (s, some (.reply .absent))
  | some iana =>
    let (s, respIANA) := s.ianaForUpdate env conf i req iana now stored
    (s, respIANA.map .reply)

/-- `handleRenew` -/
def handleRenew6 (s : DHCPServer) (i : Ref) (req : Message6) (now : Time) (stored : Bool) :
    DHCPServer × Option Reply6 :=
  if clientIDMatchingServer env req.options req.duidData = false then (s, none)
  else s.handleUpdate env conf i req now stored

/-- `handleRebind` -/
def handleRebind6 (s : DHCPServer) (i : Ref) (req : Message6) (now : Time) (stored : Bool) :
    DHCPServer × Option Reply6 :=
  if clientIDNoServer env req.options = false then (s, none) else s.handleUpdate env conf i req now stored

/-- `confirmAddrsOnLink`: whether all addresses are on the link, if there are any. -/
def confirmAddrsOnLink (i : Ref) (req : Message6) : Option Bool :=
  match (req.options.filterMap iana?).flatMap IANAOption.nested with
  | [] => none
  | addrs => some (addrs.all fun a => (conf.iface i).subnet.contains a.addr)

/-- `handleConfirm` -/
def handleConfirm (i : Ref) (req : Message6) : Option Reply6 :=
  if clientIDNoServer env req.options = false then none
  else (confirmAddrsOnLink conf i req).map fun allOnLink =>
    ⟨false, .absent, false, if allOnLink then none else some .notOnLink⟩

/-- `handleInfo` -/
def handleInfo (req : Message6) : Option Reply6 :=
  if (serverDUID6 req.options).any (· != req.duidData) then none
  else if (findOption6 req.options optIANA).isSome then none
  else if (findOption6 req.options optIATA).isSome then none
  else some (.reply .absent)

/-- `handleRelease` -/
def handleRelease6 (s : DHCPServer) (i : Ref) (req : Message6) (stored : Bool) : DHCPServer × Option Reply6 :=
  if clientIDMatchingServer env req.options req.duidData = false then (s, none)
  else match s.leaseForIANAAddr i req with
    | none => (s, some (.success .absent))
    | some (iaid, none) => (s, some (.reply (.status iaid .noBinding)))
    | some (iaid, some r) =>
      match s.indexRemove env.toLower conf i (s.lease r) with
      | .error .fault => (s, none)
      | .error _ => (s, some (.reply (.status iaid .noBinding)))
      | .ok s' =>
        (s', some (if stored then .success (.encoded ⟨[], iaid, 0, 0⟩) else .reply (.status iaid .noBinding)))

/-- `handleDecline` -/
def handleDecline6 (s : DHCPServer) (i : Ref) (req : Message6) (now : Time) (stored : Bool) :
    DHCPServer × Option Reply6 :=
  if clientIDMatchingServer env req.options req.duidData = false then (s, none)
  else match s.leaseForIANAAddr i req with
    | none => (s, some (.success .absent))
    | some (iaid, none) => (s, some (.reply (.status iaid .noBinding)))
    | some (iaid, some r) =>
      match s.blockLease conf i r now with
      | .error .fault => (s, none)
      | .error _ => (s, some (.reply (.status iaid .noBinding)))
      | .ok s' =>
        (s', some (if stored then .success (.encoded ⟨[], iaid, 0, 0⟩) else .reply (.status iaid .noBinding)))

/-! ## Packets -/

/-- The types of the DHCPv4 messages that the server handles. -/
inductive MsgType4
  | discover
  | request
  | release
  | decline
deriving DecidableEq

/-- The types of the DHCPv6 messages that the server handles. -/
inductive MsgType6
  | solicit
  | request
  | confirm
  | renew
  | rebind
  | informationRequest
  | release
  | decline
deriving DecidableEq

inductive Content
  | v4 (typ : MsgType4) (req : Message)
  | v6 (typ : MsgType6) (req : Message6)

/-- A packet on an interface, with the reading of the clock, the order of the map of leases and whether the database
takes the leases. -/
structure Packet where
  iface : Ref
  now : Time
  order : List MacKey
  stored : Bool
  content : Content

inductive Reply
  | v4 (r : Reply4)
  | v6 (r : Reply6)
deriving DecidableEq

/-- `handleDHCPv4`.  The DHCPRELEASE and DHCPDECLINE messages are not answered. -/
def handleDHCPv4 (s : DHCPServer) (typ : MsgType4) (p : Packet) (req : Message) : DHCPServer × Option Reply4 :=
  match typ with
  | .discover => s.handleDiscover4 env.toLower conf p.iface req p.now p.order
  | .request => s.handleRequest4 env.toLower conf p.iface req p.now p.stored
  | .release => (s.handleRelease env.toLower conf p.iface req, none)
  | .decline => (s.handleDecline conf p.iface req p.now, none)

/-- `handleDHCPv6` -/
def handleDHCPv6 (s : DHCPServer) (typ : MsgType6) (p : Packet) (req : Message6) : DHCPServer × Option Reply6 :=
  match typ with
  | .solicit => s.handleSolicit env conf p.iface req p.now p.order p.stored
  | .request => s.handleRequest6 env conf p.iface req p.now p.order p.stored
  | .confirm => (s, handleConfirm env conf p.iface req)
  | .renew => s.handleRenew6 env conf p.iface req p.now p.stored
  | .rebind => s.handleRebind6 env conf p.iface req p.now p.stored
  | .informationRequest => (s, handleInfo req)
  | .release => s.handleRelease6 env conf p.iface req p.stored
  | .decline => s.handleDecline6 env conf p.iface req p.now p.stored

/-- A packet is handled by an interface of its family. -/
def serve (s : DHCPServer) (p : Packet) : DHCPServer × Option Reply :=
  match p.content with
  | .v4 typ req =>
    if p.iface ∈ conf.interfaces4 then
      let (s, reply) := s.handleDHCPv4 env conf typ p req
      (s, reply.map .v4)
    else (s, none)
  | .v6 typ req =>
    if p.iface ∈ conf.interfaces6 then
      let (s, reply) := s.handleDHCPv6 env conf typ p req
      (s, reply.map .v6)
    else (s, none)

end DHCPServer

end AdGuardHome.Dhcpsvc
