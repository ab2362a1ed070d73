import AdGuardHome.Dhcp.BitSet
import AdGuardHome.Dhcp.Lease
import AdGuardHome.Dhcpsvc.IPRange
import AdGuardHome.Lib.Heap
import AdGuardHome.Lib.Run

/-!
# The DHCP service

The lease operations of `dhcpsvc`: the index of the committed leases (`leaseindex.go`), the leases of each
network interface (`interface.go`), the handlers of the DHCPv4 messages (`handler4.go`) and the methods of the
server (`server.go`).  Leases are records on a heap; the index and the interfaces hold pointers to them.

The interfaces check addresses with `noopAddressChecker`, which finds every address available, so the loop of
`allocateLease` returns in its first turn.  A failure to store the database changes the result of an operation
and not the state.
-/

namespace AdGuardHome.Dhcpsvc

open AdGuardHome.Net AdGuardHome.Lib AdGuardHome.Dhcp

/-- What an interface is configured with. -/
structure IfaceConf where
  addrSpace : IPRange
  leaseTTL : Int
  subnet : Prefix

/-- The interfaces of each family, sorted by name. -/
structure ServerConf where
  iface : Ref → IfaceConf
  interfaces4 : List Ref
  interfaces6 : List Ref
  is4 : ∀ i ∈ interfaces4, (iface i).addrSpace.start.is4 = true
  is6 : ∀ i ∈ interfaces6, (iface i).addrSpace.start.is4 = false

/-- The leases of a `netInterface`. -/
structure NetInterface where
  leases : GoMap MacKey Ref
  leasedOffsets : BitSet

/-- `DHCPServer`, without the configuration. -/
structure DHCPServer where
  heap : Heap Lease
  byAddr : GoMap Addr Ref
  byName : GoMap GoString Ref
  ifaces : Heap NetInterface

/-- The errors of the lease operations. -/
inductive Err
  | ipExists
  | nameExists
  | macExists
  | noIP
  | noName
  | noMAC
  | noInterface
  | noAddresses
  /-- The source panics. -/
  | fault
deriving DecidableEq

namespace DHCPServer

-- `toLower` is `strings.ToLower`
variable (toLower : GoString → GoString) (conf : ServerConf)

/-- The record behind a pointer. -/
def lease (s : DHCPServer) (r : Ref) : Lease := s.heap.get r

def iface (s : DHCPServer) (i : Ref) : NetInterface := s.ifaces.get i

/-- Rewrites the record behind a pointer. -/
def modify (s : DHCPServer) (r : Ref) (f : Lease → Lease) : DHCPServer := { s with heap := s.heap.modify r f }

/-- Allocates a record; the pointer is `s.heap.next`. -/
def alloc (s : DHCPServer) (l : Lease) : DHCPServer := { s with heap := s.heap.alloc l }

def modifyIface (s : DHCPServer) (i : Ref) (f : NetInterface → NetInterface) : DHCPServer :=
  { s with ifaces := s.ifaces.modify i f }

/-- The state after an operation that may fail: a failed one changes nothing. -/
def orElse (s : DHCPServer) : Except Err DHCPServer → DHCPServer
  | .error _ => s
  | .ok s' => s'

/-! ## Interfaces -/

/-- The bit of an address; that of the first address of the range for one outside of it. -/
def bit (i : Ref) (ip : Addr) : BitVec 64 := ((conf.iface i).addrSpace.offset ip).1

/-- `netInterface.addLease`. -/
def ifaceAddLease (s : DHCPServer) (i r : Ref) : Except Err DHCPServer :=
  match macToKey (s.lease r).hwAddr with
  | none => .error .fault
  | some key =>
    if ((s.iface i).leases.get key).isSome then .error .macExists
    else .ok (s.modifyIface i fun n =>
      { leases := n.leases.set key r, leasedOffsets := n.leasedOffsets.set (bit conf i (s.lease r).ip) true })

/-- `netInterface.updateLease`: the previous lease and the state. -/
def ifaceUpdateLease (s : DHCPServer) (i r : Ref) : Except Err (Ref × DHCPServer) :=
  match macToKey (s.lease r).hwAddr with
  | none => .error .fault
  | some key =>
    match (s.iface i).leases.get key with
    | none => .error .noMAC
    | some prev => .ok (prev, s.modifyIface i fun n => { n with leases := n.leases.set key r })

/-- `netInterface.removeLease`. -/
def ifaceRemoveLease (s : DHCPServer) (i : Ref) (l : Lease) : Except Err DHCPServer :=
  match macToKey l.hwAddr with
  | none => .error .fault
  | some key =>
    if ((s.iface i).leases.get key).isNone then .error .noMAC
    else .ok (s.modifyIface i fun n =>
      { leases := n.leases.del key, leasedOffsets := n.leasedOffsets.set (bit conf i l.ip) false })

/-- `blockedHardwareAddr`. -/
def blockedHardwareAddr : HardwareAddr := List.replicate 6 0

/-- Marks the lease as blocked and removes it from the interface, but leaves it in the index. -/
def blockLease (s : DHCPServer) (i r : Ref) (now : Time) : Except Err DHCPServer :=
  match s.ifaceRemoveLease conf i (s.lease r) with
  | .error e => .error e
  | .ok s' => .ok (s'.modify r fun l =>
      { l with
        hwAddr := blockedHardwareAddr
        hostname := ""
        expiry := now + (conf.iface i).leaseTTL
        isStatic := false })

/-- The first address of the range whose bit is not set.  The source panics on an address outside of the
range, which is where a search goes that passes the last address there is. -/
def nextIP (s : DHCPServer) (i : Ref) : Except Err (Option Addr) :=
  let r := (conf.iface i).addrSpace
  match r.find fun ip => !(r.offset ip).2 || !(s.iface i).leasedOffsets.isSet (r.offset ip).1 with
  | some ip => if (r.offset ip).2 then .ok (some ip) else .error .fault
  | none => if r.wraps then .error .fault else .ok none

/-- The first expired lease, in an order of the map that starts with the given keys. -/
def findExpiredLease (s : DHCPServer) (i : Ref) (now : Time) (order : List MacKey) : Option Ref :=
  ((order ++ (s.iface i).leases.keys).filterMap (s.iface i).leases.get).find? fun r =>
    !(s.lease r).isStatic && decide ((s.lease r).expiry < now)

/-! ## The index -/

/-- `leaseIndex.add`. -/
def indexAdd (s : DHCPServer) (i r : Ref) : Except Err DHCPServer :=
  let l := s.lease r
  let loweredName := toLower l.hostname
  if (s.byAddr.get l.ip).isSome then .error .ipExists
  else if (s.byName.get loweredName).isSome then .error .nameExists
  else match s.ifaceAddLease conf i r with
    | .error e => .error e
    | .ok s' => .ok { s' with byAddr := s'.byAddr.set l.ip r, byName := s'.byName.set loweredName r }

/-- `leaseIndex.remove`. -/
def indexRemove (s : DHCPServer) (i : Ref) (l : Lease) : Except Err DHCPServer :=
  let loweredName := toLower l.hostname
  if (s.byAddr.get l.ip).isNone then .error .noIP
  else if (s.byName.get loweredName).isNone then .error .noName
  else match s.ifaceRemoveLease conf i l with
    | .error e => .error e
    | .ok s' => .ok { s' with byAddr := s'.byAddr.del l.ip, byName := s'.byName.del loweredName }

/-- Whether the index names a lease of another client. -/
def takenByOther (s : DHCPServer) (l : Lease) : Option Ref → Bool
  | none => false
  | some existing => l.hwAddr != (s.lease existing).hwAddr

/-- `leaseIndex.update`. -/
def indexUpdate (s : DHCPServer) (i r : Ref) : Except Err DHCPServer :=
  let l := s.lease r
  let loweredName := toLower l.hostname
  if s.takenByOther l (s.byAddr.get l.ip) then .error .ipExists
  else if s.takenByOther l (s.byName.get loweredName) then .error .nameExists
  else match s.ifaceUpdateLease i r with
    | .error e => .error e
    | .ok (prev, s') =>
      .ok { s' with
        byAddr := (s'.byAddr.del (s.lease prev).ip).set l.ip r
        byName := (s'.byName.del (toLower (s.lease prev).hostname)).set loweredName r }

/-! ## Allocation -/

/-- `reserveLease`: a new lease on a free address, else an expired one, which is removed from the index if it
is there. -/
def reserveLease (s : DHCPServer) (i : Ref) (mac : HardwareAddr) (key : MacKey) (now : Time) (order : List MacKey) :
    Except Err (DHCPServer × Ref) :=
  let ttl := (conf.iface i).leaseTTL
  match s.nextIP conf i with
  | .error e => .error e
  | .ok (some ip) =>
    .ok (s.alloc { (default : Lease) with hwAddr := mac, ip := ip, expiry := now + ttl }, s.heap.next)
  | .ok none =>
    match s.findExpiredLease i now order with
    | none => .error .noAddresses
    | some r =>
      let s' := s.orElse (s.indexRemove toLower conf i (s.lease r))
      let s' := s'.modify r fun l =>
        { l with hwAddr := mac, hostname := "", isStatic := false, expiry := now + ttl }
      .ok (s'.modifyIface i fun n => { n with leases := n.leases.set key r }, r)

/-- `allocateLease`, with `noopAddressChecker`. -/
def allocateLease (s : DHCPServer) (i : Ref) (mac : HardwareAddr) (key : MacKey) (now : Time) (order : List MacKey) :
    Except Err (DHCPServer × Ref) :=
  match s.reserveLease toLower conf i mac key now order with
  | .error e => .error e
  | .ok (s', r) =>
    .ok (s'.modifyIface i fun n =>
      { leases := n.leases.set key r, leasedOffsets := n.leasedOffsets.set (bit conf i (s'.lease r).ip) true }, r)

/-! ## DHCPv4 messages -/

/-- The parts of a DHCPv4 message that the handlers read, with the addresses of the device that it came from.
`none` is an absent address. -/
structure Message where
  mac : HardwareAddr
  requestedIP : Option (BitVec 32)
  clientIP : Option (BitVec 32)
  serverID : Option (BitVec 32)
  hostname : GoString
  deviceAddrs : List Addr

/-- `Lease.setExpiry`. -/
def setExpiry (expiry : Time) (l : Lease) : Lease := if l.isStatic then l else { l with expiry := expiry }

/-- `handleDiscover`. -/
def handleDiscover (s : DHCPServer) (i : Ref) (req : Message) (now : Time) (order : List MacKey) : DHCPServer :=
  match macToKey req.mac with
  | none => s
  | some key =>
    match (s.iface i).leases.get key with
    | some r => s.modify r (setExpiry (now + (conf.iface i).leaseTTL))
    | none =>
      match s.allocateLease toLower conf i req.mac key now order with
      | .error _ => s
      | .ok (s', _) => s'

/-- The address that a DHCPREQUEST is about and whether it is to be renewed, `none` if the message is skipped.
The source calls the three cases SELECTING, INIT-REBOOT and RENEWING or REBINDING. -/
def requestTarget (i : Ref) (req : Message) : Option (Addr × Bool) :=
  let ciaddr := req.clientIP.filter (· ≠ 0)
  match req.serverID.filter (· ≠ 0), req.requestedIP.filter (· ≠ 0), req.clientIP with
  | some srvID, _, _ =>
    if req.deviceAddrs.contains (.v4 srvID) && ciaddr.isNone then
      some (match req.requestedIP with
        | none => .invalid
        | some reqIP => .v4 reqIP, false)
    else none
  | none, some reqIP, _ =>
    if (conf.iface i).subnet.contains (.v4 reqIP) && ciaddr.isNone then some (.v4 reqIP, false) else none
  | none, none, some ip => if (conf.iface i).subnet.contains (.v4 ip) then some (.v4 ip, true) else none
  | none, none, none => none

/-- The lease of a client, if it is on the address. -/
def leaseByMacWithIP (s : DHCPServer) (i : Ref) (mac : HardwareAddr) (ip : Addr) : Option Ref :=
  match macToKey mac with
  | none => none
  | some key => ((s.iface i).leases.get key).filter fun r => (s.lease r).ip == ip

/-- What a DHCPREQUEST makes of a lease: the hostname of the message if there is one, and a new expiry if the
lease is renewed. -/
def requested (expiry : Time) (req : Message) (renew : Bool) (l : Lease) : Lease :=
  let l := { l with hostname := if req.hostname ≠ "" then req.hostname else l.hostname }
  if renew then setExpiry expiry l else l

/-- `handleRequest`. -/
def handleRequest (s : DHCPServer) (i : Ref) (req : Message) (now : Time) : DHCPServer :=
  match requestTarget conf i req with
  | none => s
  | some (ip, renew) =>
    match s.leaseByMacWithIP i req.mac ip with
    | none => s
    | some r =>
      -- the stored lease is rewritten before the index is asked to update it
      let s' := s.modify r (requested (now + (conf.iface i).leaseTTL) req renew)
      s'.orElse (s'.indexUpdate toLower i r)

/-- `handleDecline`. -/
def handleDecline (s : DHCPServer) (i : Ref) (req : Message) (now : Time) : DHCPServer :=
  match req.requestedIP with
  | none => s
  | some reqIP =>
    if (conf.iface i).subnet.contains (.v4 reqIP) = false then s
    else match s.leaseByMacWithIP i req.mac (.v4 reqIP) with
      | none => s
      | some r => s.orElse (s.blockLease conf i r now)

/-- `handleRelease`. -/
def handleRelease (s : DHCPServer) (i : Ref) (req : Message) : DHCPServer :=
  match req.clientIP with
  | none => s
  | some ip =>
    if (conf.iface i).subnet.contains (.v4 ip) = false then s
    else match s.leaseByMacWithIP i req.mac (.v4 ip) with
      | none => s
      | some r => s.orElse (s.indexRemove toLower conf i (s.lease r))

/-! ## Methods of the server -/

/-- The first interface of the family of the address that holds it. -/
def ifaceForAddr (ip : Addr) : Option Ref :=
  (if ip.is4 then conf.interfaces4 else conf.interfaces6).find? fun i => (conf.iface i).addrSpace.contains ip

/-- `AddLease`. -/
def addLease (s : DHCPServer) (l : Lease) : Except Err DHCPServer :=
  match ifaceForAddr conf l.ip with
  | none => .error .noInterface
  | some i => (s.alloc l).indexAdd toLower conf i s.heap.next

/-- `UpdateStaticLease`. -/
def updateStaticLease (s : DHCPServer) (l : Lease) : Except Err DHCPServer :=
  match ifaceForAddr conf l.ip with
  | none => .error .noInterface
  | some i => (s.alloc l).indexUpdate toLower i s.heap.next

/-- `RemoveLease`. -/
def removeLease (s : DHCPServer) (l : Lease) : Except Err DHCPServer :=
  match ifaceForAddr conf l.ip with
  | none => .error .noInterface
  | some i => s.indexRemove toLower conf i l

/-- `Reset`.  The offsets stay marked. -/
def reset (s : DHCPServer) : DHCPServer :=
  { s with
    byAddr := .empty
    byName := .empty
    ifaces := (conf.interfaces4 ++ conf.interfaces6).foldl
      (fun h i => h.modify i fun n => { n with leases := .empty }) s.ifaces }

/-- A server without leases. -/
def empty : DHCPServer := ⟨.empty, .empty, .empty, ⟨fun _ => ⟨.empty, .newBitSet⟩, 0⟩⟩

/-- `New`: the leases of the database are added one by one, those that cannot be added are skipped. -/
def new (db : List Lease) : DHCPServer := db.foldl (fun s l => s.orElse (s.addLease toLower conf l)) empty

/-! ## Runs -/

/-- An operation, with the reading of the clock and the order of the map. -/
inductive Op
  | discover (i : Ref) (req : Message) (now : Time) (order : List MacKey)
  | request (i : Ref) (req : Message) (now : Time)
  | decline (i : Ref) (req : Message) (now : Time)
  | release (i : Ref) (req : Message)
  | addLease (l : Lease)
  | updateStaticLease (l : Lease)
  | removeLease (l : Lease)
  | reset

/-- The state after an operation.  Only the IPv4 interfaces handle DHCPv4 messages. -/
def step (s : DHCPServer) : Op → DHCPServer
  | .discover i req now order =>
    if i ∈ conf.interfaces4 then s.handleDiscover toLower conf i req now order else s
  | .request i req now => if i ∈ conf.interfaces4 then s.handleRequest toLower conf i req now else s
  | .decline i req now => if i ∈ conf.interfaces4 then s.handleDecline conf i req now else s
  | .release i req => if i ∈ conf.interfaces4 then s.handleRelease toLower conf i req else s
  | .addLease l => s.orElse (s.addLease toLower conf l)
  | .updateStaticLease l => s.orElse (s.updateStaticLease toLower conf l)
  | .removeLease l => s.orElse (s.removeLease toLower conf l)
  | .reset => s.reset conf

end DHCPServer

end AdGuardHome.Dhcpsvc
