import AdGuardHome.Client.Lookup
import AdGuardHome.Lib.Run

/-!
# Runtime clients (`internal/client/runtimeindex.go`, `client.go`, `storage.go`)

A runtime client has data from several sources: the WHOIS service, the ARP table, reverse lookups, the DHCP server
and the hosts files.  A reload of one source takes its data from all clients, adds the new data and deletes the
clients that are left without any.  It touches the data of no other source.
-/

namespace AdGuardHome.Client

open AdGuardHome.Net AdGuardHome.Lib

/-- `Source` -/
inductive Source
  | whois
  | arp
  | rdns
  | dhcp
  | hostsFile
  | persistent
deriving DecidableEq

/-- `whois.Info` -/
structure WhoisInfo where
  city : String
  country : String
  orgname : String
deriving DecidableEq

/-- `Runtime`.  `none` is a nil slice or pointer: no information from the source. -/
structure Runtime where
  ip : Addr
  whois : Option WhoisInfo
  arp : Option (List String)
  rdns : Option (List String)
  dhcp : Option (List String)
  hostsFile : Option (List String)
deriving DecidableEq

namespace Runtime

/-- `NewRuntime` -/
def new (ip : Addr) : Runtime := ⟨ip, none, none, none, none, none⟩

/-- The slice of a source. -/
def names (r : Runtime) : Source → Option (List String)
  | .arp => r.arp
  | .rdns => r.rdns
  | .dhcp => r.dhcp
  | .hostsFile => r.hostsFile
  | .whois => none
  | .persistent => none

/-- `Runtime.Info`: the source of the highest priority, `none` for the zero value, and its first name. -/
def info (r : Runtime) : Option Source × String :=
  let (cs, info) :=
    match r.hostsFile, r.dhcp, r.rdns, r.arp, r.whois with
    | some info, _, _, _, _ => (some Source.hostsFile, info)
    | none, some info, _, _, _ => (some .dhcp, info)
    | none, none, some info, _, _ => (some .rdns, info)
    | none, none, none, some info, _ => (some .arp, info)
    | none, none, none, none, some _ => (some .whois, [])
    | none, none, none, none, none => (none, [])
  (cs, info.headD "")

/-- What `setInfo` stores for a list of hosts: one empty host is data that is present, but empty. -/
def cleanHosts (hosts : List String) : List String := if hosts = [""] then [] else hosts

/-- `Runtime.setInfo` -/
def setInfo (r : Runtime) (cs : Source) (hosts : List String) : Runtime :=
  match cs with
  | .arp => { r with arp := some (cleanHosts hosts) }
  | .rdns => { r with rdns := some (cleanHosts hosts) }
  | .dhcp => { r with dhcp := some (cleanHosts hosts) }
  | .hostsFile => { r with hostsFile := some (cleanHosts hosts) }
  | .whois => r
  | .persistent => r

/-- `Runtime.setWHOIS` -/
def setWHOIS (r : Runtime) (info : WhoisInfo) : Runtime := { r with whois := some info }

/-- `Runtime.unset` -/
def unset (r : Runtime) : Source → Runtime
  | .whois => { r with whois := none }
  | .arp => { r with arp := none }
  | .rdns => { r with rdns := none }
  | .dhcp => { r with dhcp := none }
  | .hostsFile => { r with hostsFile := none }
  | .persistent => r

/-- `Runtime.isEmpty` -/
def isEmpty (r : Runtime) : Bool :=
  r.whois.isNone && r.arp.isNone && r.rdns.isNone && r.dhcp.isNone && r.hostsFile.isNone

end Runtime

/-! ## The index -/

/-- `runtimeIndex` -/
structure RuntimeIndex where
  index : GoMap Addr Runtime

namespace RuntimeIndex

/-- `newRuntimeIndex` -/
def new : RuntimeIndex := ⟨GoMap.empty⟩

/-- `runtimeIndex.client` -/
def client (ri : RuntimeIndex) (ip : Addr) : Option Runtime := ri.index.get ip

/-- The client of an address, or a new one, after a change. -/
def modify (ri : RuntimeIndex) (ip : Addr) (f : Runtime → Runtime) : RuntimeIndex :=
  ⟨ri.index.set ip (f ((ri.client ip).getD (Runtime.new ip)))⟩

/-- `runtimeIndex.setInfo` -/
def setInfo (ri : RuntimeIndex) (ip : Addr) (cs : Source) (hosts : List String) : RuntimeIndex :=
  ri.modify ip fun rc => rc.setInfo cs hosts

/-- `runtimeIndex.clearSource` -/
def clearSource (ri : RuntimeIndex) (src : Source) : RuntimeIndex :=
  ⟨ri.index.entries.foldl (fun m e => m.set e.1 (e.2.unset src)) ri.index⟩

/-- `runtimeIndex.removeEmpty` -/
def removeEmpty (ri : RuntimeIndex) : RuntimeIndex := ⟨ri.index.delWhere fun _ rc => rc.isEmpty⟩

end RuntimeIndex

/-! ## The storage -/

/-- `hostsfile.DefaultStorage`: the names of every address that a hosts file has, a first one and the others. -/
abbrev HostsStorage := GoMap Addr (String × List String)

namespace HostsStorage

/-- `DefaultStorage.Add`: the names of a record go behind those that its address has already. -/
def add (hosts : HostsStorage) (rec : Addr × String × List String) : HostsStorage :=
  hosts.set rec.1 (match hosts.get rec.1 with
    | none => rec.2
    | some (name, names) => (name, names ++ rec.2.1 :: rec.2.2))

/-- The storage of the records of a hosts file. -/
def ofRecords (records : List (Addr × String × List String)) : HostsStorage := records.foldl add GoMap.empty

/-- `DefaultStorage.RangeNames`: every address once, with all its names. -/
def rangeNames (hosts : HostsStorage) : List (Addr × String × List String) := hosts.entries.map fun e => (e.1, e.2)

end HostsStorage

/-- A reload of a source: the neighbors of the ARP table, the records of a hosts file with the first and the other
names of their addresses, or the DHCP leases. -/
inductive Reload
  | arp (ns : List (Addr × String))
  | hostsFile (records : List (Addr × String × List String))
  | dhcp (leases : List (Addr × String))

namespace Reload

def source : Reload → Source
  | arp _ => .arp
  | hostsFile _ => .hostsFile
  | dhcp _ => .dhcp

/-- The addresses with the names that the storage takes: in a hosts file the first one of each address. -/
def pairs : Reload → List (Addr × String)
  | arp ns => ns
  | hostsFile records => (HostsStorage.ofRecords records).rangeNames.map fun call => (call.1, call.2.1)
  | dhcp leases => leases

/-- The addresses with all their names, in the order of the reload. -/
def allPairs : Reload → List (Addr × String)
  | arp ns => ns
  | hostsFile records => records.flatMap fun rec => (rec.2.1 :: rec.2.2).map fun name => (rec.1, name)
  | dhcp leases => leases

end Reload

/-- `Storage`, with what the runtime clients need. -/
structure RuntimeStorage where
  runtimeIndex : RuntimeIndex
  /-- Whether the ARP database has not been replaced with an empty one. -/
  arpDB : Bool

namespace RuntimeStorage

/-- `NewStorage`, before the ARP table is loaded. -/
def new : RuntimeStorage := ⟨RuntimeIndex.new, true⟩

/-- The body that the three reloads have in common. -/
def reloadSource (ri : RuntimeIndex) (src : Source) (pairs : List (Addr × String)) : RuntimeIndex :=
  (pairs.foldl (fun ri p => ri.setInfo p.1 src [p.2]) (ri.clearSource src)).removeEmpty

/-- `addFromSystemARP`, after the database is refreshed. -/
def addFromSystemARP (ri : RuntimeIndex) (ns : List (Addr × String)) : RuntimeIndex :=
  if ns.isEmpty then ri else reloadSource ri .arp ns

/-- `addFromHostsFile` -/
def addFromHostsFile (ri : RuntimeIndex) (hosts : HostsStorage) : RuntimeIndex :=
  reloadSource ri .hostsFile (hosts.rangeNames.map fun call => (call.1, call.2.1))

/-- `UpdateDHCP`, where the DHCP server is a source of runtime clients. -/
def updateDHCP (ri : RuntimeIndex) (leases : List (Addr × String)) : RuntimeIndex := reloadSource ri .dhcp leases

/-- Processes a reload. -/
def reload (ri : RuntimeIndex) : Reload → RuntimeIndex
  | .arp ns => addFromSystemARP ri ns
  | .hostsFile records => addFromHostsFile ri (HostsStorage.ofRecords records)
  | .dhcp leases => updateDHCP ri leases

/-- `ReloadARP`, with what the refreshed database has, `none` if the refresh fails. -/
def reloadARP (s : RuntimeStorage) : Option (List (Addr × String)) → RuntimeStorage
  | none => { s with arpDB := false }
  | some ns => if s.arpDB then { s with runtimeIndex := addFromSystemARP s.runtimeIndex ns } else s

/-- `UpdateAddress`, with the persistent clients of the moment.  An empty host and no info change nothing. -/
def updateAddress (s : RuntimeStorage) (index : Index) (ip : Addr) (host : String) (info : Option WhoisInfo) :
    RuntimeStorage :=
  let ri := if host ≠ "" then s.runtimeIndex.setInfo ip .rdns [host] else s.runtimeIndex
  match info with
  | none => { s with runtimeIndex := ri }
  | some info =>
    if (index.findByIP ip).isSome then { s with runtimeIndex := ri }
    else { s with runtimeIndex := ri.modify ip fun rc => rc.setWHOIS info }

/-- `ClientRuntime`, where `host` is what the DHCP server has for the address: the client and the storage. -/
def clientRuntime (runtimeSourceDHCP : Bool) (s : RuntimeStorage) (ip : Addr) (host : String) :
    RuntimeStorage × Option Runtime :=
  let rc := s.runtimeIndex.client ip
  if !runtimeSourceDHCP then (s, rc)
  else if (rc.bind Runtime.hostsFile).isSome then (s, rc)
  else if host = "" then (s, rc)
  else
    let ri := s.runtimeIndex.setInfo ip .dhcp [host]
    ({ s with runtimeIndex := ri }, ri.client ip)

/-- An operation on the runtime clients, with what the other parts of the program answer. -/
inductive Op
  | reloadARP (refreshed : Option (List (Addr × String)))
  | hostsFile (records : List (Addr × String × List String))
  | updateDHCP (leases : List (Addr × String))
  | updateAddress (index : Index) (ip : Addr) (host : String) (info : Option WhoisInfo)
  | clientRuntime (ip : Addr) (host : String)

/-- The storage after an operation. -/
def step (runtimeSourceDHCP : Bool) (s : RuntimeStorage) : Op → RuntimeStorage
  | .reloadARP refreshed => s.reloadARP refreshed
  | .hostsFile records =>
    { s with runtimeIndex := addFromHostsFile s.runtimeIndex (HostsStorage.ofRecords records) }
  | .updateDHCP leases =>
    if runtimeSourceDHCP then { s with runtimeIndex := updateDHCP s.runtimeIndex leases } else s
  | .updateAddress index ip host info => s.updateAddress index ip host info
  | .clientRuntime ip host => (s.clientRuntime runtimeSourceDHCP ip host).1

end RuntimeStorage

/-! ## The data of an address -/

namespace RuntimeIndex

/-- The names of an address from a source. -/
def names (ri : RuntimeIndex) (ip : Addr) (src : Source) : Option (List String) :=
  (ri.client ip).bind fun rc => rc.names src

def whois (ri : RuntimeIndex) (ip : Addr) : Option WhoisInfo := (ri.client ip).bind Runtime.whois

/-- Some source has data for the address. -/
def HasData (ri : RuntimeIndex) (ip : Addr) : Prop := (ri.whois ip).isSome ∨ ∃ src, (ri.names ip src).isSome

/-- The clients are under their addresses, and just those are stored that have data. -/
structure Tidy (ri : RuntimeIndex) : Prop where
  ip : ∀ ip rc, ri.client ip = some rc → rc.ip = ip
  stored : ∀ ip, (ri.client ip).isSome ↔ ri.HasData ip

end RuntimeIndex

end AdGuardHome.Client
