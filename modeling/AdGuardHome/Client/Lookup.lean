import AdGuardHome.Client.Storage
import AdGuardHome.Filtering.Result

/-!
# Looking up clients (`internal/client/index.go`, `storage.go`)

The searches of the index, each with an inner `none` for a nil client, and those of the storage that are built on
them.  `macByIP` is what the DHCP server knows.
-/

namespace AdGuardHome.Client

open AdGuardHome.Net AdGuardHome.Lib AdGuardHome.Filtering

namespace Index

def findByClientID (ci : Index) (clientID : ClientID) : Option (Option Persistent) :=
  (ci.clientIDToUID.get clientID).map ci.uidToClient.get

/-- The first subnet in the order of the index that contains the address without its zone. -/
def findSubnet (ci : Index) (ip : Addr) : Option (Prefix × UID) :=
  ci.subnetToUID.range.find? fun p => p.1.contains ip.withoutZone

def findByIP (ci : Index) (ip : Addr) : Option (Option Persistent) :=
  match ci.ipToUID.get ip with
  | some uid => some (ci.uidToClient.get uid)
  | none => (ci.findSubnet ip).map fun p => ci.uidToClient.get p.2

def findByCIDR (ci : Index) (subnet : Prefix) : Option (Option Persistent) :=
  (ci.subnetToUID.range.find? fun p => subnet == p.1).map fun p => ci.uidToClient.get p.2

def findByMAC (ci : Index) (mac : HardwareAddr) : Except Fault (Option (Option Persistent)) :=
  match macToKey mac with
  | none => .error (.panicMAC mac)
  | some k => .ok ((ci.macToUID.get k).map ci.uidToClient.get)

/-- `index.find`: the text may be of a ClientID, of an address or of a hardware address. -/
def find (ci : Index) (id : String) : Except Fault (Option (Option Persistent)) :=
  match ci.findByClientID id with
  | some c => .ok (some c)
  | none =>
    match (parseAddr id).bind ci.findByIP with
    | some c => .ok (some c)
    | none =>
      match parseMAC id with
      | some mac => ci.findByMAC mac
      | none => .ok none

/-- `findByIPWithoutZone`, with the entries of the map in the order of the loop over them. -/
def findByIPWithoutZone (ci : Index) (range : List (Addr × UID)) (ip : Addr) : Option Persistent :=
  if ip = .invalid then none
  else (range.find? fun e => e.1.withoutZone = ip).bind fun e => ci.uidToClient.get e.2

end Index

/-- `FindParams`; the zero value of a field is an absent parameter. -/
structure FindParams where
  clientID : ClientID := ""
  remoteIP : Addr := .invalid
  subnet : Prefix := ⟨.invalid, 0⟩
  mac : Option HardwareAddr := none

/-- `FindParams.Set`; `none` is the error for a bad identifier. -/
def FindParams.set (isValidClientID : String → Bool) (id : String) : Option FindParams :=
  if (parseAddr id).isSome ∨ (parseMAC id).isSome then
    some { remoteIP := (parseAddr id).getD .invalid, mac := parseMAC id }
  else
    match parsePrefix id with
    | some subnet => some { subnet := subnet }
    | none => if isValidClientID id then some { clientID := id } else none

namespace Storage

variable (macByIP : Addr → Option HardwareAddr)

def findByIP (s : Storage) (addr : Addr) : Except Fault (Option (Option Persistent)) :=
  match s.index.findByIP addr with
  | some c => .ok (some c)
  | none =>
    match macByIP addr with
    | some mac => s.index.findByMAC mac
    | none => .ok none

/-- The first lookup that finds something. -/
def firstFound : List (Except Fault (Option (Option Persistent))) → Except Fault (Option (Option Persistent))
  | [] => .ok none
  | .ok none :: lookups => firstFound lookups
  | res :: _ => res

/-- The lookups of `Find` for the parameters that are there. -/
def lookups (s : Storage) (params : FindParams) : List (Except Fault (Option (Option Persistent))) :=
  (if params.clientID ≠ "" then [.ok (s.index.findByClientID params.clientID)] else []) ++
    (if params.remoteIP ≠ .invalid then [s.findByIP macByIP params.remoteIP] else []) ++
    (if params.subnet ≠ ⟨.invalid, 0⟩ then [.ok (s.index.findByCIDR params.subnet)] else []) ++
    (match params.mac with
      | some mac => [s.index.findByMAC mac]
      | none => [])

/-- The client that a lookup has found; a nil one panics where a field of it is read. -/
def deref : Except Fault (Option (Option Persistent)) → Except Fault (Option Persistent)
  | .error e => .error e
  | .ok none => .ok none
  | .ok (some none) => .error .nilClient
  | .ok (some (some c)) => .ok (some c)

/-- `Storage.Find`.  A copy of a client is equal to it. -/
def find (s : Storage) (params : FindParams) : Except Fault (Option Persistent) :=
  deref (firstFound (s.lookups macByIP params))

/-- `Storage.FindLoose` -/
def findLoose (s : Storage) (range : List (Addr × UID)) (ip : Addr) (id : String) :
    Except Fault (Option Persistent) :=
  match s.index.find id with
  | .error e => .error e
  | .ok (some c) => deref (.ok (some c))
  | .ok none =>
    match macByIP ip with
    | some mac => deref (s.index.findByMAC mac)
    | none => .ok (s.index.findByIPWithoutZone range ip)

/-- The lookup of `CustomUpstreamConfig`. -/
def findForUpstreams (s : Storage) (id : String) (addr : Addr) : Except Fault (Option Persistent) :=
  deref <| match s.index.findByClientID id with
    | some c => .ok (some c)
    | none => s.findByIP macByIP addr

/-- The lookup of `ApplyClientFiltering`. -/
def findForFiltering (s : Storage) (id : String) (addr : Addr) : Except Fault (Option Persistent) :=
  deref <| match s.index.findByClientID id with
    | some c => .ok (some c)
    | none =>
      match s.index.findByIP addr with
      | some c => .ok (some c)
      | none =>
        match macByIP addr with
        | some mac => s.index.findByMAC mac
        | none => .ok none

/-- What `ApplyClientFiltering` does with the client it has found. -/
def applyClient (c : Persistent) (setts : Settings) : Settings :=
  let setts := if c.useOwnBlockedServices then { setts with blockedServices := c.blockedServices } else setts
  let setts := { setts with clientName := c.name, clientTags := c.tags }
  if !c.useOwnSettings then setts
  else { setts with
    filteringEnabled := c.filteringEnabled
    safeSearchEnabled := c.safeSearchConf.enabled
    clientSafeSearch := c.safeSearch
    safeBrowsingEnabled := c.safeBrowsingEnabled
    parentalEnabled := c.parentalEnabled }

/-- `Storage.ApplyClientFiltering` -/
def applyClientFiltering (s : Storage) (id : String) (addr : Addr) (setts : Settings) :
    Except Fault Settings :=
  match s.findForFiltering macByIP id addr with
  | .error e => .error e
  | .ok none => .ok setts
  | .ok (some c) => .ok (applyClient c setts)

end Storage

end AdGuardHome.Client
