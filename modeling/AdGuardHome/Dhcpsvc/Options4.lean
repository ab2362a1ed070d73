import AdGuardHome.Aghnet.IPMut
import AdGuardHome.Dhcp.Lease
import AdGuardHome.Dhcpsvc.Options6
import AdGuardHome.Lib.SortFunc
import AdGuardHome.Lib.SortedTable

/-!
# The options of DHCPv4 responses

`options4.go`: the default values of the options that clients can ask for, the configured options, and the lists that
DHCPOFFER and DHCPACK messages have.
-/

namespace AdGuardHome.Dhcpsvc

open AdGuardHome.Net AdGuardHome.Aghnet AdGuardHome.Dhcp AdGuardHome.Lib

/-- `layers.DHCPOption` -/
structure DHCPOption where
  type : UInt8
  length : UInt8
  data : List UInt8
deriving DecidableEq

/-- `layers.NewDHCPOption` -/
def newDHCPOption (type : UInt8) (data : List UInt8) : DHCPOption := ⟨type, UInt8.ofNat data.length, data⟩

namespace DHCPOpt

def subnetMask : UInt8 := 1
def router : UInt8 := 3
def hostname : UInt8 := 12
def ipForwarding : UInt8 := 19
def sourceRouting : UInt8 := 20
def datagramMTU : UInt8 := 22
def defaultTTL : UInt8 := 23
def pathMTUAgingTimeout : UInt8 := 24
def pathPlateuTableOption : UInt8 := 25
def allSubsLocal : UInt8 := 27
def broadcastAddr : UInt8 := 28
def maskDiscovery : UInt8 := 29
def maskSupplier : UInt8 := 30
def routerDiscovery : UInt8 := 31
def solicitAddr : UInt8 := 32
def arpTrailers : UInt8 := 34
def arpTimeout : UInt8 := 35
def ethernetEncap : UInt8 := 36
def tcpTTL : UInt8 := 37
def tcpKeepAliveInt : UInt8 := 38
def tcpKeepAliveGarbage : UInt8 := 39
def leaseTime : UInt8 := 51
def messageType : UInt8 := 53
def serverID : UInt8 := 54
def paramsRequest : UInt8 := 55
def clientID : UInt8 := 61

end DHCPOpt

/-- `layers.DHCPMsgTypeOffer` -/
def msgTypeOffer : UInt8 := 2

/-- `layers.DHCPMsgTypeAck` -/
def msgTypeAck : UInt8 := 5

/-! ## Configured options -/

/-- The part of the configuration that the options are made of. -/
structure IPv4Config where
  gatewayIP : Addr
  subnetMask : Addr
  options : List DHCPOption

def compareV4OptionCodes (a b : DHCPOption) : ℤ := (a.type.toNat : ℤ) - b.type.toNat

/-- The key that `compareV4OptionCodes` compares. -/
def DHCPOption.code (o : DHCPOption) : ℕ := o.type.toNat

def IPv4Config.appendConfOptions (c : IPv4Config) (orig : List DHCPOption) : List DHCPOption :=
  orig ++ [
    newDHCPOption DHCPOpt.subnetMask (asSlice c.subnetMask),
    newDHCPOption DHCPOpt.router (asSlice c.gatewayIP)]

def appendIPPerHostOptions (orig : List DHCPOption) : List DHCPOption :=
  orig ++ [
    newDHCPOption DHCPOpt.ipForwarding [0x0],
    newDHCPOption DHCPOpt.sourceRouting [0x0],
    newDHCPOption DHCPOpt.datagramMTU [0x2, 0x40],
    newDHCPOption DHCPOpt.defaultTTL [0x40],
    newDHCPOption DHCPOpt.pathMTUAgingTimeout [0x0, 0x0, 0x2, 0x58],
    newDHCPOption DHCPOpt.pathPlateuTableOption [
      0x0, 0x44,
      0x1, 0x28,
      0x1, 0xFC,
      0x3, 0xEE,
      0x5, 0xD4,
      0x7, 0xD2,
      0x11, 0x0,
      0x1F, 0xE6,
      0x45, 0xFA]]

def appendIPPerInterfaceOptions (orig : List DHCPOption) : List DHCPOption :=
  orig ++ [
    newDHCPOption DHCPOpt.allSubsLocal [0x0],
    newDHCPOption DHCPOpt.maskDiscovery [0x0],
    newDHCPOption DHCPOpt.maskSupplier [0x0],
    newDHCPOption DHCPOpt.routerDiscovery [0x1],
    newDHCPOption DHCPOpt.solicitAddr [224, 0, 0, 2],
    newDHCPOption DHCPOpt.broadcastAddr [255, 255, 255, 255]]

def appendLinkPerInterfaceOptions (orig : List DHCPOption) : List DHCPOption :=
  orig ++ [
    newDHCPOption DHCPOpt.arpTrailers [0x0],
    newDHCPOption DHCPOpt.arpTimeout [0x0, 0x0, 0x0, 0x3C],
    newDHCPOption DHCPOpt.ethernetEncap [0x0]]

def appendTCPPerHostOptions (orig : List DHCPOption) : List DHCPOption :=
  orig ++ [
    newDHCPOption DHCPOpt.tcpTTL [0x0, 0x0, 0x0, 0x3C],
    newDHCPOption DHCPOpt.tcpKeepAliveInt [0x0, 0x0, 0x1C, 0x20],
    newDHCPOption DHCPOpt.tcpKeepAliveGarbage [0x1]]

/-- The implicit options in the order in which they are appended. -/
def IPv4Config.unsortedOptions (c : IPv4Config) : List DHCPOption :=
  appendTCPPerHostOptions <| appendLinkPerInterfaceOptions <| appendIPPerInterfaceOptions <|
    appendIPPerHostOptions <| c.appendConfOptions []

def IPv4Config.implicitOptions (sort : SortFunc) (c : IPv4Config) : List DHCPOption :=
  sort.sort compareV4OptionCodes c.unsortedOptions

/-- A turn of the loop of `options`: the implicit and the explicit options. -/
def setOption (opts : List DHCPOption × List DHCPOption) (o : DHCPOption) : List DHCPOption × List DHCPOption :=
  let (imp, exp) := opts
  let (i, found) := searchBy DHCPOption.code imp o.code
  let imp := if found then imp.eraseIdx i else imp
  let (i, found) := searchBy DHCPOption.code exp o.code
  let exp :=
    if found then exp.modify i fun e => { e with data := o.data, length := o.length }
    else exp.insertIdx i o
  (imp, exp)

/-- `options`: the implicit and the explicit options of an interface. -/
def IPv4Config.allOptions (sort : SortFunc) (c : IPv4Config) : List DHCPOption × List DHCPOption :=
  c.options.foldl setOption (c.implicitOptions sort, [])

/-! ## Responses -/

/-- The parts of `dhcpInterfaceV4` that responses are made of. -/
structure DhcpInterfaceV4 where
  leaseTTL : Duration
  implicitOpts : List DHCPOption
  explicitOpts : List DHCPOption

def newDHCPInterfaceV4 (sort : SortFunc) (conf : IPv4Config) (leaseTTL : Duration) : DhcpInterfaceV4 :=
  ⟨leaseTTL, (conf.allOptions sort).1, (conf.allOptions sort).2⟩

/-- The codes in the first option for requested parameters that is not empty. -/
def requestedOptions4 (options : List DHCPOption) : List UInt8 :=
  match options.find? fun opt => opt.type = DHCPOpt.paramsRequest && opt.data ≠ [] with
  | some opt => opt.data
  | none => []

/-- A turn of the second loop of `appendRequestedOptions`. -/
def appendExplicit (opts : List DHCPOption) (opt : DHCPOption) : List DHCPOption :=
  if opt.data ≠ [] then opts ++ [opt] else opts.filter fun o => !(o.type = opt.type)

/-- `options` are those of the request. -/
def DhcpInterfaceV4.appendRequestedOptions (iface : DhcpInterfaceV4) (opts options : List DHCPOption) :
    List DHCPOption :=
  let requested := (requestedOptions4 options).filterMap fun code =>
    let (i, has) := searchBy DHCPOption.code iface.implicitOpts code.toNat
    if has then iface.implicitOpts[i]? else none
  iface.explicitOpts.foldl appendExplicit (opts ++ requested)

def newRespOptions (mt : UInt8) (localAddr : Addr) (idOpt : List UInt8) : List DHCPOption :=
  let opts := [newDHCPOption DHCPOpt.messageType [mt], newDHCPOption DHCPOpt.serverID (asSlice localAddr)]
  if idOpt ≠ [] then opts ++ [newDHCPOption DHCPOpt.clientID idOpt] else opts

def DhcpInterfaceV4.appendTimeOptions (iface : DhcpInterfaceV4) (opts : List DHCPOption) (lease : Lease) (now : Time) :
    List DHCPOption :=
  let dur : Duration := if lease.isStatic then iface.leaseTTL else max (lease.expiry - now) 0
  opts ++ [newDHCPOption DHCPOpt.leaseTime (toBigEndian 4 (seconds dur))]

def appendHostnameOption (opts : List DHCPOption) (hostname : GoString) : List DHCPOption :=
  if hostname = "" then opts else opts ++ [newDHCPOption DHCPOpt.hostname hostname.bytes]

/-- What a response is made of: the options of the request, the address of the server, the lease, the time and the
client identifier. -/
structure RespArgs where
  options : List DHCPOption
  localAddr : Addr
  lease : Lease
  now : Time
  idOpt : List UInt8

/-- The options of the message that `respondOffer` sends. -/
def DhcpInterfaceV4.respondOffer (iface : DhcpInterfaceV4) (a : RespArgs) : List DHCPOption :=
  let opts := newRespOptions msgTypeOffer a.localAddr a.idOpt
  let opts := iface.appendTimeOptions opts a.lease a.now
  let opts := appendHostnameOption opts a.lease.hostname
  iface.appendRequestedOptions opts a.options

/-- The options of the message that `respondACK` sends. -/
def DhcpInterfaceV4.respondACK (iface : DhcpInterfaceV4) (a : RespArgs) : List DHCPOption :=
  let opts := newRespOptions msgTypeAck a.localAddr a.idOpt
  let opts := iface.appendTimeOptions opts a.lease a.now
  let opts := iface.appendRequestedOptions opts a.options
  appendHostnameOption opts a.lease.hostname

end AdGuardHome.Dhcpsvc
