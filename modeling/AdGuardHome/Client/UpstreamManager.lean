import AdGuardHome.Aghnet.Addr
import AdGuardHome.Client.Lookup

/-!
# Custom upstreams of clients (`internal/client/upstreammanager.go`)

The manager and the storage with it.  The configurations that the manager builds are numbered in the order in which
they are built, so that `built` is the memory they live in and a number is a pointer; `closed` are those whose `Close`
has been called.  The clock is a function of the number of its readings.
-/

namespace AdGuardHome.Client

open AdGuardHome.Net AdGuardHome.Lib AdGuardHome.Aghnet

structure CommonUpstreamConfig where
  /-- The number of the resolver. -/
  bootstrap : ℕ
  upstreamTimeout : ℤ
  bootstrapPreferIPv6 : Bool
  ednsClientSubnetEnabled : Bool
  useHTTP3Upstreams : Bool
deriving DecidableEq

/-- `proxy.CustomUpstreamConfig`, with what it has been built from. -/
structure ProxyConf where
  upstreams : List String
  /-- The options, of which the cache and the subnet options are not used. -/
  options : CommonUpstreamConfig
  clientName : String
  cacheEnabled : Bool
  cacheSize : ℕ
  ednsClientSubnetEnabled : Bool
  /-- The client that it has been built for.  Not in the source. -/
  uid : UID
deriving DecidableEq

structure CustomUpstreamConfig where
  proxyConf : Option ℕ
  commonConfUpdate : ℕ
  upstreams : List String
  upstreamsCacheSize : UInt32
  upstreamsCacheEnabled : Bool
  isChanged : Bool
deriving DecidableEq

structure UpstreamManager where
  uidToCustomConf : GoMap UID CustomUpstreamConfig
  commonConf : Option CommonUpstreamConfig
  /-- The zero time before the first update. -/
  confUpdate : ℕ
  /-- The number of readings of the clock. -/
  readings : ℕ
  built : List ProxyConf
  closed : List ℕ

/-- How `customUpstreamConfig` can panic. -/
inductive UpstreamFault
  /-- A field of a nil common configuration is read. -/
  | nilConf
  /-- `creating custom upstream config: %w` -/
  | parse (err : String)
deriving DecidableEq

namespace UpstreamManager

/-- `newUpstreamManager` -/
def new : UpstreamManager := ⟨.empty, none, 0, 0, [], []⟩

section Operations

variable (clock : ℕ → ℕ) (parseUpstreams : List String → Option String)

def updateCommonUpstreamConfig (m : UpstreamManager) (conf : CommonUpstreamConfig) : UpstreamManager :=
  { m with commonConf := some conf, confUpdate := clock m.readings, readings := m.readings + 1 }

def updateCustomUpstreamConfig (m : UpstreamManager) (c : Persistent) : UpstreamManager :=
  let cliConf := (m.uidToCustomConf.get c.uid).getD ⟨none, m.confUpdate, [], 0, false, false⟩
  { m with uidToCustomConf := m.uidToCustomConf.set c.uid { cliConf with
      upstreams := c.upstreams
      upstreamsCacheSize := c.upstreamsCacheSize
      upstreamsCacheEnabled := c.upstreamsCacheEnabled
      isChanged := true } }

def isConfigChanged (m : UpstreamManager) (cliConf : CustomUpstreamConfig) : Bool :=
  m.confUpdate != cliConf.commonConfUpdate || cliConf.isChanged

/-- `newCustomUpstreamConfig` for the client. -/
def newCustomUpstreamConfig (uid : UID) (cliConf : CustomUpstreamConfig) (conf : Option CommonUpstreamConfig)
    (clientName : String) : Except UpstreamFault (Option ProxyConf) :=
  if filterOutComments cliConf.upstreams = [] then .ok none
  else
    match conf with
    | none => .error .nilConf
    | some conf =>
      match parseUpstreams (filterOutComments cliConf.upstreams) with
      | some err => .error (.parse err)
      | none => .ok (some {
          upstreams := filterOutComments cliConf.upstreams
          options := conf
          clientName := clientName
          cacheEnabled := cliConf.upstreamsCacheEnabled
          cacheSize := cliConf.upstreamsCacheSize.toNat
          ednsClientSubnetEnabled := conf.ednsClientSubnetEnabled
          uid := uid })

/-- `Close` on a configuration, if there is one. -/
def close (m : UpstreamManager) (proxyConf : Option ℕ) : UpstreamManager :=
  match proxyConf with
  | some i => { m with closed := i :: m.closed }
  | none => m

/-- The new configuration in memory, with the pointer to it. -/
def store (m : UpstreamManager) : Option ProxyConf → UpstreamManager × Option ℕ
  | some conf => ({ m with built := m.built ++ [conf] }, some m.built.length)
  | none => (m, none)

/-- `customUpstreamConfig` -/
def customUpstreamConfig (m : UpstreamManager) (uid : UID) (clientName : String) :
    UpstreamManager × Except UpstreamFault (Option ℕ) :=
  match m.uidToCustomConf.get uid with
  | none => (m, .ok none)
  | some cliConf =>
    if !m.isConfigChanged cliConf then (m, .ok cliConf.proxyConf)
    else
      let m := m.close cliConf.proxyConf
      match newCustomUpstreamConfig parseUpstreams uid cliConf m.commonConf clientName with
      | .error e => (m, .error e)
      | .ok conf =>
        let (m, proxyConf) := m.store conf
        ({ m with uidToCustomConf := m.uidToCustomConf.set uid { cliConf with
            proxyConf := proxyConf
            commonConfUpdate := m.confUpdate
            isChanged := false } }, .ok proxyConf)

def remove (m : UpstreamManager) (uid : UID) : UpstreamManager :=
  match m.uidToCustomConf.get uid with
  | none => m
  | some cliConf => { m with uidToCustomConf := m.uidToCustomConf.del uid }.close cliConf.proxyConf

end Operations

end UpstreamManager

/-! ## The storage with the manager -/

/-- How a call of the storage can fail. -/
inductive CallFault
  | storage (e : Fault)
  | upstreams (e : UpstreamFault)
deriving DecidableEq

structure StorageWithUpstreams extends Storage where
  upstreamManager : UpstreamManager

namespace StorageWithUpstreams

def new : StorageWithUpstreams := ⟨.new, .new⟩

section Operations

variable (clock : ℕ → ℕ) (parseUpstreams : List String → Option String)

/-- `Storage.Add` -/
def add (s : StorageWithUpstreams) (p : Persistent) : StorageWithUpstreams × Except Fault Unit :=
  match s.toStorage.add parseUpstreams p with
  | (st, .error e) => (⟨st, s.upstreamManager⟩, .error e)
  | (st, .ok ()) => (⟨st, s.upstreamManager.updateCustomUpstreamConfig p⟩, .ok ())

/-- The loop of `NewStorage` over the initial clients. -/
def addInitial (s : StorageWithUpstreams) : List Persistent → Except Fault StorageWithUpstreams
  | [] => .ok s
  | p :: ps =>
    match s.add parseUpstreams p with
    | (_, .error e) => .error e
    | (s, .ok ()) => s.addInitial ps

/-- `NewStorage` -/
def newStorage (initialClients : List Persistent) : Except Fault StorageWithUpstreams :=
  addInitial parseUpstreams new initialClients

/-- The client that `findByName` finds, if it is not nil. -/
def stored (s : StorageWithUpstreams) (name : String) : Option Persistent := (s.index.findByName name).join

/-- `Storage.Update` -/
def update (s : StorageWithUpstreams) (name : String) (p : Persistent) :
    StorageWithUpstreams × Except Fault Unit :=
  match s.stored name, s.toStorage.update parseUpstreams name p with
  | some stored, (st, .ok ()) =>
    (⟨st, s.upstreamManager.updateCustomUpstreamConfig { p with uid := stored.uid }⟩, .ok ())
  | _, (st, res) => (⟨st, s.upstreamManager⟩, res)

/-- `Storage.RemoveByName` -/
def removeByName (s : StorageWithUpstreams) (name : String) : StorageWithUpstreams × Except Fault Bool :=
  match s.stored name, s.toStorage.removeByName name with
  | some p, (st, .ok true) => (⟨st, s.upstreamManager.remove p.uid⟩, .ok true)
  | _, (st, res) => (⟨st, s.upstreamManager⟩, res)

/-- `Storage.UpdateCommonUpstreamConfig` -/
def updateCommonUpstreamConfig (s : StorageWithUpstreams) (conf : CommonUpstreamConfig) : StorageWithUpstreams :=
  { s with upstreamManager := s.upstreamManager.updateCommonUpstreamConfig clock conf }

/-- `Storage.CustomUpstreamConfig` -/
def customUpstreamConfig (s : StorageWithUpstreams) (macByIP : Addr → Option HardwareAddr) (id : String)
    (addr : Addr) : StorageWithUpstreams × Except CallFault (Option ℕ) :=
  match s.findForUpstreams macByIP id addr with
  | .error e => (s, .error (.storage e))
  | .ok none => (s, .ok none)
  | .ok (some c) =>
    let (m, res) := s.upstreamManager.customUpstreamConfig parseUpstreams c.uid c.name
    ({ s with upstreamManager := m }, res.mapError .upstreams)

/-- A call of the storage. -/
inductive Call
  | add (p : Persistent)
  | update (name : String) (p : Persistent)
  | removeByName (name : String)
  | updateCommonUpstreamConfig (conf : CommonUpstreamConfig)
  | customUpstreamConfig (macByIP : Addr → Option HardwareAddr) (id : String) (addr : Addr)

/-- The storage after a call. -/
def step (s : StorageWithUpstreams) : Call → StorageWithUpstreams
  | .add p => (s.add parseUpstreams p).1
  | .update name p => (s.update parseUpstreams name p).1
  | .removeByName name => (s.removeByName name).1
  | .updateCommonUpstreamConfig conf => s.updateCommonUpstreamConfig clock conf
  | .customUpstreamConfig macByIP id addr => (s.customUpstreamConfig parseUpstreams macByIP id addr).1

end Operations

end StorageWithUpstreams

end AdGuardHome.Client
