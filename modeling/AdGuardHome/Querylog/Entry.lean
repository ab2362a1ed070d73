import AdGuardHome.Aghnet.IPMut
import AdGuardHome.Filtering.Result
import AdGuardHome.Lib.Base64
import AdGuardHome.Lib.Json
import AdGuardHome.Querylog.Format

/-!
# Log entries

The entries of the query log and the lines that the encoder writes for them.
-/

namespace AdGuardHome.Querylog

open AdGuardHome.Aghnet AdGuardHome.Filtering AdGuardHome.Lib AdGuardHome.Net

/-- What the query log uses of a client. -/
structure Client where
  name : String
  ignoreQueryLog : Bool
deriving DecidableEq

inductive ClientProto
  | doh
  | doq
  | dot
  | dnscrypt
  | plain
deriving DecidableEq

/-- The client protocol names. -/
def ClientProto.name : ClientProto → String
  | .doh => "doh"
  | .doq => "doq"
  | .dot => "dot"
  | .dnscrypt => "dnscrypt"
  | .plain => ""

/-- `NewClientProto`; `none` is an error. -/
def newClientProto (s : String) : Option ClientProto :=
  if s = "doh" then some .doh
  else if s = "doq" then some .doq
  else if s = "dot" then some .dot
  else if s = "dnscrypt" then some .dnscrypt
  else if s = "" then some .plain
  else none

theorem newClientProto_name (p : ClientProto) : newClientProto p.name = some p := by
  cases p <;> decide

/-- The result of filtering in an entry.  The reason is the number, since a line can have any. -/
structure EntryResult where
  dnsRewriteResult : Option DNSRewriteResult := none
  canonName : String := ""
  serviceName : String := ""
  ipList : List Addr := []
  rules : List ResultRule := []
  reason : UInt8 := 0
  isFiltered : Bool := false
deriving DecidableEq

/-- `logEntry` -/
structure LogEntry where
  /-- The found client, if any. -/
  client : Option Client := none
  time : Time := ⟨0, 0⟩
  qHost : String := ""
  qType : String := ""
  qClass : String := ""
  reqECS : String := ""
  clientID : String := ""
  clientProto : ClientProto := .plain
  upstream : String := ""
  answer : List UInt8 := []
  origAnswer : List UInt8 := []
  ip : IP := []
  result : EntryResult := {}
  elapsed : Int64 := 0
  cached : Bool := false
  authenticatedData : Bool := false

/-! ## Encoding -/

/-- The field, unless it is empty. -/
def omitEmpty (empty : Prop) [Decidable empty] (k : String) (v : Json) : List (String × Json) :=
  if empty then [] else [(k, v)]

/-- `Addr.MarshalText` -/
def addrText : Addr → String
  | .invalid => ""
  | .v4 a => IP.string (asSlice (.v4 a))
  | .v6 a zone =>
    let ip := asSlice (.v6 a zone)
    let text :=
      match IP.to4 ip with
      | some ip4 => "::ffff:" ++ ".".intercalate (ip4.map fun b => toString b.toNat)
      | none => IP.string6 ip
    if zone = "" then text else text ++ "%" ++ zone

def RRValue.json : RRValue → Json
  | .nil => .null
  | .ip ip => .str (addrText ip)
  | .text str => .str str
  | .mx preference exchange => .obj [("Exchange", .str exchange), ("Preference", .num preference.toNat)]
  | .svcb svcb =>
    -- a nil map has no parameters
    .obj [("Params", if svcb.params = [] then .null else .obj (svcb.params.map fun p => (p.1, .str p.2))),
      ("Target", .str svcb.target), ("Priority", .num svcb.priority.toNat)]
  | .srv priority weight port target =>
    .obj [("Target", .str target), ("Priority", .num priority.toNat), ("Weight", .num weight.toNat),
      ("Port", .num port.toNat)]

/-- The records of a rewrite by their types, in the order in which the encoder writes them. -/
def responseJSON (response : List (UInt16 × List RRValue)) : Json :=
  .obj (response.map fun p => (toString p.1.toNat, .arr (p.2.map RRValue.json)))

def dnsRewriteResultJSON (r : DNSRewriteResult) : Json :=
  .obj (omitEmpty (r.response.getD [] = []) "Response" (responseJSON (r.response.getD []))
    ++ omitEmpty (r.rcode = 0) "RCode" (.num r.rcode))

def resultRuleJSON (r : ResultRule) : Json :=
  .obj (omitEmpty (r.text = "") "Text" (.str r.text) ++ omitEmpty (r.ip = .invalid) "IP" (.str (addrText r.ip))
    ++ omitEmpty (r.filterListID = 0) "FilterListID" (.num r.filterListID))

/-- The fields of a result before its reason. -/
def EntryResult.head (r : EntryResult) : List (String × Json) :=
  r.dnsRewriteResult.toList.map (fun rewrite => ("DNSRewriteResult", dnsRewriteResultJSON rewrite))
  ++ omitEmpty (r.canonName = "") "CanonName" (.str r.canonName)
  ++ omitEmpty (r.serviceName = "") "ServiceName" (.str r.serviceName)
  ++ omitEmpty (r.ipList = []) "IPList" (.arr (r.ipList.map fun ip => .str (addrText ip)))
  ++ omitEmpty (r.rules = []) "Rules" (.arr (r.rules.map resultRuleJSON))

/-- The fields of a result from its reason on. -/
def EntryResult.tail (r : EntryResult) : List (String × Json) :=
  omitEmpty (r.reason = 0) "Reason" (.num r.reason.toNat) ++ omitEmpty (r.isFiltered = false) "IsFiltered" (.bool true)

/-- The fields of an entry before the address. -/
def LogEntry.head (e : LogEntry) (time : String) : List (String × Json) :=
  [("T", .str time), ("QH", .str e.qHost), ("QT", .str e.qType), ("QC", .str e.qClass)]
  ++ omitEmpty (e.reqECS = "") "ECS" (.str e.reqECS)
  ++ omitEmpty (e.clientID = "") "CID" (.str e.clientID)
  ++ [("CP", .str e.clientProto.name)]
  ++ omitEmpty (e.upstream = "") "Upstream" (.str e.upstream)
  ++ omitEmpty (e.answer = []) "Answer" (.str (String.ofList (base64Encode e.answer)))
  ++ omitEmpty (e.origAnswer = []) "OrigAnswer" (.str (String.ofList (base64Encode e.origAnswer)))

/-- The fields of an entry after the result. -/
def LogEntry.tail (e : LogEntry) : List (String × Json) :=
  [("Elapsed", .num e.elapsed.toInt)]
  ++ omitEmpty (e.cached = false) "Cached" (.bool true)
  ++ omitEmpty (e.authenticatedData = false) "AD" (.bool true)

/-- `IP.MarshalText`; `none` is an error. -/
def marshalIP (ip : IP) : Option String :=
  if ip = [] then some ""
  else if ip.length = 4 ∨ ip.length = 16 then some ip.string
  else none

/-- The fields of an entry with the texts of its time and its address. -/
def LogEntry.fields (e : LogEntry) (time ip : String) : List (String × Json) :=
  e.head time ++ (("IP", .str ip) :: ("Result", .obj (e.result.head ++ e.result.tail)) :: e.tail)

/-- The text that `Encoder.Encode` writes for an entry, without the line break.  The offset of the local zone at the
time is in minutes; `none` is an error. -/
def LogEntry.encode (offset : ℤ) (e : LogEntry) : Option (List Char) :=
  match formatRFC3339Nano offset e.time, marshalIP e.ip with
  | some time, some ip => some (Json.render (.obj (e.fields (String.ofList time) ip)))
  | _, _ => none

end AdGuardHome.Querylog
