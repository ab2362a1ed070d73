import AdGuardHome.Dnsforward.Config
import AdGuardHome.Dnsforward.Middleware
import AdGuardHome.Filtering.Result

/-!
# DNS messages

The messages that the server generates.  Names are as `dns.Msg` has them, with the dot at the end.
-/

namespace AdGuardHome.Dnsforward

open AdGuardHome.Net AdGuardHome.Filtering

namespace RRType

def a : UInt16 := 1
def cname : UInt16 := 5
def ptr : UInt16 := 12
def mx : UInt16 := 15
def txt : UInt16 := 16
def aaaa : UInt16 := 28
def srv : UInt16 := 33
def svcb : UInt16 := 64
def https : UInt16 := 65

end RRType

namespace Rcode

def success : ℕ := 0
def serverFailure : ℕ := 2
def nameError : ℕ := 3
def refused : ℕ := 5

end Rcode

/-- `dns.SVCBKeyValue`. -/
inductive SVCBKeyValue
  | alpn (alpn : List String)
  | port (port : UInt16)
  | dohPath (template : String)
  | ipv4Hint (hint : List Addr)
  | ipv6Hint (hint : List Addr)
  /-- A parameter of another type, with its key and value. -/
  | other (key : UInt16) (value : List UInt8)
deriving DecidableEq

/-- The data of a record.  An address is `invalid` for a nil slice. -/
inductive RData
  | a (ip : Addr)
  | aaaa (ip : Addr)
  | cname (target : String)
  | ptr (ptr : String)
  | mx (preference : UInt16) (mx : String)
  | srv (priority weight port : UInt16) (target : String)
  | txt (txt : List String)
  | svcb (priority : UInt16) (target : String) (value : List SVCBKeyValue)
  | https (priority : UInt16) (target : String) (value : List SVCBKeyValue)
  | soa (ns mbox : String) (serial refresh retry expire minttl : UInt32)
  /-- A record of another type. -/
  | other (rrtype : UInt16) (data : List UInt8)
  /-- A nil record. -/
  | none
deriving DecidableEq

structure RR where
  name : String
  rrclass : UInt16
  ttl : UInt32
  data : RData
deriving DecidableEq

/-- A request.  `dnsproxy` passes on only requests with one question. -/
structure Request where
  id : UInt16
  opcode : UInt8 := 0
  recursionDesired : Bool := true
  checkingDisabled : Bool := false
  /-- The UDP size and the DO bit of the OPT record. -/
  edns : Option (UInt16 × Bool) := none
  question : Question
deriving DecidableEq

/-- A response. -/
structure Msg where
  id : UInt16 := 0
  opcode : UInt8 := 0
  rcode : ℕ := 0
  recursionDesired : Bool := false
  recursionAvailable : Bool := false
  authenticatedData : Bool := false
  checkingDisabled : Bool := false
  compress : Bool := false
  edns : Option (UInt16 × Bool) := none
  question : List Question
  answer : List RR := []
  ns : List RR := []
deriving DecidableEq

/-- An exchange with upstreams: the question, and whether it is the one of the client or one for a replacement. -/
inductive Exchange
  | client (question : Question)
  | replacement (question : Question)
deriving DecidableEq

/-- The server as a handler of requests.  The filter, the DHCP server and the proxy are arbitrary functions. -/
structure Handler where
  aaaaDisabled : Bool
  handleDDR : Bool
  serverName : String
  /-- The ports of `HTTPSListenAddrs`, `TLSListenAddrs` and `QUICListenAddrs`. -/
  httpsPorts : List UInt16
  tlsPorts : List UInt16
  quicPorts : List UInt16
  /-- `tlsManager.HasIPAddrs`. -/
  hasIPAddrs : Bool
  dhcpEnabled : Bool
  ipByHost : String → Addr
  hostByIP : Addr → String
  localDomainSuffix : String
  dns64Pref : Option Prefix
  /-- `Server.UpdatedProtectionStatus`. -/
  protectionEnabled : Bool
  /-- `DNSFilter.Settings`. -/
  settings : Settings
  applyAdditionalFiltering : Addr → String → Settings → Settings
  checkHost : String → UInt16 → Settings → Except String Result
  checkHostRules : String → UInt16 → Settings → Except String Result
  blockingMode : BlockingMode
  blockingIPv4 : Addr
  blockingIPv6 : Addr
  blockedResponseTTL : UInt32
  safeBrowsingBlockHost : String
  parentalBlockHost : String
  customUpstreamConfig : String → Addr → Option UpstreamConfig
  /-- `Proxy.Resolve` with the upstreams of the client, `none` when the server is closing. -/
  proxy : Option (Request → Option UpstreamConfig → Except String (Option Msg))
  /-- `strings.ToLower`. -/
  toLower : String → String
  /-- `dns.Fqdn`. -/
  fqdn : String → String
  /-- `netutil.IsSubdomain`. -/
  isSubdomain : String → String → Bool
  /-- `%q` of `fmt`. -/
  quote : String → String
  /-- The text of a `dns.Type`. -/
  typeString : UInt16 → String
  /-- `net.IP.String`. -/
  ipString : Addr → String
  /-- The parameters of `genAnswerSVCB` that its handlers can parse. -/
  svcbValues : List (String × String) → List SVCBKeyValue

/-! ## Replies -/

/-- `dns.Msg.SetRcode`. -/
def setRcode (req : Request) (code : ℕ) : Msg where
  id := req.id
  opcode := req.opcode
  rcode := code
  recursionDesired := req.opcode == 0 && req.recursionDesired
  checkingDisabled := req.opcode == 0 && req.checkingDisabled
  question := [req.question]

def reply (req : Request) (code : ℕ) : Msg :=
  { setRcode req code with recursionAvailable := true, edns := req.edns }

def replyCompressed (req : Request) : Msg := { reply req Rcode.success with compress := true }

def newMsgSERVFAIL (req : Request) : Msg := reply req Rcode.serverFailure

namespace Handler

variable (s : Handler)

/-- The header of `hdr` with the data of a record. -/
def rr (req : Request) (data : RData) : RR := ⟨req.question.name, 1, s.blockedResponseTTL, data⟩

def genAnswerA (req : Request) (ip : Addr) : RR := s.rr req (.a ip)

def genAnswerAAAA (req : Request) (ip : Addr) : RR := s.rr req (.aaaa ip)

def genAnswerCNAME (req : Request) (cname : String) : RR := s.rr req (.cname (s.fqdn cname))

def genSOA (req : Request) : List RR :=
  let zone := req.question.name
  let ttl := if s.blockedResponseTTL = 0 then 3600 else s.blockedResponseTTL
  let mbox := if zone ≠ "." then "hostmaster." ++ zone else "hostmaster."
  [⟨zone, 1, ttl, .soa "fake-for-negative-caching.adguard.com." mbox 100500 1800 900 604800 86400⟩]

def newMsgNXDOMAIN (req : Request) : Msg := { reply req Rcode.nameError with ns := s.genSOA req }

def newMsgNODATA (req : Request) : Msg := { reply req Rcode.success with ns := s.genSOA req }

/-! ## Filtered responses -/

def genAnswersWithIPv4s (req : Request) (ips : List Addr) : List RR :=
  if ips.all Addr.is4 then ips.map (s.genAnswerA req) else []

/-- The records for addresses of the type of the question. -/
def genAnswersWithIPs (req : Request) (ips : List Addr) : List RR :=
  if req.question.qtype = RRType.a then s.genAnswersWithIPv4s req ips
  else if req.question.qtype = RRType.aaaa then (ips.filter Addr.is6).map (s.genAnswerAAAA req)
  else []

def genResponseWithIPs (req : Request) (ips : List Addr) : Msg :=
  { replyCompressed req with answer := s.genAnswersWithIPs req ips }

/-- `getCNAMEWithIPs`.  The addresses are those of the canonical name, which stands in the request meanwhile. -/
def getCNAMEWithIPs (req : Request) (ips : List Addr) (cname : String) : Msg :=
  if cname ≠ "" then
    let named := { req with question := { req.question with name := s.fqdn cname } }
    { replyCompressed req with answer := s.genAnswerCNAME req cname :: s.genAnswersWithIPs named ips }
  else { replyCompressed req with answer := s.genAnswersWithIPs req ips }

def makeResponseNullIP (req : Request) : Msg :=
  if req.question.qtype = RRType.a then s.genResponseWithIPs req [.v4 0]
  else if req.question.qtype = RRType.aaaa then s.genResponseWithIPs req [.v6 0 ""]
  else replyCompressed req

def makeResponseCustomIP (req : Request) (bIPv4 bIPv6 : Addr) : Msg :=
  if req.question.qtype = RRType.a then { replyCompressed req with answer := [s.genAnswerA req bIPv4] }
  else if req.question.qtype = RRType.aaaa then { replyCompressed req with answer := [s.genAnswerAAAA req bIPv6] }
  else replyCompressed req

def genForBlockingMode (req : Request) (ips : List Addr) : Msg :=
  match s.blockingMode with
  | .customIP => s.makeResponseCustomIP req s.blockingIPv4 s.blockingIPv6
  | .default => if ips ≠ [] then s.genResponseWithIPs req ips else s.makeResponseNullIP req
  | .nullIP => s.makeResponseNullIP req
  | .nxdomain => s.newMsgNXDOMAIN req
  | .refused => reply req Rcode.refused
  | .other _ => replyCompressed req

/-- The request for the replacement `newAddr` of a blocked host. -/
def replacementRequest (request : Request) (newAddr : String) : Request where
  -- The source draws a random identifier.
  id := 0
  question := ⟨s.fqdn newAddr, request.question.qtype, 1⟩

/-- `genBlockedHost`, with the exchange that it makes. -/
def genBlockedHost (request : Request) (newAddr : String) : Msg × List Exchange :=
  if newAddr = "" then (newMsgSERVFAIL request, [])
  else
    match parseAddr newAddr with
    | some ip => (s.genResponseWithIPs request [ip], [])
    | none =>
      match s.proxy with
      | none => (newMsgSERVFAIL request, [])
      | some resolve =>
        let replReq := s.replacementRequest request newAddr
        (match resolve replReq none with
          | .error _ => newMsgSERVFAIL request
          | .ok none => replyCompressed request
          | .ok (some res) =>
            { replyCompressed request with
              answer := res.answer.map fun answer => { answer with name := request.question.name } },
          [.replacement replReq.question])

/-- `ipsFromRules`: the distinct valid addresses of the rules, in their order. -/
def ipsFromRules (resRules : List ResultRule) : List Addr :=
  resRules.foldl (fun ips r => if r.ip ≠ .invalid ∧ r.ip ∉ ips then ips ++ [r.ip] else ips) []

/-- `genDNSFilterMessage`, with the exchanges that it makes. -/
def genDNSFilterMessage (req : Request) (res : Result) : Msg × List Exchange :=
  let qt := req.question.qtype
  if qt ≠ RRType.a ∧ qt ≠ RRType.aaaa ∧ qt ≠ RRType.https then
    if s.blockingMode = .nullIP then (replyCompressed req, []) else (s.newMsgNODATA req, [])
  else
    match res.reason with
    | .filteredSafeBrowsing => s.genBlockedHost req s.safeBrowsingBlockHost
    | .filteredParental => s.genBlockedHost req s.parentalBlockHost
    | .filteredSafeSearch => (s.getCNAMEWithIPs req (ipsFromRules res.rules) res.canonName, [])
    | _ => (s.genForBlockingMode req (ipsFromRules res.rules), [])

/-! ## Rewritten responses -/

/-- `%T` of a value of a rewrite. -/
def goType : RRValue → String
  | .nil => "<nil>"
  | .ip _ => "netip.Addr"
  | .text _ => "string"
  | .mx .. => "*rules.DNSMX"
  | .svcb _ => "*rules.DNSSVCB"
  | .srv .. => "*rules.DNSSRV"

/-- The error for a value of a type that does not belong to the record. -/
def errRRValue (rr : UInt16) (v : RRValue) (want : String) : String :=
  "value for rr type " ++ s.typeString rr ++ " has type " ++ goType v ++ ", not " ++ want

def ansFromDNSRewriteIP (v : RRValue) (rr : UInt16) (req : Request) : Except String RR :=
  match v with
  | .ip ip => .ok (if rr = RRType.a then s.genAnswerA req ip else s.genAnswerAAAA req ip)
  | v => .error (s.errRRValue rr v "netip.Addr")

def ansFromDNSRewriteText (v : RRValue) (rr : UInt16) (req : Request) : Except String RR :=
  match v with
  | .text str => .ok (s.rr req (if rr = RRType.txt then .txt [str] else .ptr (s.fqdn str)))
  | v => .error (s.errRRValue rr v "string")

def ansFromDNSRewriteMX (v : RRValue) (rr : UInt16) (req : Request) : Except String RR :=
  match v with
  | .mx preference exchange => .ok (s.rr req (.mx preference (s.fqdn exchange)))
  | v => .error (s.errRRValue rr v "*rules.DNSMX")

def ansFromDNSRewriteSVCB (v : RRValue) (rr : UInt16) (req : Request) : Except String RR :=
  match v with
  | .svcb svcb =>
    let target := s.fqdn svcb.target
    let value := s.svcbValues svcb.params
    .ok (s.rr req (if rr = RRType.https then .https svcb.priority target value else .svcb svcb.priority target value))
  | v => .error (s.errRRValue rr v "*rules.DNSSVCB")

def ansFromDNSRewriteSRV (v : RRValue) (rr : UInt16) (req : Request) : Except String RR :=
  match v with
  | .srv priority weight port target => .ok (s.rr req (.srv priority weight port (s.fqdn target)))
  | v => .error (s.errRRValue rr v "*rules.DNSSRV")

def filterDNSRewriteResponse (req : Request) (rr : UInt16) (v : RRValue) : Except String RR :=
  if rr = RRType.a ∨ rr = RRType.aaaa then s.ansFromDNSRewriteIP v rr req
  else if rr = RRType.ptr ∨ rr = RRType.txt then s.ansFromDNSRewriteText v rr req
  else if rr = RRType.mx then s.ansFromDNSRewriteMX v rr req
  else if rr = RRType.https ∨ rr = RRType.svcb then s.ansFromDNSRewriteSVCB v rr req
  else if rr = RRType.srv then s.ansFromDNSRewriteSRV v rr req
  -- A record of another type is nil.
  else .ok (s.rr req .none)

/-- The records for the values of a rewrite, from the index `i` on. -/
def filterDNSRewriteValues (req : Request) (qtype : UInt16) : ℕ → List RRValue → Except String (List RR)
  | _, [] => .ok []
  | i, v :: values => do
    let ans ← wrapErr ("dns rewrite response for " ++ s.typeString qtype ++ "[" ++ toString i ++ "]: ")
      (s.filterDNSRewriteResponse req qtype v)
    let rest ← filterDNSRewriteValues req qtype (i + 1) values
    return ans :: rest

/-- `filterDNSRewrite`: the response that it sets. -/
def filterDNSRewrite (req : Request) (res : Result) : Except String Msg :=
  match res.dnsRewriteResult with
  | none => .error "no dns rewrite rule content"
  | some dnsrr =>
    let resp := { replyCompressed req with rcode := dnsrr.rcode }
    if dnsrr.rcode ≠ Rcode.success then .ok resp
    else
      match dnsrr.response with
      | none => .error "no dns rewrite rule responses"
      | some response =>
        let values := (response.lookup req.question.qtype).getD []
        (s.filterDNSRewriteValues req req.question.qtype 0 values).map fun answer => { resp with answer := answer }

/-! ## Discovery of designated resolvers -/

def makeDDRResponse (req : Request) : Msg :=
  let resp := replyCompressed req
  if req.question.qtype ≠ RRType.svcb then resp
  else
    let svcb (values : List SVCBKeyValue) : RR := s.rr req (.svcb 1 (s.fqdn s.serverName) values)
    { resp with
      answer :=
        s.httpsPorts.map (fun port => svcb [.alpn ["h2"], .port port, .dohPath "/dns-query\x7b?dns\x7d"]) ++
        (if s.hasIPAddrs then s.tlsPorts.map fun port => svcb [.alpn ["dot"], .port port] else []) ++
        s.quicPorts.map fun port => svcb [.alpn ["doq"], .port port] }

/-! ## Questions of the generated messages -/

variable (req : Request)

theorem getCNAMEWithIPs_question (ips : List Addr) (cname : String) :
    (s.getCNAMEWithIPs req ips cname).question = [req.question] := by
  unfold getCNAMEWithIPs
  split <;> rfl

theorem makeResponseNullIP_question : (s.makeResponseNullIP req).question = [req.question] := by
  unfold makeResponseNullIP
  split
  · rfl
  · split <;> rfl

theorem makeResponseCustomIP_question (bIPv4 bIPv6 : Addr) :
    (s.makeResponseCustomIP req bIPv4 bIPv6).question = [req.question] := by
  unfold makeResponseCustomIP
  split
  · rfl
  · split <;> rfl

theorem genForBlockingMode_question (ips : List Addr) :
    (s.genForBlockingMode req ips).question = [req.question] := by
  unfold genForBlockingMode
  split
  · exact s.makeResponseCustomIP_question ..
  · split
    · rfl
    · exact s.makeResponseNullIP_question req
  · exact s.makeResponseNullIP_question req
  · rfl
  · rfl
  · rfl

theorem genBlockedHost_question (newAddr : String) :
    (s.genBlockedHost req newAddr).1.question = [req.question] := by
  unfold genBlockedHost
  split
  · rfl
  · split
    · rfl
    · split
      · rfl
      · dsimp only
        split <;> rfl

theorem genDNSFilterMessage_question (res : Result) :
    (s.genDNSFilterMessage req res).1.question = [req.question] := by
  unfold genDNSFilterMessage
  dsimp only
  split
  · split <;> rfl
  · split
    · exact s.genBlockedHost_question ..
    · exact s.genBlockedHost_question ..
    · exact s.getCNAMEWithIPs_question ..
    · exact s.genForBlockingMode_question ..

theorem filterDNSRewrite_question {res : Result} {resp : Msg} (h : s.filterDNSRewrite req res = .ok resp) :
    resp.question = [req.question] := by
  unfold filterDNSRewrite at h
  split at h
  · cases h
  · dsimp only at h
    split at h
    · cases h
      rfl
    · split at h
      · cases h
      · cases hv : s.filterDNSRewriteValues req req.question.qtype 0 _ with
        | error err => rw [hv] at h; cases h
        | ok answer => rw [hv] at h; cases h; rfl

theorem makeDDRResponse_question : (s.makeDDRResponse req).question = [req.question] := by
  unfold makeDDRResponse
  dsimp only
  split <;> rfl

end Handler

end AdGuardHome.Dnsforward
