import AdGuardHome.Aghnet.Addr
import AdGuardHome.Dnsforward.Msg
import AdGuardHome.Lib.Stages

/-!
# Processing of a request

The stages of `Server.ServeDNS`.  They pass a context on and may end the processing early.  The writes to the ipsets, the
query log and the statistics at the end leave the context as it is.
-/

namespace AdGuardHome.Dnsforward

open AdGuardHome.Net AdGuardHome.Filtering AdGuardHome.Aghnet

/-- `resultCode`, with a code for a panic. -/
inductive ResultCode
  | success
  | finish
  | error
  | panic
deriving DecidableEq

/-- What `dnsproxy` sets of a `proxy.DNSContext` before it calls the handler, and the ClientID in the context. -/
structure ProxyContext where
  req : Request
  /-- The address of the client. -/
  addr : Addr
  isPrivateClient : Bool := false
  requestedPrivateRDNS : Option Prefix := none
  ctxClientID : Option String := none
deriving DecidableEq

/-- `dnsContext` with the `proxy.DNSContext` in it. -/
structure DnsContext extends ProxyContext where
  res : Option Msg := none
  customUpstreamConfig : Option UpstreamConfig := none
  setts : Settings := {}
  result : Result := {}
  origResp : Option Msg := none
  err : String := ""
  clientID : String := ""
  origQuestion : Question := ⟨"", 0, 0⟩
  protectionEnabled : Bool := false
  responseFromUpstream : Bool := false
  responseAD : Bool := false
  isDHCPHost : Bool := false
  /-- What `CheckHost` has reported.  Not in the source. -/
  checked : Option Result := none
  /-- The exchanges with upstreams and the answer to the client's one.  Not in the source. -/
  exchanges : List Exchange := []
  upstreamRes : Option Msg := none
deriving DecidableEq

def ddrHostFQDN : String := "_dns.resolver.arpa."

def mozillaFQDN : String := "use-application-dns.net."

def healthcheckFQDN : String := "healthcheck.adguardhome.test."

namespace Handler

variable (s : Handler)

def clientRequestFilteringSettings (dctx : DnsContext) : Settings :=
  s.applyAdditionalFiltering dctx.addr dctx.clientID
    { s.settings with protectionEnabled := dctx.protectionEnabled }

def processInitial (dctx : DnsContext) : DnsContext × ResultCode :=
  let q := dctx.req.question
  if s.aaaaDisabled ∧ q.qtype = RRType.aaaa then ({ dctx with res := some (s.newMsgNODATA dctx.req) }, .finish)
  else if (q.qtype = RRType.a ∨ q.qtype = RRType.aaaa) ∧ q.name = mozillaFQDN then
    ({ dctx with res := some (s.newMsgNXDOMAIN dctx.req) }, .finish)
  else if q.name = healthcheckFQDN then ({ dctx with res := some (replyCompressed dctx.req) }, .finish)
  else
    let dctx := { dctx with
      clientID := dctx.ctxClientID.getD dctx.clientID
      protectionEnabled := s.protectionEnabled }
    ({ dctx with setts := s.clientRequestFilteringSettings dctx }, .success)

def processDDRQuery (dctx : DnsContext) : DnsContext × ResultCode :=
  if s.handleDDR ∧ dctx.req.question.name = ddrHostFQDN then
    ({ dctx with res := some (s.makeDDRResponse dctx.req) }, .finish)
  else (dctx, .success)

/-- The name without its last byte, which is the dot. -/
def withoutDot (name : String) : String := String.ofList name.toList.dropLast

/-- `dhcpHostFromRequest`; the empty string if the request is not for a host of the DHCP server. -/
def dhcpHostFromRequest (q : Question) : String :=
  if !s.dhcpEnabled then ""
  else if q.qtype ≠ RRType.a ∧ q.qtype ≠ RRType.aaaa then ""
  else
    let reqHost := s.toLower (withoutDot q.name)
    if !s.isSubdomain reqHost s.localDomainSuffix then ""
    else String.ofList (reqHost.toList.take (reqHost.toList.length - s.localDomainSuffix.toList.length - 1))

/-- `mapDNS64`: the address in the 96 bits of a prefix; `none` for the panic on an address that is not IPv4. -/
def mapDNS64 (pref : Prefix) (ip : Addr) : Option Addr :=
  match ip.unmap with
  | .v4 a =>
    let masked := (pref.addr.as16 >>> (128 - pref.bits.toNat)) <<< (128 - pref.bits.toNat)
    some (.v6 (BitVec.ofNat 128 ((masked >>> 32) <<< 32 + a.toNat)) "")
  | _ => none

/-- The answer of `processDHCPHosts` for the address of a lease; `none` for a panic. -/
def dhcpHostAnswer (req : Request) (ip : Addr) : Option (List RR) :=
  if req.question.qtype = RRType.a then some [s.genAnswerA req ip]
  else if req.question.qtype = RRType.aaaa then
    match s.dns64Pref with
    | none => some []
    | some pref => (mapDNS64 pref ip).map fun mapped => [s.genAnswerAAAA req mapped]
  else some []

def processDHCPHosts (dctx : DnsContext) : DnsContext × ResultCode :=
  let dhcpHost := s.dhcpHostFromRequest dctx.req.question
  let dctx := { dctx with isDHCPHost := decide (dhcpHost ≠ "") }
  if !dctx.isDHCPHost then (dctx, .success)
  else if !dctx.isPrivateClient then ({ dctx with res := some (s.newMsgNXDOMAIN dctx.req) }, .finish)
  else
    let ip := s.ipByHost dhcpHost
    if ip = .invalid then (dctx, .success)
    else
      match s.dhcpHostAnswer dctx.req ip with
      | none => (dctx, .panic)
      | some answer => ({ dctx with res := some { replyCompressed dctx.req with answer := answer } }, .success)

def processDHCPAddrs (dctx : DnsContext) : DnsContext × ResultCode :=
  if dctx.res.isSome then (dctx, .success)
  else
    match dctx.requestedPrivateRDNS with
    | none => (dctx, .success)
    | some pref =>
      if dctx.req.question.qtype ≠ RRType.ptr then (dctx, .success)
      else
        let host := s.hostByIP pref.addr
        if host = "" then (dctx, .success)
        else
          let ptr := s.rr dctx.req (.ptr (s.fqdn (host ++ "." ++ s.localDomainSuffix)))
          ({ dctx with res := some { replyCompressed dctx.req with answer := [ptr] } }, .success)

/-! ## Filtering of the request -/

def isRewrittenCNAME (res : Result) : Bool :=
  match res.reason with
  | .filteredSafeSearch | .rewritten | .rewrittenRule => res.canonName ≠ "" ∧ res.ipList = []
  | _ => false

/-- `filterDNSRequest` after `CheckHost` has reported `res`. -/
def filterDNSResult (dctx : DnsContext) (res : Result) : DnsContext × Except String Result :=
  let q := dctx.req.question
  if isRewrittenCNAME res then
    -- The original question is put back after the response.
    ({ dctx with
      origQuestion := q
      req := { dctx.req with question := { q with name := s.fqdn res.canonName } } }, .ok res)
  else if res.isFiltered then
    let (resp, exchanges) := s.genDNSFilterMessage dctx.req res
    ({ dctx with res := some resp, exchanges := dctx.exchanges ++ exchanges }, .ok res)
  else
    match res.reason with
    | .filteredSafeSearch | .rewritten =>
      ({ dctx with res := some (s.getCNAMEWithIPs dctx.req res.ipList res.canonName) }, .ok res)
    | .rewrittenAutoHosts | .rewrittenRule =>
      match s.filterDNSRewrite dctx.req res with
      | .error err => (dctx, .error err)
      | .ok resp => ({ dctx with res := some resp }, .ok res)
    | _ => (dctx, .ok res)

def filterDNSRequest (dctx : DnsContext) : DnsContext × Except String Result :=
  let host := trimDot dctx.req.question.name
  match s.checkHost host dctx.req.question.qtype dctx.setts with
  | .error err => (dctx, .error ("checking host " ++ s.quote host ++ ": " ++ err))
  | .ok res => s.filterDNSResult { dctx with checked := some res } res

/-- The settings without the filters that a request for a locally served name does not need. -/
def settsFor (dctx : DnsContext) : Settings :=
  if dctx.requestedPrivateRDNS ≠ none then
    { dctx.setts with
      parentalEnabled := false, safeBrowsingEnabled := false, safeSearchEnabled := false, servicesRules := [] }
  else dctx.setts

def processFilteringBeforeRequest (dctx : DnsContext) : DnsContext × ResultCode :=
  let dctx := { dctx with setts := settsFor dctx }
  if dctx.res.isSome then (dctx, .success)
  else
    match s.filterDNSRequest dctx with
    | (dctx, .error err) => ({ dctx with err := err }, .error)
    | (dctx, .ok res) => ({ dctx with result := res }, .success)

/-! ## Upstreams -/

/-- `setCustomUpstream`. -/
def setCustomUpstream (dctx : DnsContext) : DnsContext :=
  if !dctx.addr.isValid then dctx
  else
    match s.customUpstreamConfig dctx.clientID dctx.addr with
    | none => dctx
    | some upsConf => { dctx with customUpstreamConfig := some upsConf }

def srvClosedErr : String := "server is closed"

def processUpstream (dctx : DnsContext) : DnsContext × ResultCode :=
  if dctx.res.isSome then (dctx, .success)
  else if dctx.isDHCPHost then ({ dctx with res := some (s.newMsgNXDOMAIN dctx.req) }, .finish)
  else
    let dctx := s.setCustomUpstream dctx
    match s.proxy with
    | none => ({ dctx with err := srvClosedErr }, .error)
    | some resolve =>
      let dctx := { dctx with exchanges := dctx.exchanges ++ [Exchange.client dctx.req.question] }
      match resolve dctx.req dctx.customUpstreamConfig with
      | .error err => ({ dctx with err := err }, .error)
      | .ok none => ({ dctx with responseFromUpstream := true }, .panic)
      | .ok (some resp) =>
        ({ dctx with
          res := some resp
          upstreamRes := some resp
          responseFromUpstream := true
          responseAD := resp.authenticatedData }, .success)

/-! ## Filtering of the response -/

/-- `removeIPv6Hints` on the parameters of a record. -/
def removeIPv6Hints (value : List SVCBKeyValue) : List SVCBKeyValue :=
  value.filter fun | .ipv6Hint _ => false | _ => true

/-- The addresses of a hint. -/
def hintIPs : SVCBKeyValue → List Addr
  | .ipv4Hint hint | .ipv6Hint hint => hint
  | _ => []

/-- `filterSVCBHint`: the first filtered result. -/
def filterSVCBHint (setts : Settings) : List Addr → Except String (Option Result)
  | [] => .ok none
  | h :: hint =>
    match s.checkHostRules (s.ipString h) RRType.https setts with
    | .error err => .error ("checking rules for " ++ s.ipString h ++ ": " ++ err)
    | .ok res => if res.isFiltered then .ok (some res) else filterSVCBHint setts hint

/-- The loop of `filterHTTPSRecords` over the parameters. -/
def filterHTTPSValues (setts : Settings) : List SVCBKeyValue → Except String (Option Result)
  | [] => .ok none
  | kv :: value =>
    match s.filterSVCBHint setts (hintIPs kv) with
    | .error err => .error ("filtering svcb hints: " ++ err)
    | .ok (some r) => .ok (some r)
    | .ok none => filterHTTPSValues setts value

/-- The record after `filterHTTPSRecords`, which drops the IPv6 hints of an HTTPS record if IPv6 is disabled. -/
def stripRR (rr : RR) : RR :=
  match rr.data with
  | .https priority target value =>
    if s.aaaaDisabled then { rr with data := .https priority target (removeIPv6Hints value) } else rr
  | _ => rr

/-- The check of a record of the answer, after `stripRR`; `none` if it is not checked or not blocked. -/
def checkRR (setts : Settings) (rr : RR) : Except String (Option Result) :=
  match rr.data with
  | .cname target => (s.checkHostRules (trimDot target) RRType.cname setts).map some
  | .a ip => (s.checkHostRules (s.ipString ip) RRType.a setts).map some
  | .aaaa ip => (s.checkHostRules (s.ipString ip) RRType.aaaa setts).map some
  | .https _ _ value => s.filterHTTPSValues setts value
  | _ => .ok none

/-- The loop of `filterDNSResponse` from the index `i` on: the records after it, and the first filtered result. -/
def filterAnswer (setts : Settings) : ℕ → List RR → List RR × Except String (Option Result)
  | _, [] => ([], .ok none)
  | i, a :: answer =>
    let a := s.stripRR a
    match s.checkRR setts a with
    | .error err => (a :: answer, .error ("filtering answer at index " ++ toString i ++ ": " ++ err))
    | .ok res =>
      if (res.map Result.isFiltered).getD false then (a :: answer, .ok res)
      else
        let (rest, outcome) := filterAnswer setts (i + 1) answer
        (a :: rest, outcome)

def filterDNSResponse (dctx : DnsContext) (resp : Msg) : DnsContext × Except String Unit :=
  if !dctx.setts.filteringEnabled then (dctx, .ok ())
  else
    let (answer, outcome) := s.filterAnswer dctx.setts 0 resp.answer
    let resp := { resp with answer := answer }
    match outcome with
    | .error err => ({ dctx with res := some resp }, .error err)
    | .ok none => ({ dctx with res := some resp }, .ok ())
    | .ok (some res) =>
      let (filtered, exchanges) := s.genDNSFilterMessage dctx.req res
      ({ dctx with
        result := res
        origResp := some resp
        res := some filtered
        exchanges := dctx.exchanges ++ exchanges }, .ok ())

def filterAfterResponse (dctx : DnsContext) : DnsContext × ResultCode :=
  if !dctx.protectionEnabled ∨ !dctx.responseFromUpstream then (dctx, .success)
  else
    match dctx.res with
    | none => (dctx, .panic)
    | some resp =>
      match s.filterDNSResponse dctx resp with
      | (dctx, .error err) => ({ dctx with err := err }, .error)
      | (dctx, .ok ()) => (dctx, .success)

/-- The original question put back into the request and the response, with the CNAME of the rewrite. -/
def restoreQuestion (dctx : DnsContext) : DnsContext × ResultCode :=
  match dctx.res with
  | none => (dctx, .panic)
  | some resp =>
    match resp.question with
    | [] => (dctx, .panic)
    | _ :: qs =>
      let req := { dctx.req with question := dctx.origQuestion }
      let rr := s.genAnswerCNAME req dctx.result.canonName
      ({ dctx with
        req := req
        res := some { resp with question := dctx.origQuestion :: qs, answer := rr :: resp.answer } }, .success)

def processFilteringAfterResponse (dctx : DnsContext) : DnsContext × ResultCode :=
  match dctx.result.reason with
  | .notFilteredAllowList => (dctx, .success)
  | .rewritten | .rewrittenRule | .filteredSafeSearch =>
    if dctx.origQuestion.name = "" then (dctx, .success) else s.restoreQuestion dctx
  | _ => s.filterAfterResponse dctx

/-! ## The pipeline -/

/-- The stages of `ServeDNS` up to the ones that only record the request. -/
def mods : List (DnsContext → DnsContext × ResultCode) :=
  [s.processInitial, s.processDDRQuery, s.processDHCPHosts, s.processDHCPAddrs, s.processFilteringBeforeRequest,
    s.processUpstream, s.processFilteringAfterResponse]

end Handler

/-- What `ServeDNS` returns. -/
inductive Served
  | nil
  | err (err : String)
  | panic
deriving DecidableEq

/-- How the loop of `ServeDNS` goes on after a code; `none` for the next stage. -/
def ends (dctx : DnsContext) : ResultCode → Option Served
  | .success => none
  | .finish => some .nil
  | .error => some (.err dctx.err)
  | .panic => some .panic

/-- The end of `ServeDNS` after the loop. -/
def compressed (dctx : DnsContext) : DnsContext × Served :=
  ({ dctx with res := dctx.res.map fun res => { res with compress := true } }, .nil)

/-- `Server.ServeDNS`. -/
def Handler.serveDNS (s : Handler) (pctx : ProxyContext) : DnsContext × Served :=
  Lib.Stages.run ends compressed s.mods { toProxyContext := pctx }

end AdGuardHome.Dnsforward
