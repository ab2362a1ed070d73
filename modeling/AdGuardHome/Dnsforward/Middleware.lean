import AdGuardHome.Aghnet.Addr
import AdGuardHome.Dnsforward.Access

/-!
# The access middleware

`Wrap` finds the ClientID of a request, refuses the requests that the access settings block, and passes the others
on.  A ClientID comes in the path of a DNS-over-HTTPS request or in front of the name of the server.
-/

namespace AdGuardHome.Dnsforward

open AdGuardHome.Net AdGuardHome.Aghnet

inductive Proto
  | udp
  | tcp
  | tls
  | https
  | quic
  | dnscrypt
deriving DecidableEq, Repr

structure Question where
  name : String
  qtype : UInt16
  qclass : UInt16
deriving DecidableEq, Repr

/-- What is read of an `http.Request`. -/
structure HTTPRequest where
  pattern : String
  /-- The path value of `ClientID`. -/
  clientID : String
  /-- The server name of the TLS connection, if there is one. -/
  tls : Option String
  host : String
deriving DecidableEq, Repr

/-- What the middleware reads of a `proxy.DNSContext`. -/
structure AccessContext where
  proto : Proto
  addr : Addr
  httpRequest : Option HTTPRequest
  quicServerName : String
  /-- The server name of the connection, `none` if it is no TLS connection. -/
  connServerName : Option String
  question : List Question
deriving DecidableEq

/-- The fields of the server that the middleware reads. -/
structure AccessServer where
  access : AccessManager
  serverName : String
  strictSNICheck : Bool

inductive ClientIDError
  /-- `proxy ctx http request of proto %s is nil` -/
  | noHTTPRequest
  /-- `invalid clientid %q: %w` -/
  | invalid (id : String)
  /-- `parsing host: %w` -/
  | parsingHost (host : String)
  /-- `pctx conn of proto %s is %T, want *tls.Conn` -/
  | noTLSConn
  /-- `client server name %q doesn't match host server name %q` -/
  | mismatch (cliSrvName hostSrvName : String)
deriving DecidableEq

/-! ## ClientIDs -/

variable (env : AccessEnv)

def validateClientID (id : String) : Except ClientIDError Unit :=
  if env.validateHostnameLabel id then .ok () else .error (.invalid id)

/-- `cliSrvName[:len(cliSrvName)-len(hostSrvName)-1]`. -/
def cutServerName (cliSrvName hostSrvName : String) : String :=
  String.ofList (cliSrvName.toList.take (cliSrvName.length - hostSrvName.length - 1))

def clientIDFromClientServerName (hostSrvName cliSrvName : String) (strict : Bool) :
    Except ClientIDError String :=
  if hostSrvName = cliSrvName then .ok ""
  else if ¬ env.isImmediateSubdomain cliSrvName hostSrvName then
    if strict then .error (.mismatch cliSrvName hostSrvName) else .ok ""
  else do
    let clientID := cutServerName cliSrvName hostSrvName
    validateClientID env clientID
    return clientID.toLower

def clientIDParamTemplate : String := "\x7bClientID\x7d"

/-- `strings.Contains`. -/
def containsString (s sub : String) : Bool := s.toList.tails.any fun t => sub.toList.isPrefixOf t

def clientIDFromDNSContextHTTPS (pctx : AccessContext) : Except ClientIDError String :=
  match pctx.httpRequest with
  | none => .error .noHTTPRequest
  | some r =>
    if ¬ containsString r.pattern clientIDParamTemplate then .ok "" else do
    validateClientID env r.clientID
    return r.clientID.toLower

def clientServerNameFromHTTP (r : HTTPRequest) : Except ClientIDError String :=
  match r.tls with
  | some serverName => .ok serverName
  | none =>
    if r.host = "" then .ok "" else
    match env.splitHost r.host with
    | none => .error (.parsingHost r.host)
    | some srvName => .ok srvName

def clientServerName (pctx : AccessContext) (proto : Proto) : Except ClientIDError String :=
  match proto with
  | .https =>
    match pctx.httpRequest with
    | none => .error .noHTTPRequest
    | some r => clientServerNameFromHTTP env r
  | .quic => .ok pctx.quicServerName
  | .tls =>
    match pctx.connServerName with
    | none => .error .noTLSConn
    | some srvName => .ok srvName
  | _ => .ok ""

/-- The ClientID in the name that the client gives to the server. -/
def clientIDFromServerName (s : AccessServer) (pctx : AccessContext) : Except ClientIDError String :=
  if s.serverName = "" then .ok "" else do
  let cliSrvName ← clientServerName env pctx pctx.proto
  clientIDFromClientServerName env s.serverName cliSrvName s.strictSNICheck

def clientIDFromDNSContext (s : AccessServer) (pctx : AccessContext) : Except ClientIDError String :=
  if pctx.proto = .https then do
    let clientID ← clientIDFromDNSContextHTTPS env pctx
    if clientID ≠ "" then return clientID
    clientIDFromServerName env s pctx
  else if pctx.proto ≠ .tls ∧ pctx.proto ≠ .quic then .ok ""
  else clientIDFromServerName env s pctx

/-! ## The middleware -/

/-- What becomes of a request. -/
inductive Outcome
  | servfail
  /-- `proxy.ErrDrop`: no response. -/
  | drop
  | refused
  /-- The request is passed on, with its ClientID in the context. -/
  | served (clientID : String)
deriving DecidableEq

def serveBlockedResponse (pctx : AccessContext) : Outcome :=
  if pctx.proto = .udp ∨ pctx.proto = .dnscrypt then .drop else .refused

def isBlockedHost (s : AccessServer) (question : List Question) : Bool :=
  match question with
  | [q] => s.access.blockedHostsEng (normalizeDomain q.name) q.qtype
  | _ => false

def wrap (s : AccessServer) (pctx : AccessContext) : Outcome :=
  match clientIDFromDNSContext env s pctx with
  | .error _ => .servfail
  | .ok clientID =>
    if (isBlockedClient s.access pctx.addr clientID).1 then serveBlockedResponse pctx
    else if isBlockedHost s pctx.question then serveBlockedResponse pctx
    else .served clientID

end AdGuardHome.Dnsforward
