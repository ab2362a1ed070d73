import Mathlib.Data.Finset.Card
import AdGuardHome.Net.Parse

/-!
# Access lists

The lists of allowed and of disallowed clients.  An entry is an IP address, a CIDR or a ClientID.  With at least one
allowed client the disallowed ones are not looked at.
-/

namespace AdGuardHome.Dnsforward

open AdGuardHome.Net

/-- What the access settings use of other packages. -/
structure AccessEnv where
  /-- `netutil.ValidateHostnameLabel` returns no error. -/
  validateHostnameLabel : String → Bool
  /-- `netutil.IsImmediateSubdomain`. -/
  isImmediateSubdomain : String → String → Bool
  /-- `netutil.SplitHost`. -/
  splitHost : String → Option String
  /-- The engine of `urlfilter` for the text of the rules, `none` for an error of the rule storage. -/
  newDNSEngine : String → Option (String → UInt16 → Bool)

/-- `accessManager`. -/
structure AccessManager where
  allowedIPs : Finset Addr
  blockedIPs : Finset Addr
  allowedClientIDs : Finset String
  blockedClientIDs : Finset String
  blockedHostsEng : String → UInt16 → Bool
  allowedNets : List Prefix
  blockedNets : List Prefix

inductive AccessError
  /-- `value %q at index %d: bad ip, cidr, or clientid`, after `adding allowed` or `adding blocked`. -/
  | badValue (list : String) (value : String) (index : ℕ)
  /-- `adding blocked hosts: %w` -/
  | blockedHosts
deriving DecidableEq

/-- The sets that the entries of a list are added to. -/
structure AccessClients where
  ips : Finset Addr
  nets : List Prefix
  clientIDs : Finset String

/-- The loop of `processAccessClients` from the index `i` on; an error is the value and the index. -/
def processAccessClients (env : AccessEnv) : ℕ → List String → AccessClients → Except (String × ℕ) AccessClients
  | _, [], c => .ok c
  | i, s :: clientStrs, c =>
    match parseAddr s with
    | some ip => processAccessClients env (i + 1) clientStrs { c with ips := insert ip c.ips }
    | none =>
      match parsePrefix s with
      | some ipnet => processAccessClients env (i + 1) clientStrs { c with nets := c.nets ++ [ipnet] }
      | none =>
        if env.validateHostnameLabel s then
          processAccessClients env (i + 1) clientStrs { c with clientIDs := insert s c.clientIDs }
        else .error (s, i)

def newAccessCtx (env : AccessEnv) (allowed blocked blockedHosts : List String) :
    Except AccessError AccessManager :=
  match processAccessClients env 0 allowed ⟨∅, [], ∅⟩ with
  | .error (s, i) => .error (.badValue "adding allowed" s i)
  | .ok a =>
    match processAccessClients env 0 blocked ⟨∅, [], ∅⟩ with
    | .error (s, i) => .error (.badValue "adding blocked" s i)
    | .ok b =>
      match env.newDNSEngine (String.join (blockedHosts.map fun h => h.toLower ++ "\n")) with
      | none => .error .blockedHosts
      | some eng => .ok ⟨a.ips, b.ips, a.clientIDs, b.clientIDs, eng, a.nets, b.nets⟩

namespace AccessManager

def allowlistMode (a : AccessManager) : Bool :=
  a.allowedIPs.card ≠ 0 ∨ a.allowedClientIDs.card ≠ 0 ∨ a.allowedNets.length ≠ 0

def isBlockedClientID (a : AccessManager) (id : String) : Bool :=
  -- In allowlist mode, requests without ClientIDs are blocked by default.
  if id = "" then a.allowlistMode
  else if a.allowlistMode then id ∉ a.allowedClientIDs
  else id ∈ a.blockedClientIDs

/-- The status of the address and the rule that decided it. -/
inductive IPRule
  | none
  | ip (a : Addr)
  | net (p : Prefix)
deriving DecidableEq

def isBlockedIP (a : AccessManager) (ip : Addr) : Bool × IPRule :=
  let (blocked, ips, ipnets) :=
    if a.allowlistMode then (false, a.allowedIPs, a.allowedNets) else (true, a.blockedIPs, a.blockedNets)
  if ip ∈ ips then (blocked, .ip ip) else
  match ipnets.find? fun ipnet => ipnet.contains ip.withoutZone with
  | some ipnet => (blocked, .net ipnet)
  | none => (!blocked, .none)

end AccessManager

/-- The answer for a client and the rule that it is reported with. -/
inductive ClientRule
  | ip (r : AccessManager.IPRule)
  | clientID (id : String)
deriving DecidableEq

/-- `cmp.Or(rule, clientID)`. -/
def ClientRule.or (rule : AccessManager.IPRule) (clientID : String) : ClientRule :=
  if rule = .none then .clientID clientID else .ip rule

def isBlockedClient (a : AccessManager) (ip : Addr) (clientID : String) : Bool × ClientRule :=
  let (blockedByIP, rule) := if ip = .invalid then (false, .none) else a.isBlockedIP ip
  let blockedByClientID := a.isBlockedClientID clientID
  if a.allowlistMode ∧ blockedByIP ∧ blockedByClientID then (true, .ip rule)
  else (!a.allowlistMode && (blockedByIP || blockedByClientID), .or rule clientID)

end AdGuardHome.Dnsforward
