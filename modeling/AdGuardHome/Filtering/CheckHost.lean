import AdGuardHome.Aghnet.Text
import AdGuardHome.Client.Lookup
import AdGuardHome.Filtering.FilterYAML
import AdGuardHome.Filtering.RewriteChain
import AdGuardHome.Hashprefix.Cached
import AdGuardHome.Lib.Stages
import AdGuardHome.Lib.Utf8
import AdGuardHome.Safesearch.Default
import Mathlib.Data.List.Dedup

/-!
# The checks of a host (`internal/filtering/filtering.go`, `dnsrewrite.go`, `hosts.go`, `blocked.go`, `safesearch.go`)

`CheckHost` asks the legacy rewrites and then the host checkers, one after another, until one of them matches.  The
engines of `urlfilter` are arbitrary functions here; the checkers for hash prefixes and safe search are those of their
packages, with their caches.
-/

namespace AdGuardHome.Filtering

open AdGuardHome.Aghnet AdGuardHome.Client AdGuardHome.Hashprefix AdGuardHome.Lib AdGuardHome.Net

/-! ## Rules and what an engine finds -/

/-- `rules.NetworkRule` -/
structure NetworkRule where
  text : String
  filterListID : ListID
  whitelist : Bool := false
deriving DecidableEq

/-- `rules.DNSRewrite` -/
structure DNSRewrite where
  newCNAME : String := ""
  rcode : ℕ := 0
  rrType : UInt16 := 0
  /-- Nil for types whose values the rules do not have, and without a type. -/
  value : RRValue := .nil
deriving DecidableEq

/-- A network rule with a rewrite. -/
structure RewriteRule extends NetworkRule where
  dnsRewrite : DNSRewrite
deriving DecidableEq

/-- `rules.HostRule` -/
structure HostRule where
  text : String
  filterListID : ListID
  ip : Addr
deriving DecidableEq

/-- `urlfilter.DNSResult`.  The slices of host rules are nil when they are empty. -/
structure DNSResult where
  networkRule : Option NetworkRule := none
  hostRulesV4 : List HostRule := []
  hostRulesV6 : List HostRule := []
  /-- What `DNSRewrites` returns. -/
  dnsRewrites : List RewriteRule := []

/-- `urlfilter.DNSRequest` -/
structure DNSRequest where
  hostname : String
  clientTags : List String
  clientIP : Addr
  clientIdentifiers : List String
  dnsType : UInt16

/-- `urlfilter.DNSEngine` -/
structure DNSEngine where
  matchRequest : DNSRequest → DNSResult × Bool

/-- The types for which rules have values. -/
def valueTypes : List UInt16 := [1, 28, 12, 16, 15, 64, 65, 33]

/-- The value is one for records of the type. -/
def OfType (rr : UInt16) : RRValue → Prop
  | .nil => rr ∉ valueTypes
  | .ip _ => rr = 1 ∨ rr = 28
  | .text _ => rr = 12 ∨ rr = 16
  | .mx .. => rr = 15
  | .svcb _ => rr = 64 ∨ rr = 65
  | .srv .. => rr = 33

/-- The rewrites of an engine have values of their types, as `rules.RRValue` is documented. -/
def DNSEngine.Typed (engine : DNSEngine) : Prop :=
  ∀ req, ∀ nr ∈ (engine.matchRequest req).1.dnsRewrites, OfType nr.dnsRewrite.rrType nr.dnsRewrite.value

/-- `hostsfile.Storage` -/
structure HostsStorage where
  byAddr : Addr → List String
  byName : String → List Addr

/-- `rulelist.APIID` of a list. -/
def apiID (id : ListID) : ℤ := id.toInt64.toInt

def apiIDEtcHosts : ℤ := -1
def apiIDParentalControl : ℤ := -3
def apiIDSafeBrowsing : ℤ := -4

def newResultRule (text : String) (id : ListID) : ResultRule := ⟨text, .invalid, apiID id⟩

def NetworkRule.result (r : NetworkRule) : ResultRule := newResultRule r.text r.filterListID

def HostRule.result (r : HostRule) : ResultRule := newResultRule r.text r.filterListID

def makeResult (matchedRules : List ResultRule) (reason : Reason) : Result where
  rules := matchedRules
  reason := reason
  isFiltered := reason = .filteredBlockList

/-- `Reason.Matched` -/
def Reason.matched (r : Reason) : Bool := r ≠ .notFilteredNotFound

/-- What the checks take from outside. -/
structure FilterEnv where
  rewrites : RewriteEnv
  /-- `netutil.IPFromReversedAddr` -/
  ipFromReversedAddr : String → Option Addr
  /-- `rules.NetworkRule.Match`, for a request with the host name. -/
  ruleMatches : NetworkRule → String → Bool
  serviceRules : String → Option (List NetworkRule)
  prefixes : Hashprefix.Env
  safeBrowsing : Hashprefix.Config
  parental : Hashprefix.Config
  search : Safesearch.RuleEngine

/-- The part of a `DNSFilter` that `CheckHost` reads, with the caches that it changes. -/
structure HostChecks where
  conf : RewriteConf
  etcHosts : Option HostsStorage
  filteringEngineAllow : Option DNSEngine
  filteringEngine : Option DNSEngine
  safeBrowsingChecker : Checker
  parentalControlChecker : Checker
  safeSearch : Option ℕ
  /-- The safe search objects by number. -/
  searches : ℕ → Safesearch.Default

/-- What the caches and the upstreams of a checker meet: the time of the lookup, that of the entries it stores, and the
exchange. -/
structure Outside where
  now : ℤ
  clock : Hashprefix.Bytes → ℤ
  exchange : Hashprefix.Bytes → Except Hashprefix.Err (List Hashprefix.RR)

/-- What a call of `CheckHost` meets. -/
structure Meeting where
  safeBrowsing : Outside
  parental : Outside
  /-- The times of the read of the cache of safe search and of the write to it. -/
  now : ℤ
  stored : ℤ

/-- The hashes of unsafe hosts and those of hosts for adults. -/
structure Databases where
  safeBrowsing : Set HostnameHash
  parental : Set HostnameHash

/-- The upstreams of the checkers serve the databases. -/
def Meeting.Serves (env : FilterEnv) (db : Databases) (m : Meeting) : Prop :=
  Hashprefix.Serves env.safeBrowsing db.safeBrowsing m.safeBrowsing.exchange ∧
    Hashprefix.Serves env.parental db.parental m.parental.exchange

def errText : Hashprefix.Err → String
  | .upstream text => text
  | .gettingHashes err => "getting hashes: " ++ errText err

/-! ## `$dnsrewrite` -/

/-- The value added to those of the type. -/
def addValue (response : List (UInt16 × List RRValue)) (rrType : UInt16) (value : RRValue) :
    List (UInt16 × List RRValue) :=
  (rrType, (response.lookup rrType).getD [] ++ [value]) :: response.filter (·.1 ≠ rrType)

/-- The loop of `processDNSRewrites`, with the response and the rules so far. -/
def processDNSRewritesLoop :
    List RewriteRule → List (UInt16 × List RRValue) → List ResultRule → Result
  | [], response, rules =>
    { dnsRewriteResult := some ⟨some response, 0⟩, rules := rules, reason := .rewrittenRule }
  | nr :: dnsr, response, rules =>
    let dr := nr.dnsRewrite
    if dr.newCNAME ≠ "" then { rules := [nr.result], reason := .rewrittenRule, canonName := dr.newCNAME }
    else if dr.rcode = 0 then
      processDNSRewritesLoop dnsr (addValue response dr.rrType dr.value) (rules ++ [nr.result])
    else { dnsRewriteResult := some ⟨none, dr.rcode⟩, rules := [nr.result], reason := .rewrittenRule }

def processDNSRewrites (dnsr : List RewriteRule) : Result := processDNSRewritesLoop dnsr [] []

/-- The rewrite decides alone: it has a canonical name or a code for a failure. -/
def RewriteRule.Final (nr : RewriteRule) : Prop := nr.dnsRewrite.newCNAME ≠ "" ∨ nr.dnsRewrite.rcode ≠ 0

instance (nr : RewriteRule) : Decidable nr.Final := inferInstanceAs (Decidable (_ ∨ _))

/-- The values of the rules for a type. -/
def valuesOf (rrType : UInt16) (dnsr : List RewriteRule) : List RRValue :=
  (dnsr.filter fun nr => nr.dnsRewrite.rrType = rrType).map fun nr => nr.dnsRewrite.value

theorem lookup_addValue (response : List (UInt16 × List RRValue)) (rrType rr : UInt16) (value : RRValue) :
    ((addValue response rrType value).lookup rr).getD [] =
      (response.lookup rr).getD [] ++ if rr = rrType then [value] else [] := by
  unfold addValue
  rw [List.lookup_cons]
  by_cases h : rr = rrType
  · subst h
    simp
  · have hfilter : (response.filter (·.1 ≠ rrType)).lookup rr = response.lookup rr := by
      induction response with
      | nil => rfl
      | cons e response ih =>
        obtain ⟨t, vs⟩ := e
        by_cases ht : t = rrType
        · subst ht
          rw [List.filter_cons_of_neg (by simp), ih, List.lookup_cons, beq_false_of_ne h]
        · rw [List.filter_cons_of_pos (by simpa using ht), List.lookup_cons, List.lookup_cons, ih]
    rw [beq_false_of_ne h, if_neg h, List.append_nil]
    exact congrArg (·.getD []) hfilter

/-- A final rule after others that are not final. -/
theorem processDNSRewritesLoop_final {before : List RewriteRule} (hbefore : ∀ nr ∈ before, ¬ nr.Final)
    {nr : RewriteRule} (hfinal : nr.Final) (after : List RewriteRule) (response : List (UInt16 × List RRValue))
    (rules : List ResultRule) :
    processDNSRewritesLoop (before ++ nr :: after) response rules =
      if nr.dnsRewrite.newCNAME ≠ "" then
        { rules := [nr.result], reason := .rewrittenRule, canonName := nr.dnsRewrite.newCNAME }
      else { dnsRewriteResult := some ⟨none, nr.dnsRewrite.rcode⟩, rules := [nr.result], reason := .rewrittenRule } := by
  induction before generalizing response rules with
  | nil =>
    rw [List.nil_append, processDNSRewritesLoop]
    split
    · rfl
    · rw [if_neg (hfinal.resolve_left ‹_›)]
  | cons nr' before ih =>
    obtain ⟨hnr', hbefore⟩ := List.forall_mem_cons.1 hbefore
    obtain ⟨hname, hcode⟩ := not_or.1 hnr'
    rw [List.cons_append, processDNSRewritesLoop]
    rw [if_neg hname, if_pos (not_not.1 hcode)]
    exact ih hbefore _ _

/-- Rules none of which is final. -/
theorem processDNSRewritesLoop_values {dnsr : List RewriteRule} (h : ∀ nr ∈ dnsr, ¬ nr.Final)
    (response : List (UInt16 × List RRValue)) (rules : List ResultRule) :
    ∃ response', processDNSRewritesLoop dnsr response rules =
        { dnsRewriteResult := some ⟨some response', 0⟩
          rules := rules ++ dnsr.map fun nr => nr.result
          reason := .rewrittenRule } ∧
      ∀ rr, (response'.lookup rr).getD [] = (response.lookup rr).getD [] ++ valuesOf rr dnsr := by
  induction dnsr generalizing response rules with
  | nil => exact ⟨response, by rw [List.map_nil, List.append_nil]; rfl, fun rr => (List.append_nil _).symm⟩
  | cons nr dnsr ih =>
    obtain ⟨hnr, hdnsr⟩ := List.forall_mem_cons.1 h
    obtain ⟨hname, hcode⟩ := not_or.1 hnr
    obtain ⟨response', hres, hvalues⟩ := ih hdnsr (addValue response nr.dnsRewrite.rrType nr.dnsRewrite.value)
      (rules ++ [nr.result])
    refine ⟨response', ?_, fun rr => ?_⟩
    · rw [processDNSRewritesLoop]
      rw [if_neg hname, if_pos (not_not.1 hcode), hres, List.append_assoc]
      rfl
    · rw [hvalues, lookup_addValue, List.append_assoc]
      congr 1
      unfold valuesOf
      by_cases htype : rr = nr.dnsRewrite.rrType
      · rw [if_pos htype, List.filter_cons_of_pos (by simpa using htype.symm), List.map_cons,
          List.singleton_append]
      · rw [if_neg htype, List.filter_cons_of_neg (by simpa using Ne.symm htype), List.nil_append]

/-- The first rule with a canonical name or a failure decides alone, whatever comes before and after it; without one
every type has the values of its rules, in their order. -/
theorem processDNSRewrites_spec (dnsr : List RewriteRule) :
    (∃ before nr after, dnsr = before ++ nr :: after ∧ (∀ r ∈ before, ¬ r.Final) ∧ nr.Final ∧
        processDNSRewrites dnsr = if nr.dnsRewrite.newCNAME ≠ "" then
            { rules := [nr.result], reason := .rewrittenRule, canonName := nr.dnsRewrite.newCNAME }
          else
            { dnsRewriteResult := some ⟨none, nr.dnsRewrite.rcode⟩, rules := [nr.result],
              reason := .rewrittenRule }) ∨
      ((∀ r ∈ dnsr, ¬ r.Final) ∧ ∃ response, processDNSRewrites dnsr =
          { dnsRewriteResult := some ⟨some response, 0⟩
            rules := dnsr.map fun nr => nr.result
            reason := .rewrittenRule } ∧
        ∀ rr, (response.lookup rr).getD [] = valuesOf rr dnsr) := by
  cases hfind : dnsr.find? fun nr => nr.Final with
  | none =>
    have hno : ∀ nr ∈ dnsr, ¬ nr.Final := by simpa using hfind
    exact .inr ⟨hno, processDNSRewritesLoop_values hno [] []⟩
  | some nr =>
    obtain ⟨hfinal, before, after, rfl, hbefore⟩ := List.find?_eq_some_iff_append.1 hfind
    have hbefore' : ∀ nr ∈ before, ¬ nr.Final := by simpa using hbefore
    have hfinal' : nr.Final := by simpa using hfinal
    exact .inl ⟨before, nr, after, rfl, hbefore', hfinal', processDNSRewritesLoop_final hbefore' hfinal' after [] []⟩

def processDNSResultRewrites (dnsres : DNSResult) (host : String) : Result :=
  if dnsres.dnsRewrites = [] then {}
  else
    let res := processDNSRewrites dnsres.dnsRewrites
    -- A rewrite of a host to itself.
    if res.reason = .rewrittenRule ∧ res.canonName = host then {} else res

theorem processDNSRewrites_reason (dnsr : List RewriteRule) :
    (processDNSRewrites dnsr).reason = .rewrittenRule ∧ (processDNSRewrites dnsr).isFiltered = false := by
  rcases processDNSRewrites_spec dnsr with ⟨_, nr, _, -, -, -, hres⟩ | ⟨-, _, hres, -⟩
  · rw [hres]
    split <;> exact ⟨rfl, rfl⟩
  · rw [hres]
    exact ⟨rfl, rfl⟩

theorem processDNSResultRewrites_cases (dnsres : DNSResult) (host : String) :
    processDNSResultRewrites dnsres host = {} ∨ ((processDNSResultRewrites dnsres host).reason = .rewrittenRule ∧
      (processDNSResultRewrites dnsres host).isFiltered = false) := by
  unfold processDNSResultRewrites
  split
  · exact .inl rfl
  · dsimp only
    split
    · exact .inl rfl
    · exact .inr (processDNSRewrites_reason _)

/-! ## Host checkers -/

/-- `matchHostProcessAllowList` -/
def matchHostProcessAllowList (dnsres : DNSResult) : Except String Result :=
  match dnsres.networkRule with
  | some nr => .ok (makeResult [nr.result] .notFilteredAllowList)
  | none =>
    let matchedRules := if dnsres.hostRulesV4 ≠ [] then dnsres.hostRulesV4 else dnsres.hostRulesV6
    if matchedRules = [] then .error "invalid dns result: rules are empty"
    else .ok (makeResult (matchedRules.map HostRule.result) .notFilteredAllowList)

/-- The rules with their addresses. -/
def resultWithIPs (hostRules : List HostRule) : Result :=
  makeResult (hostRules.map fun hr => { hr.result with ip := hr.ip }) .filteredBlockList

/-- `resultFromHostRules`; `none` if there are none for the type. -/
def resultFromHostRules (qtype : UInt16) (dnsres : DNSResult) : Option Result :=
  if qtype = typeA ∧ dnsres.hostRulesV4 ≠ [] then some (resultWithIPs dnsres.hostRulesV4)
  else if qtype = typeAAAA ∧ dnsres.hostRulesV6 ≠ [] then some (resultWithIPs dnsres.hostRulesV6)
  else none

def hostResultForOtherQType (dnsres : DNSResult) : Result :=
  match dnsres.hostRulesV4, dnsres.hostRulesV6 with
  | hr :: _, _ => makeResult [hr.result] .filteredBlockList
  | [], hr :: _ => makeResult [hr.result] .filteredBlockList
  | [], [] => {}

def matchHostProcessDNSResult (qtype : UInt16) (dnsres : DNSResult) : Result :=
  match dnsres.networkRule with
  | some nr => makeResult [nr.result] (if nr.whitelist then .notFilteredAllowList else .filteredBlockList)
  | none => (resultFromHostRules qtype dnsres).getD (hostResultForOtherQType dnsres)

def dnsRequest (host : String) (rrtype : UInt16) (setts : Settings) : DNSRequest where
  hostname := host
  -- A sorted set.
  clientTags := setts.clientTags.dedup.mergeSort
  clientIP := setts.clientIP
  clientIdentifiers := [setts.clientName]
  dnsType := rrtype

def typePTR : UInt16 := 12

namespace HostChecks

variable (env : FilterEnv)

/-- The rules that `hostsRewrites` makes. -/
def hostsRule (ip : Addr) (name : String) : ResultRule := ⟨addrString ip ++ " " ++ name, .invalid, apiIDEtcHosts⟩

/-- `hostsRewrites`; `none` if nothing has matched. -/
def hostsRewrites (qtype : UInt16) (host : String) (hs : HostsStorage) : Option (List RRValue × List ResultRule) :=
  if qtype = typePTR then
    match env.ipFromReversedAddr host with
    | none => none
    | some ip =>
      let names := hs.byAddr ip
      if names = [] then none else some (names.map .text, names.map (hostsRule ip))
  else if qtype = typeA ∨ qtype = typeAAAA then
    let addrs := hs.byName host
    let isValidProto := if qtype = typeA then Addr.is4 else Addr.is6
    if addrs = [] then none
    else some ((addrs.filter isValidProto).map .ip, addrs.map fun ip => hostsRule ip host)
  else none

def matchSysHosts (host : String) (qtype : UInt16) (setts : Settings) (d : HostChecks) : Result :=
  if !setts.filteringEnabled then {}
  else
    match d.etcHosts.bind (hostsRewrites env qtype host) with
    | none => {}
    | some (vals, rs) =>
      { dnsRewriteResult := some ⟨some [(qtype, vals)], 0⟩, rules := rs, reason := .rewrittenAutoHosts }

/-- The part of `matchHost` after the allowlists. -/
def matchBlocked (host : String) (rrtype : UInt16) (setts : Settings) (d : HostChecks) : Result :=
  match d.filteringEngine with
  | none => {}
  | some engine =>
    let (dnsres, matchedEngine) := engine.matchRequest (dnsRequest host rrtype setts)
    let dnsRWRes := processDNSResultRewrites dnsres host
    if dnsRWRes.reason ≠ .notFilteredNotFound then dnsRWRes
    else if !matchedEngine then {}
    -- Other results are not for a client without protection.
    else if !setts.protectionEnabled then {}
    else matchHostProcessDNSResult rrtype dnsres

def matchHost (host : String) (rrtype : UInt16) (setts : Settings) (d : HostChecks) : Except String Result :=
  if !setts.filteringEnabled then .ok {}
  else
    let allowed := if setts.protectionEnabled then
        d.filteringEngineAllow.map fun engine => engine.matchRequest (dnsRequest host rrtype setts)
      else none
    match allowed with
    | some (dnsres, true) => matchHostProcessAllowList dnsres
    | _ => .ok (matchBlocked host rrtype setts d)

/-- The rule of a service that matches the host, with the name of the service. -/
def matchedService (host : String) (svcs : List String) : Option (String × NetworkRule) :=
  svcs.findSome? fun name =>
    (((env.serviceRules name).getD []).find? fun rule => env.ruleMatches rule host).map fun rule => (name, rule)

def matchBlockedServicesRules (host : String) (setts : Settings) : Result :=
  if !setts.protectionEnabled then {}
  else
    match matchedService env host setts.servicesRules with
    | none => {}
    | some (name, rule) =>
      { reason := .filteredBlockedService, isFiltered := true, serviceName := name, rules := [rule.result] }

/-- The result with one rule that `checkSafeBrowsing` and `checkParental` return. -/
def hashResult (text : String) (id : ℤ) (reason : Reason) : Result where
  rules := [⟨text, .invalid, id⟩]
  reason := reason
  isFiltered := true

def safeBrowsingResult : Result := hashResult "adguard-malware-shavar" apiIDSafeBrowsing .filteredSafeBrowsing

def parentalResult : Result := hashResult "parental CATEGORY_BLACKLISTED" apiIDParentalControl .filteredParental

/-- `checkSafeBrowsing` and `checkParental`, for a checker and its result. -/
def checkHashes (conf : Hashprefix.Config) (o : Outside) (host : String) (enabled : Bool) (res : Result) (c : Checker) :
    Checker × Option (Except String Result) :=
  if !enabled then (c, some (.ok {}))
  else
    match c.check conf env.prefixes o.now o.clock o.exchange (utf8 host.toList) with
    | none => (c, none)
    | some (.error err, c) => (c, some (.error (errText err)))
    | some (.ok block, c) => (c, some (.ok (if block then res else {})))

def checkSafeBrowsing (o : Outside) (host : String) (setts : Settings) (d : HostChecks) :
    HostChecks × Option (Except String Result) :=
  let (c, res) := checkHashes env env.safeBrowsing o host (setts.protectionEnabled && setts.safeBrowsingEnabled)
    safeBrowsingResult d.safeBrowsingChecker
  ({ d with safeBrowsingChecker := c }, res)

def checkParental (o : Outside) (host : String) (setts : Settings) (d : HostChecks) :
    HostChecks × Option (Except String Result) :=
  let (c, res) := checkHashes env env.parental o host (setts.protectionEnabled && setts.parentalEnabled) parentalResult
    d.parentalControlChecker
  ({ d with parentalControlChecker := c }, res)

/-- The safe search object that `checkSafeSearch` asks. -/
def searchOf (setts : Settings) (d : HostChecks) : Option ℕ :=
  if d.safeSearch.isNone ∨ !setts.protectionEnabled ∨ !setts.safeSearchEnabled then none
  else setts.clientSafeSearch.or d.safeSearch

def checkSafeSearch (m : Meeting) (host : String) (qtype : UInt16) (setts : Settings) (d : HostChecks) :
    HostChecks × Option (Except String Result) :=
  match d.searchOf setts with
  | none => (d, some (.ok {}))
  | some p =>
    let (ss, res) := (d.searches p).checkHost env.search host qtype m.now m.stored
    ({ d with searches := Function.update d.searches p ss }, some res)

/-! ## `CheckHost` -/

/-- `hostChecker`, with a check of one host. -/
structure HostChecker where
  name : String
  check : HostChecks → HostChecks × Option (Except String Result)

/-- A checker without caches. -/
def HostChecker.pure (name : String) (check : HostChecks → Except String Result) : HostChecker :=
  ⟨name, fun d => (d, some (check d))⟩

/-- The error of a checker with its name. -/
def named (name : String) (code : Option (Except String Result)) : Option (Except String Result) :=
  code.map (Except.mapError fun err => name ++ ": " ++ err)

def HostChecker.stage (hc : HostChecker) (d : HostChecks) : HostChecks × Option (Except String Result) :=
  ((hc.check d).1, named hc.name (hc.check d).2)

/-- The checkers that `New` sets, in their order. -/
def hostCheckers (m : Meeting) (host : String) (qtype : UInt16) (setts : Settings) : List HostChecker :=
  [.pure "hosts container" fun d => .ok (d.matchSysHosts env host qtype setts),
    .pure "filtering" (matchHost host qtype setts),
    .pure "blocked services" fun _ => .ok (matchBlockedServicesRules env host setts),
    ⟨"safe browsing", checkSafeBrowsing env m.safeBrowsing host setts⟩,
    ⟨"parental", checkParental env m.parental host setts⟩,
    ⟨"safe search", checkSafeSearch env m host qtype setts⟩]

/-- An error, a panic or a match ends the loop over the checkers. -/
def ended : Option (Except String Result) → Option (Option (Except String Result))
  | some (.ok res) => if res.reason.matched then some (some (.ok res)) else none
  | code => some code

/-- `processRewrites`, with enough turns for its loop. -/
def processRewrites (host : String) (qtype : UInt16) (d : HostChecks) : Result :=
  (Filtering.processRewrites env.rewrites d.conf (d.conf.rewrites.length + 1) host qtype).getD {}

/-- `CheckHost`; `none` for a panic. -/
def checkHost (m : Meeting) (host : String) (qtype : UInt16) (setts : Settings) (d : HostChecks) :
    HostChecks × Option (Except String Result) :=
  if host = "" then (d, some (.ok {}))
  else
    let host := env.rewrites.toLower host
    let res := if setts.filteringEnabled then d.processRewrites env host qtype else {}
    if res.reason = .rewritten then (d, some (.ok res))
    else
      Stages.run (fun _ => ended) (fun d => (d, some (.ok {})))
        ((hostCheckers env m host qtype setts).map HostChecker.stage) d

/-- `CheckHostRules` -/
def checkHostRules (host : String) (rrtype : UInt16) (setts : Settings) (d : HostChecks) : Except String Result :=
  matchHost (env.rewrites.toLower host) rrtype setts d

/-! ## Settings of a request -/

/-- `ApplyBlockedServicesList`.  A service is its name here, and its rules are those of `serviceRules`. -/
def applyBlockedServicesList (setts : Settings) (list : List String) : Settings :=
  { setts with servicesRules := setts.servicesRules ++ list.filter fun name => (env.serviceRules name).isSome }

/-- The services of `bsvc` added, unless they are paused; `contains` is `Weekly.Contains` at the time of the request. -/
def applyUnpaused (contains : Option Weekly → Bool) (bsvc : BlockedServices) (setts : Settings) : Settings :=
  if contains bsvc.schedule then setts else applyBlockedServicesList env setts bsvc.ids

/-- `ApplyAdditionalFiltering`, with the blocked services of the configuration and those of the client's settings. -/
def applyAdditionalFiltering (contains : Option Weekly → Bool) (bsvc : BlockedServices) (s : Client.Storage)
    (macByIP : Addr → Option HardwareAddr) (cliAddr : Addr) (clientID : String) (setts : Settings) :
    Except Fault Settings :=
  let setts := applyUnpaused env contains bsvc { setts with clientIP := cliAddr, servicesRules := [] }
  match s.applyClientFiltering macByIP clientID cliAddr setts with
  | .error e => .error e
  | .ok setts =>
    match setts.blockedServices with
    | none => .ok setts
    | some bsvc => .ok (applyUnpaused env contains bsvc { setts with servicesRules := [] })

/-! ## Changes of the configuration -/

/-- A call, or a change of what it reads. -/
inductive Op
  | checkHost (m : Meeting) (host : String) (qtype : UInt16) (setts : Settings)
  | setRewrites (conf : RewriteConf)
  /-- `initFiltering` with other engines. -/
  | setFilters (filteringEngineAllow filteringEngine : Option DNSEngine)
  | setHosts (etcHosts : Option HostsStorage)
  | updateSafeSearch (p : ℕ) (conf : SafeSearchConfig)
  /-- A client gets a safe search object of its own. -/
  | newSafeSearch (p : ℕ) (conf : SafeSearchConfig) (cacheTTL : ℤ)
  /-- The caches drop entries. -/
  | evict (safeBrowsing parental : List Hashprefix.Bytes) (p : ℕ) (keys : List String)

def step (d : HostChecks) : Op → HostChecks
  | .checkHost m host qtype setts => (d.checkHost env m host qtype setts).1
  | .setRewrites conf => { d with conf := conf }
  | .setFilters allow block => { d with filteringEngineAllow := allow, filteringEngine := block }
  | .setHosts etcHosts => { d with etcHosts := etcHosts }
  | .updateSafeSearch p conf =>
    match (d.searches p).update env.search conf with
    | .error _ => d
    | .ok ss => { d with searches := Function.update d.searches p ss }
  | .newSafeSearch p conf cacheTTL =>
    match Safesearch.Default.newDefault env.search conf cacheTTL with
    | .error _ => d
    | .ok ss => { d with searches := Function.update d.searches p ss }
  | .evict safeBrowsing parental p keys => { d with
      safeBrowsingChecker := ⟨d.safeBrowsingChecker.cache.delAll safeBrowsing⟩
      parentalControlChecker := ⟨d.parentalControlChecker.cache.delAll parental⟩
      searches := Function.update d.searches p
        { d.searches p with cache := (d.searches p).cache.delAll keys } }

/-! ## What a host is without caches -/

section Verdict

/-- A name of the host or of one of its parents is in the database. -/
def Listed (S : Set HostnameHash) (host : String) : Prop :=
  ∃ h ∈ hostnameToHashes env.prefixes (utf8 host.toList), h ∈ S

open Classical in
noncomputable def hashVerdict (S : Set HostnameHash) (host : String) (enabled : Bool) (res : Result) : Result :=
  if enabled = true ∧ Listed env S host then res else {}

/-- What the engine of the safe search object says that is asked. -/
def searchVerdict (host : String) (qtype : UInt16) (setts : Settings) (d : HostChecks) : Except String Result :=
  match d.searchOf setts with
  | none => .ok {}
  | some p =>
    if qtype ≠ Safesearch.typeA ∧ qtype ≠ Safesearch.typeAAAA ∧ qtype ≠ Safesearch.typeHTTPS then .ok {}
    else (d.searches p).search env.search host qtype

/-- What the checkers say of a host, with their names. -/
noncomputable def verdicts (db : Databases) (host : String) (qtype : UInt16) (setts : Settings) (d : HostChecks) :
    List (String × Except String Result) :=
  [("hosts container", .ok (d.matchSysHosts env host qtype setts)),
    ("filtering", matchHost host qtype setts d),
    ("blocked services", .ok (matchBlockedServicesRules env host setts)),
    ("safe browsing", .ok (hashVerdict env db.safeBrowsing host (setts.protectionEnabled && setts.safeBrowsingEnabled)
      safeBrowsingResult)),
    ("parental", .ok (hashVerdict env db.parental host (setts.protectionEnabled && setts.parentalEnabled)
      parentalResult)),
    ("safe search", searchVerdict env host qtype setts d)]

/-- The first of the checkers that fails or matches decides. -/
def decides (v : String × Except String Result) : Option (Except String Result) :=
  match v.2 with
  | .error err => some (.error (v.1 ++ ": " ++ err))
  | .ok res => if res.reason.matched then some (.ok res) else none

/-- What `CheckHost` says of a host, as a function of the configuration and the databases. -/
noncomputable def verdict (db : Databases) (host : String) (qtype : UInt16) (setts : Settings) (d : HostChecks) :
    Except String Result :=
  if host = "" then .ok {}
  else
    let host := env.rewrites.toLower host
    let res := if setts.filteringEnabled then d.processRewrites env host qtype else {}
    if res.reason = .rewritten then .ok res
    else Stages.outcome decides (.ok {}) (verdicts env db host qtype setts d)

end Verdict

/-! ## The caches make no difference -/

variable {env} {db : Databases} {d d' : HostChecks} {host : String} {qtype : UInt16} {setts : Settings}

/-- The caches have what the databases and the engines say. -/
structure Coherent (env : FilterEnv) (db : Databases) (d : HostChecks) : Prop where
  safeBrowsing : Sound db.safeBrowsing d.safeBrowsingChecker
  parental : Sound db.parental d.parentalControlChecker
  searches : ∀ p, (d.searches p).Cached env.search

/-- The two differ in their caches at most. -/
structure SameConf (d d' : HostChecks) : Prop where
  conf : d'.conf = d.conf
  etcHosts : d'.etcHosts = d.etcHosts
  filteringEngineAllow : d'.filteringEngineAllow = d.filteringEngineAllow
  filteringEngine : d'.filteringEngine = d.filteringEngine
  safeSearch : d'.safeSearch = d.safeSearch
  engines : ∀ p, (d'.searches p).engine = (d.searches p).engine

theorem SameConf.refl (d : HostChecks) : SameConf d d := ⟨rfl, rfl, rfl, rfl, rfl, fun _ => rfl⟩

theorem SameConf.trans {d'' : HostChecks} (h : SameConf d d') (h' : SameConf d' d'') : SameConf d d'' :=
  ⟨h'.conf.trans h.conf, h'.etcHosts.trans h.etcHosts, h'.filteringEngineAllow.trans h.filteringEngineAllow,
    h'.filteringEngine.trans h.filteringEngine, h'.safeSearch.trans h.safeSearch,
    fun p => (h'.engines p).trans (h.engines p)⟩

theorem outcome_verdicts (vs : List (String × Except String Result)) :
    Stages.outcome ended (some (.ok {})) (vs.map fun v => named v.1 (some v.2)) =
      some (Stages.outcome decides (.ok {}) vs) := by
  unfold Stages.outcome
  induction vs with
  | nil => rfl
  | cons v vs ih =>
    obtain ⟨name, res⟩ := v
    cases res with
    | error err => rfl
    | ok res =>
      have hended : ended (named name (some (.ok res))) = (decides (name, .ok res)).map some := by
        change (if res.reason.matched then some (some (Except.ok res)) else none) =
          (if res.reason.matched then some (Except.ok res) else none).map some
        rw [apply_ite (Option.map some)]
        rfl
      rw [List.map_cons, List.findSome?_cons, List.findSome?_cons, hended]
      cases decides (name, .ok res) with
      | none => exact ih
      | some out => rfl

theorem checkHashes_eq {S : Set HostnameHash} {conf : Hashprefix.Config} {o : Outside} {c : Checker} (hc : Sound S c)
    (hserves : Hashprefix.Serves conf S o.exchange) (host : String) (enabled : Bool) (res : Result) :
    Sound S (checkHashes env conf o host enabled res c).1 ∧
      (checkHashes env conf o host enabled res c).2 = some (.ok (hashVerdict env S host enabled res)) := by
  unfold checkHashes hashVerdict
  cases enabled with
  | false =>
    rw [if_pos (by rfl), if_neg fun h => Bool.false_ne_true h.1]
    exact ⟨hc, rfl⟩
  | true =>
    obtain ⟨b, c', hcheck, hb, hc'⟩ := hc.check hserves env.prefixes o.now o.clock (utf8 host.toList)
    rw [if_neg (by decide), hcheck]
    refine ⟨hc', ?_⟩
    cases b with
    | false =>
      rw [if_neg fun h => Bool.false_ne_true (hb.2 h.2)]
      rfl
    | true =>
      rw [if_pos ⟨rfl, hb.1 rfl⟩]
      rfl

theorem SameConf.matchHost (h : SameConf d d') :
    HostChecks.matchHost host qtype setts d' = HostChecks.matchHost host qtype setts d := by
  unfold HostChecks.matchHost matchBlocked
  rw [h.filteringEngineAllow, h.filteringEngine]

theorem SameConf.matchSysHosts (h : SameConf d d') :
    d'.matchSysHosts env host qtype setts = d.matchSysHosts env host qtype setts := by
  unfold HostChecks.matchSysHosts
  rw [h.etcHosts]

theorem SameConf.searchVerdict (h : SameConf d d') :
    HostChecks.searchVerdict env host qtype setts d' = HostChecks.searchVerdict env host qtype setts d := by
  unfold HostChecks.searchVerdict searchOf
  rw [h.safeSearch]
  split
  · rfl
  next p _ => rw [Safesearch.Default.search_eq_of_engine (h.engines p)]

theorem checkSafeSearch_eq (h : Coherent env db d) (m : Meeting) (host : String) (qtype : UInt16)
    (setts : Settings) :
    Coherent env db (checkSafeSearch env m host qtype setts d).1 ∧
      SameConf d (checkSafeSearch env m host qtype setts d).1 ∧
      (checkSafeSearch env m host qtype setts d).2 = some (searchVerdict env host qtype setts d) := by
  unfold checkSafeSearch searchVerdict
  cases d.searchOf setts with
  | none => exact ⟨h, .refl d, rfl⟩
  | some p =>
    dsimp only
    have hsame : ∀ ss : Safesearch.Default, ss.Cached env.search → ss.engine = (d.searches p).engine →
        Coherent env db { d with searches := Function.update d.searches p ss } ∧
          SameConf d { d with searches := Function.update d.searches p ss } := by
      intro ss hss hengine
      refine ⟨⟨h.safeBrowsing, h.parental, fun q => ?_⟩, ⟨rfl, rfl, rfl, rfl, rfl, fun q => ?_⟩⟩
      · by_cases hq : q = p
        · subst hq
          dsimp only
          rw [Function.update_self]
          exact hss
        · dsimp only
          rw [Function.update_of_ne hq]
          exact h.searches q
      · by_cases hq : q = p
        · subst hq
          dsimp only
          rw [Function.update_self]
          exact hengine
        · dsimp only
          rw [Function.update_of_ne hq]
    by_cases hq : qtype ≠ Safesearch.typeA ∧ qtype ≠ Safesearch.typeAAAA ∧ qtype ≠ Safesearch.typeHTTPS
    · have hnone : (d.searches p).checkHost env.search host qtype m.now m.stored = (d.searches p, .ok {}) := by
        unfold Safesearch.Default.checkHost
        rw [if_pos hq]
      rw [hnone, if_pos hq]
      exact ⟨(hsame _ (h.searches p) rfl).1, (hsame _ (h.searches p) rfl).2, rfl⟩
    · have hq' : qtype = Safesearch.typeA ∨ qtype = Safesearch.typeAAAA ∨ qtype = Safesearch.typeHTTPS := by
        by_contra hno
        push Not at hno
        exact hq hno
      obtain ⟨hres, hcached, hengine⟩ := (h.searches p).checkHost host hq' m.now m.stored
      rw [if_neg hq, ← hres]
      exact ⟨(hsame _ hcached hengine).1, (hsame _ hcached hengine).2, rfl⟩

/-- A checker gives the verdict in every coherent state with the configuration, and keeps the state so. -/
def Gives (env : FilterEnv) (db : Databases) (d : HostChecks) (hc : HostChecker) (v : String × Except String Result) :
    Prop :=
  hc.name = v.1 ∧ ∀ d', Coherent env db d' ∧ SameConf d d' →
    (Coherent env db (hc.check d').1 ∧ SameConf d (hc.check d').1) ∧ (hc.check d').2 = some v.2

theorem hostCheckers_give {m : Meeting} (hm : m.Serves env db) (d : HostChecks) (host : String) (qtype : UInt16)
    (setts : Settings) :
    List.Forall₂ (Gives env db d) (hostCheckers env m host qtype setts) (verdicts env db host qtype setts d) := by
  refine .cons ⟨rfl, ?hosts⟩ (.cons ⟨rfl, ?filtering⟩ (.cons ⟨rfl, ?services⟩ (.cons ⟨rfl, ?safeBrowsing⟩
    (.cons ⟨rfl, ?parental⟩ (.cons ⟨rfl, ?safeSearch⟩ .nil)))))
  case hosts =>
    rintro d' ⟨h, hsame⟩
    exact ⟨⟨h, hsame⟩, congrArg (fun res => some (Except.ok res)) hsame.matchSysHosts⟩
  case filtering =>
    rintro d' ⟨h, hsame⟩
    exact ⟨⟨h, hsame⟩, congrArg some hsame.matchHost⟩
  case services =>
    rintro d' h
    exact ⟨h, rfl⟩
  case safeBrowsing =>
    rintro d' ⟨h, hsame⟩
    obtain ⟨hsound, hcode⟩ := checkHashes_eq h.safeBrowsing hm.1 host
      (setts.protectionEnabled && setts.safeBrowsingEnabled) safeBrowsingResult
    exact ⟨⟨⟨hsound, h.parental, h.searches⟩, hsame.conf, hsame.etcHosts, hsame.filteringEngineAllow,
      hsame.filteringEngine, hsame.safeSearch, hsame.engines⟩, hcode⟩
  case parental =>
    rintro d' ⟨h, hsame⟩
    obtain ⟨hsound, hcode⟩ := checkHashes_eq h.parental hm.2 host (setts.protectionEnabled && setts.parentalEnabled)
      parentalResult
    exact ⟨⟨⟨h.safeBrowsing, hsound, h.searches⟩, hsame.conf, hsame.etcHosts, hsame.filteringEngineAllow,
      hsame.filteringEngine, hsame.safeSearch, hsame.engines⟩, hcode⟩
  case safeSearch =>
    rintro d' ⟨h, hsame⟩
    obtain ⟨hcoherent, hsame', hcode⟩ := checkSafeSearch_eq h m host qtype setts
    exact ⟨⟨hcoherent, hsame.trans hsame'⟩, hcode.trans (congrArg some hsame.searchVerdict)⟩

/-- In a coherent state a call gives what the configuration and the databases say, and the state stays coherent. -/
theorem checkHost_eq (h : Coherent env db d) {m : Meeting} (hm : m.Serves env db) (host : String) (qtype : UInt16)
    (setts : Settings) :
    (Coherent env db (d.checkHost env m host qtype setts).1 ∧ SameConf d (d.checkHost env m host qtype setts).1) ∧
      (d.checkHost env m host qtype setts).2 = some (verdict env db host qtype setts d) := by
  unfold checkHost verdict
  split
  · exact ⟨⟨h, .refl d⟩, rfl⟩
  · dsimp only
    generalize (if setts.filteringEnabled then d.processRewrites env (env.rewrites.toLower host) qtype else {}) = res
    by_cases hrewritten : res.reason = .rewritten
    · rw [if_pos hrewritten, if_pos hrewritten]
      exact ⟨⟨h, .refl d⟩, rfl⟩
    · rw [if_neg hrewritten, if_neg hrewritten]
      have hrun := @Stages.run_eq_outcome HostChecks _ _ (fun _ => ended) (fun d => (d, some (.ok {})))
        ((hostCheckers env m (env.rewrites.toLower host) qtype setts).map HostChecker.stage) ended _
        (fun d' => Coherent env db d' ∧ SameConf d d')
        ((verdicts env db (env.rewrites.toLower host) qtype setts d).map fun v => named v.1 (some v.2))
        (fun _ _ => rfl) (fun _ => rfl) ?_ d ⟨h, .refl d⟩
      · refine ⟨hrun.1, hrun.2.trans ?_⟩
        exact outcome_verdicts _
      · rw [List.forall₂_map_left_iff, List.forall₂_map_right_iff]
        refine (hostCheckers_give hm d (env.rewrites.toLower host) qtype setts).imp ?_
        rintro hc v ⟨hname, hgives⟩ d' hd'
        obtain ⟨hkeep, hcode⟩ := hgives d' hd'
        refine ⟨hkeep, ?_⟩
        unfold HostChecker.stage
        rw [hname, hcode]

/-- The calls in a run meet upstreams that serve the databases. -/
def Op.Serves (env : FilterEnv) (db : Databases) : Op → Prop
  | .checkHost m _ _ _ => m.Serves env db
  | _ => True

theorem Coherent.update_searches (h : Coherent env db d) (p : ℕ) {ss : Safesearch.Default}
    (hss : ss.Cached env.search) : Coherent env db { d with searches := Function.update d.searches p ss } := by
  refine ⟨h.safeBrowsing, h.parental, fun q => ?_⟩
  dsimp only
  by_cases hq : q = p
  · subst hq
    rw [Function.update_self]
    exact hss
  · rw [Function.update_of_ne hq]
    exact h.searches q

theorem Coherent.step (h : Coherent env db d) (op : Op) (hop : op.Serves env db) : Coherent env db (d.step env op) := by
  cases op with
  | checkHost m host qtype setts => exact (checkHost_eq h hop host qtype setts).1.1
  | setRewrites conf => exact ⟨h.safeBrowsing, h.parental, h.searches⟩
  | setFilters allow block => exact ⟨h.safeBrowsing, h.parental, h.searches⟩
  | setHosts etcHosts => exact ⟨h.safeBrowsing, h.parental, h.searches⟩
  | updateSafeSearch p conf =>
    cases hupdate : (d.searches p).update env.search conf with
    | error err =>
      simp only [HostChecks.step, hupdate]
      exact h
    | ok ss =>
      simp only [HostChecks.step, hupdate]
      exact h.update_searches p (Safesearch.Default.cached_update hupdate)
  | newSafeSearch p conf cacheTTL =>
    cases hnew : Safesearch.Default.newDefault env.search conf cacheTTL with
    | error err =>
      simp only [HostChecks.step, hnew]
      exact h
    | ok ss =>
      simp only [HostChecks.step, hnew]
      exact h.update_searches p (Safesearch.Default.cached_newDefault hnew)
  | evict safeBrowsing parental p keys =>
    have hevict := h.update_searches p ((h.searches p).evict keys)
    exact ⟨@Sound.step _ _ env.safeBrowsing env.prefixes (.evict safeBrowsing) h.safeBrowsing trivial,
      @Sound.step _ _ env.parental env.prefixes (.evict parental) h.parental trivial, hevict.searches⟩

/-- After every run of calls and changes of the configuration, a call says of a host what the configuration that is
left and the databases say, as if there were no caches. -/
theorem checkHost_run (h : Coherent env db d) {ops : List Op} (hops : ∀ op ∈ ops, op.Serves env db) {m : Meeting}
    (hm : m.Serves env db) (host : String) (qtype : UInt16) (setts : Settings) :
    ((run (step env) d ops).checkHost env m host qtype setts).2 =
      some (verdict env db host qtype setts (run (step env) d ops)) := by
  have hrun : Coherent env db (run (step env) d ops) :=
    run_invariant_of_meets (fun _ op hd hop => hd.step op hop) h (meets_of_forall (fun op hop _ => hops op hop) _)
  exact (checkHost_eq hrun hm host qtype setts).2

/-- No rules, and checkers that know the host of the example as unsafe. -/
def unsafeEnv : FilterEnv where
  rewrites := asciiEnv
  ipFromReversedAddr _ := none
  ruleMatches _ _ := false
  serviceRules _ := none
  prefixes := exampleEnv
  safeBrowsing := exampleConf
  parental := exampleConf
  search := ⟨fun _ => [], id, fun _ => none, fun _ _ _ => none⟩

def unsafeHosts : Databases := ⟨{h | h ∈ [exampleHash]}, {h | h ∈ ([] : List HostnameHash)}⟩

def emptyChecks : HostChecks where
  conf := ⟨[], true⟩
  etcHosts := none
  filteringEngineAllow := none
  filteringEngine := none
  safeBrowsingChecker := .new
  parentalControlChecker := .new
  safeSearch := some 0
  searches _ := ⟨none, GoMap.empty, 0⟩

def servedMeeting : Meeting where
  safeBrowsing := ⟨0, fun _ => 0, serve [exampleHash]⟩
  parental := ⟨0, fun _ => 0, serve []⟩
  now := 0
  stored := 0

def guarded : Settings :=
  { protectionEnabled := true, filteringEnabled := true, safeBrowsingEnabled := true, parentalEnabled := true }

/-- The host is known to be unsafe from the cache, after the upstream was asked. -/
theorem checkHost_run_unsafe :
    ((run (step unsafeEnv) emptyChecks [.checkHost servedMeeting "example.org" typeA guarded]).checkHost unsafeEnv
      servedMeeting "EXAMPLE.org" typeA guarded).2 = some (verdict unsafeEnv unsafeHosts "EXAMPLE.org" typeA guarded
        (run (step unsafeEnv) emptyChecks [.checkHost servedMeeting "example.org" typeA guarded])) ∧
    ((run (step unsafeEnv) emptyChecks [.checkHost servedMeeting "example.org" typeA guarded]).checkHost unsafeEnv
      servedMeeting "EXAMPLE.org" typeA guarded).2 = some (.ok safeBrowsingResult) := by
  have hserves : servedMeeting.Serves unsafeEnv unsafeHosts := ⟨serves_serve (by decide), serves_serve (by decide)⟩
  have hcoherent : Coherent unsafeEnv unsafeHosts emptyChecks :=
    ⟨Sound.new, Sound.new, fun _ => Safesearch.Default.cached_empty none 0⟩
  refine ⟨checkHost_run hcoherent (fun op hop => ?_) hserves "EXAMPLE.org" typeA guarded, ?_⟩
  · rw [List.mem_singleton.1 hop]
    exact hserves
  · rfl

/-! ## The results -/

/-- The results of `CheckHost` for a question of the type. -/
inductive Fits (qtype : UInt16) : Result → Prop
  | notFound : Fits qtype {}
  | allowed {rules : List ResultRule} (hrules : rules ≠ []) : Fits qtype (makeResult rules .notFilteredAllowList)
  | blocked {rules : List ResultRule} (hrules : rules ≠ []) : Fits qtype (makeResult rules .filteredBlockList)
  | service (name : String) (rule : ResultRule) :
    Fits qtype { reason := .filteredBlockedService, isFiltered := true, serviceName := name, rules := [rule] }
  | safeBrowsing : Fits qtype safeBrowsingResult
  | parental : Fits qtype parentalResult
  | safeSearchIP {ip : Addr} (hip : ip ≠ .invalid) :
    Fits qtype
      { reason := .filteredSafeSearch, isFiltered := true, rules := [⟨"", ip, Safesearch.Default.apiIDSafeSearch⟩] }
  | safeSearchName (canonName : String) :
    Fits qtype { reason := .filteredSafeSearch, isFiltered := true, canonName := canonName }
  | rewritten (canonName : String) {ipList : List Addr} (hips : ∀ ip ∈ ipList, ip ≠ .invalid) :
    Fits qtype { reason := .rewritten, canonName := canonName, ipList := ipList }
  | autoHosts {vals : List RRValue} {rules : List ResultRule} (hvals : ∀ v ∈ vals, OfType qtype v) (hrules : rules ≠ []) :
    Fits qtype { reason := .rewrittenAutoHosts, dnsRewriteResult := some ⟨some [(qtype, vals)], 0⟩, rules := rules }
  | ruleName {canonName : String} (hname : canonName ≠ "") (rule : ResultRule) :
    Fits qtype { reason := .rewrittenRule, canonName := canonName, rules := [rule] }
  | ruleCode {rcode : ℕ} (hcode : rcode ≠ 0) (rule : ResultRule) :
    Fits qtype { reason := .rewrittenRule, dnsRewriteResult := some ⟨none, rcode⟩, rules := [rule] }
  | ruleValues {response : List (UInt16 × List RRValue)} {rules : List ResultRule}
    (hvals : ∀ v ∈ (response.lookup qtype).getD [], OfType qtype v) (hrules : rules ≠ []) :
    Fits qtype { reason := .rewrittenRule, dnsRewriteResult := some ⟨some response, 0⟩, rules := rules }

/-- What the rewrites make of a result: the name and the addresses, and whether the upstream is to be asked. -/
def Legacy (res : Result) : Prop :=
  ∃ canonName ipList reason, res = { canonName := canonName, ipList := ipList, reason := reason } ∧
    (∀ ip ∈ ipList, ip ≠ .invalid) ∧ (reason = .rewritten ∨ reason = .notFilteredNotFound)

theorem Legacy.setRewriteResult {res : Result} (h : Legacy res) (qtype : UInt16) (rws : List LegacyRewrite) :
    Legacy (setRewriteResult qtype res rws) := by
  induction rws generalizing res with
  | nil => exact h
  | cons rw rws ih =>
    obtain ⟨canonName, ipList, reason, rfl, hips, hreason⟩ := h
    unfold Filtering.setRewriteResult
    split
    · split
      · exact ⟨canonName, ipList, _, rfl, hips, .inr rfl⟩
      next hip =>
        refine ih ⟨canonName, _, reason, rfl, fun ip hmem => ?_, hreason⟩
        rcases List.mem_append.1 hmem with hmem | hmem
        · exact hips ip hmem
        · rw [List.mem_singleton.1 hmem]
          exact hip
    · exact ih ⟨canonName, ipList, reason, rfl, hips, hreason⟩

theorem Legacy.canonName {res : Result} (h : Legacy res) (name : String) : Legacy { res with canonName := name } := by
  obtain ⟨canonName, ipList, reason, rfl, hips, hreason⟩ := h
  exact ⟨name, ipList, reason, rfl, hips, hreason⟩

theorem legacy_default : Legacy {} := ⟨"", [], _, rfl, nofun, .inr rfl⟩

theorem legacy_loop {renv : RewriteEnv} {conf : RewriteConf} {origHost : String} {turns : ℕ} {cnames : List String}
    {found : List LegacyRewrite × Bool} {res out : Result} (h : Legacy res)
    (hloop : handleRewriteLoop renv conf origHost qtype turns cnames host found res = some out) : Legacy out := by
  induction turns generalizing cnames host found res with
  | zero => cases hloop
  | succ turns ih =>
    obtain ⟨rewrites, matched⟩ := found
    unfold handleRewriteLoop at hloop
    split at hloop
    · cases hloop
      exact h
    next rw rws =>
      split at hloop
      · split at hloop
        · cases hloop
          exact legacy_default
        · split at hloop
          · cases hloop
            exact (h.canonName host).setRewriteResult qtype _
          · split at hloop
            · cases hloop
              exact h
            · exact ih (h.canonName _) hloop
      · cases hloop
        exact h.setRewriteResult qtype _

theorem legacy_processRewrites (env : FilterEnv) (host : String) (qtype : UInt16) (d : HostChecks) :
    Legacy (d.processRewrites env host qtype) := by
  unfold processRewrites
  cases hres : Filtering.processRewrites env.rewrites d.conf (d.conf.rewrites.length + 1) host qtype with
  | none => exact legacy_default
  | some res =>
    unfold Filtering.processRewrites at hres
    split at hres
    · cases hres
      exact legacy_default
    · dsimp only at hres
      split at hres
      · cases hres
        exact legacy_default
      · exact legacy_loop ⟨"", [], _, rfl, nofun, .inl rfl⟩ hres

/-- The bound on the turns is large enough. -/
theorem returns_processRewrites (env : FilterEnv) (host : String) (qtype : UInt16) (d : HostChecks) :
    Returns env.rewrites d.conf host qtype (d.processRewrites env host qtype) := by
  refine ⟨d.conf.rewrites.length + 1, fun turns hle => ?_⟩
  obtain ⟨more, rfl⟩ := Nat.exists_eq_add_of_le hle
  unfold processRewrites Filtering.processRewrites
  split
  · rfl
  · dsimp only
    split
    · rfl
    · obtain ⟨out, hout⟩ : ∃ out, ∀ more, handleRewriteLoop env.rewrites d.conf host qtype
          (d.conf.rewrites.length + 1 + more) [] host (findRewrites env.rewrites d.conf.rewrites host qtype)
          { reason := .rewritten } = some out := loop_terminates (by simp)
      have hout₀ := hout 0
      rw [Nat.add_zero] at hout₀
      rw [hout more, hout₀]
      rfl

theorem fits_dnsRewrites {dnsres : DNSResult}
    (htyped : ∀ nr ∈ dnsres.dnsRewrites, OfType nr.dnsRewrite.rrType nr.dnsRewrite.value) (host : String)
    (qtype : UInt16) : Fits qtype (processDNSResultRewrites dnsres host) := by
  unfold processDNSResultRewrites
  split
  · exact .notFound
  next hne =>
    dsimp only
    split
    · exact .notFound
    · rcases processDNSRewrites_spec dnsres.dnsRewrites with ⟨before, nr, after, -, -, hfinal, hres⟩ |
        ⟨-, response, hres, hvalues⟩
      · rw [hres]
        split
        next hname => exact .ruleName hname nr.result
        next hname => exact .ruleCode (hfinal.resolve_left hname) nr.result
      · rw [hres]
        refine .ruleValues (fun v hv => ?_) (by simpa using hne)
        rw [hvalues] at hv
        obtain ⟨nr, hnr, rfl⟩ := List.mem_map.1 hv
        obtain ⟨hmem, htype⟩ := List.mem_filter.1 hnr
        rw [← of_decide_eq_true htype]
        exact htyped nr hmem

theorem fits_matchHostProcessDNSResult (qtype : UInt16) (dnsres : DNSResult) :
    Fits qtype (matchHostProcessDNSResult qtype dnsres) := by
  unfold matchHostProcessDNSResult
  split
  next nr _ =>
    split
    · exact .allowed (by simp)
    · exact .blocked (by simp)
  · have hother : Fits qtype (hostResultForOtherQType dnsres) := by
      unfold hostResultForOtherQType
      split
      · exact .blocked (by simp)
      · exact .blocked (by simp)
      · exact .notFound
    unfold resultFromHostRules
    split
    next h => exact .blocked (by simpa using h.2)
    · split
      next h => exact .blocked (by simpa using h.2)
      · exact hother

theorem fits_matchHostProcessAllowList {dnsres : DNSResult} {res : Result}
    (h : matchHostProcessAllowList dnsres = .ok res) : Fits qtype res := by
  unfold matchHostProcessAllowList at h
  split at h
  · cases h
    exact .allowed (by simp)
  · dsimp only at h
    generalize (if dnsres.hostRulesV4 ≠ [] then dnsres.hostRulesV4 else dnsres.hostRulesV6) = matchedRules at h
    split at h
    · cases h
    next hne =>
      cases h
      exact .allowed (by simpa using hne)

theorem fits_matchHost (htyped : ∀ engine ∈ d.filteringEngine, DNSEngine.Typed engine) {res : Result}
    (h : matchHost host qtype setts d = .ok res) : Fits qtype res := by
  unfold matchHost at h
  split at h
  · cases h
    exact .notFound
  · dsimp only at h
    split at h
    · exact fits_matchHostProcessAllowList h
    · cases h
      unfold matchBlocked
      split
      · exact .notFound
      next engine hengine =>
        dsimp only
        split
        · exact fits_dnsRewrites (htyped engine hengine _) host qtype
        · split
          · exact .notFound
          · split
            · exact .notFound
            · exact fits_matchHostProcessDNSResult qtype _

theorem fits_matchSysHosts (env : FilterEnv) (host : String) (qtype : UInt16) (setts : Settings) (d : HostChecks) :
    Fits qtype (d.matchSysHosts env host qtype setts) := by
  unfold matchSysHosts
  split
  · exact .notFound
  · split
    · exact .notFound
    next vals rs hfound =>
      obtain ⟨hs, -, hrewrites⟩ := Option.bind_eq_some_iff.1 hfound
      unfold hostsRewrites at hrewrites
      split at hrewrites
      next hptr =>
        split at hrewrites
        · cases hrewrites
        · dsimp only at hrewrites
          split at hrewrites
          · cases hrewrites
          next hne =>
            cases hrewrites
            refine .autoHosts (fun v hv => ?_) (by simpa using hne)
            obtain ⟨name, -, rfl⟩ := List.mem_map.1 hv
            exact .inl hptr
      · split at hrewrites
        next hq =>
          dsimp only at hrewrites
          split at hrewrites
          · cases hrewrites
          next hne =>
            cases hrewrites
            refine .autoHosts (fun v hv => ?_) (by simpa using hne)
            obtain ⟨ip, -, rfl⟩ := List.mem_map.1 hv
            exact hq
        · cases hrewrites

theorem fits_search {ss : Safesearch.Default} {res : Result} (h : ss.search env.search host qtype = .ok res)
    (qtype' : UInt16) : Fits qtype' res := by
  unfold Safesearch.Default.search at h
  split at h
  · cases h
    exact .notFound
  · unfold Safesearch.Default.newResult at h
    dsimp only at h
    split at h
    · split at h
      · split at h
        · cases h
        next hip =>
          cases h
          exact .safeSearchIP hip
      · cases h
    · cases h
      exact .safeSearchName _

theorem mem_of_outcome {vs : List (String × Except String Result)} {res : Result}
    (h : Stages.outcome decides (.ok {}) vs = .ok res) : res = {} ∨ ∃ v ∈ vs, v.2 = .ok res := by
  unfold Stages.outcome at h
  cases hfound : vs.findSome? decides with
  | none =>
    rw [hfound] at h
    cases h
    exact .inl rfl
  | some out =>
    rw [hfound] at h
    obtain ⟨v, hv, hdecides⟩ := List.exists_of_findSome?_eq_some hfound
    refine .inr ⟨v, hv, ?_⟩
    unfold decides at hdecides
    split at hdecides
    · cases hdecides
      cases h
    next res' hres =>
      split at hdecides
      · cases hdecides
        rw [hres]
        exact h
      · cases hdecides

theorem fits_hashVerdict {S : Set HostnameHash} {enabled : Bool} {res : Result} (hres : Fits qtype res) :
    Fits qtype (hashVerdict env S host enabled res) := by
  unfold hashVerdict
  split
  · exact hres
  · exact .notFound

/-- Every result fits the question. -/
theorem fits_verdict (htyped : ∀ engine ∈ d.filteringEngine, DNSEngine.Typed engine) {res : Result}
    (h : verdict env db host qtype setts d = .ok res) : Fits qtype res := by
  unfold verdict at h
  split at h
  · cases h
    exact .notFound
  · dsimp only at h
    generalize env.rewrites.toLower host = host at h
    have hlegacy : Legacy (if setts.filteringEnabled then d.processRewrites env host qtype else {}) := by
      split
      · exact legacy_processRewrites env host qtype d
      · exact legacy_default
    generalize (if setts.filteringEnabled then d.processRewrites env host qtype else {}) = rewrite at h hlegacy
    by_cases hreason : rewrite.reason = .rewritten
    · rw [if_pos hreason] at h
      cases h
      obtain ⟨canonName, ipList, reason, rfl, hips, -⟩ := hlegacy
      obtain rfl : reason = .rewritten := hreason
      exact .rewritten canonName hips
    · rw [if_neg hreason] at h
      rcases mem_of_outcome h with rfl | ⟨v, hv, hres⟩
      · exact .notFound
      · simp only [verdicts, List.mem_cons, List.not_mem_nil, or_false] at hv
        rcases hv with rfl | rfl | rfl | rfl | rfl | rfl
        · cases hres
          exact fits_matchSysHosts env host qtype setts d
        · exact fits_matchHost htyped hres
        · cases hres
          unfold matchBlockedServicesRules
          split
          · exact .notFound
          · split
            · exact .notFound
            · exact .service _ _
        · cases hres
          exact fits_hashVerdict .safeBrowsing
        · cases hres
          exact fits_hashVerdict .parental
        · dsimp only at hres
          unfold searchVerdict at hres
          split at hres
          · cases hres
            exact .notFound
          · split at hres
            · cases hres
              exact .notFound
            · exact fits_search hres qtype

end HostChecks

end AdGuardHome.Filtering
