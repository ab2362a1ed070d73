import AdGuardHome.Dnsforward.Process
import AdGuardHome.Filtering.CheckHost

/-!
# The server with the filters of the repository

`Process` takes the filters as arbitrary functions.  Here they are those of `DNSFilter`, with the settings that it gives
to a request: the server can act on every result that they give (`serveDNS_answered`), and without protection only their
rewrites matter (`serveDNS_unprotected`).
-/

namespace AdGuardHome.Dnsforward

open AdGuardHome.Net AdGuardHome.Filtering AdGuardHome.Aghnet AdGuardHome.Lib AdGuardHome.Lib.Stages

/-- The filters that a server uses, without their caches, and where the settings of a request come from. -/
structure Filters where
  env : FilterEnv
  db : Databases
  checks : HostChecks
  filteringEnabled : Bool
  safeSearchEnabled : Bool
  safeBrowsingEnabled : Bool
  parentalEnabled : Bool
  /-- `Weekly.Contains` at the time of the request. -/
  contains : Option Weekly → Bool
  blockedServices : BlockedServices
  clients : Client.Storage
  macByIP : Addr → Option HardwareAddr
  /-- The client that is found for a ClientID and an address.  The lookups do not panic. -/
  client : String → Addr → Option Client.Persistent
  client_eq : ∀ id addr, clients.findForFiltering macByIP id addr = .ok (client id addr)

namespace Filters

/-- `DNSFilter.Settings` -/
def settings (f : Filters) : Settings where
  filteringEnabled := f.filteringEnabled
  safeSearchEnabled := f.safeSearchEnabled
  safeBrowsingEnabled := f.safeBrowsingEnabled
  parentalEnabled := f.parentalEnabled

/-- `ApplyAdditionalFiltering`.  The error is for a panic, which the lookups exclude. -/
def applyAdditionalFiltering (f : Filters) (cliAddr : Addr) (clientID : String) (setts : Settings) : Settings :=
  match HostChecks.applyAdditionalFiltering f.env f.contains f.blockedServices f.clients f.macByIP cliAddr clientID
    setts with
  | .ok setts => setts
  | .error _ => setts

/-- `CheckHost` with caches that are coherent (`HostChecks.checkHost_eq`). -/
noncomputable def checkHost (f : Filters) (host : String) (qtype : UInt16) (setts : Settings) : Except String Result :=
  HostChecks.verdict f.env f.db host qtype setts f.checks

def checkHostRules (f : Filters) (host : String) (rrtype : UInt16) (setts : Settings) : Except String Result :=
  HostChecks.checkHostRules f.env host rrtype setts f.checks

end Filters

noncomputable def Handler.filteredBy (s : Handler) (f : Filters) : Handler :=
  { s with
    settings := f.settings
    applyAdditionalFiltering := f.applyAdditionalFiltering
    checkHost := f.checkHost
    checkHostRules := f.checkHostRules }

/-- What is documented of the engines: a match has rules, and the values of the rewrites are of their types. -/
structure Filters.Documented (f : Filters) : Prop where
  typed : ∀ engine ∈ f.checks.filteringEngine, engine.Typed
  rules : ∀ engine ∈ f.checks.filteringEngineAllow, ∀ req, (engine.matchRequest req).2 = true →
    (engine.matchRequest req).1.networkRule ≠ none ∨ (engine.matchRequest req).1.hostRulesV4 ≠ [] ∨
      (engine.matchRequest req).1.hostRulesV6 ≠ []
  address : ∀ services host qtype rewrite, f.env.search.dnsRewrite services host qtype = some rewrite →
    rewrite.rrType = qtype → ∃ ip, rewrite.value = .ip ip ∧ ip ≠ .invalid

namespace Handler

/-! ## The filters do not fail -/

section Errors

variable {f : Filters} {s : Handler} {d dctx : DnsContext} {res : Result}

theorem matchHost_ok (hf : f.Documented) (host : String) (qtype : UInt16) (setts : Settings) :
    ∃ res, HostChecks.matchHost host qtype setts f.checks = .ok res := by
  unfold HostChecks.matchHost
  split
  · exact ⟨_, rfl⟩
  · dsimp only
    split
    next dnsres hallowed =>
      obtain ⟨engine, hengine, hmatch⟩ : ∃ engine ∈ f.checks.filteringEngineAllow,
          engine.matchRequest (dnsRequest host qtype setts) = (dnsres, true) := by
        split at hallowed
        · exact Option.map_eq_some_iff.1 hallowed
        · cases hallowed
      have hrules := hf.rules engine hengine (dnsRequest host qtype setts) (by rw [hmatch])
      rw [hmatch] at hrules
      unfold matchHostProcessAllowList
      split
      · exact ⟨_, rfl⟩
      next hnone =>
        rw [if_neg]
        · exact ⟨_, rfl⟩
        · split
          next hne => exact hne
          next hnil => exact (hrules.resolve_left (not_not.2 hnone)).resolve_left hnil
    · exact ⟨_, rfl⟩

theorem search_ok (hf : f.Documented) (ss : Safesearch.Default) (host : String) (qtype : UInt16) :
    ∃ res, ss.search f.env.search host qtype = .ok res := by
  unfold Safesearch.Default.search
  split
  · exact ⟨_, rfl⟩
  next rewrite hrewrite =>
    unfold Safesearch.Default.searchHost at hrewrite
    split at hrewrite
    · cases hrewrite
    next services _ =>
      unfold Safesearch.Default.newResult
      dsimp only
      split
      next htype =>
        obtain ⟨ip, hvalue, hip⟩ := hf.address _ _ _ _ hrewrite htype
        rw [hvalue]
        exact ⟨_, if_neg hip⟩
      · exact ⟨_, rfl⟩

theorem checkHost_ok (hf : f.Documented) (host : String) (qtype : UInt16) (setts : Settings) :
    ∃ res, f.checkHost host qtype setts = .ok res := by
  have houtcome : ∀ vs : List (String × Except String Result), (∀ v ∈ vs, ∃ res, v.2 = .ok res) →
      ∃ res, Stages.outcome HostChecks.decides (.ok {}) vs = .ok res := by
    intro vs hvs
    unfold Stages.outcome
    cases hfound : vs.findSome? HostChecks.decides with
    | none => exact ⟨_, rfl⟩
    | some out =>
      obtain ⟨v, hv, hdecides⟩ := List.exists_of_findSome?_eq_some hfound
      obtain ⟨res, hres⟩ := hvs v hv
      unfold HostChecks.decides at hdecides
      rw [hres] at hdecides
      dsimp only at hdecides
      split at hdecides
      · cases hdecides
        exact ⟨res, rfl⟩
      · cases hdecides
  unfold Filters.checkHost HostChecks.verdict
  split
  · exact ⟨_, rfl⟩
  · dsimp only
    generalize (if setts.filteringEnabled then _ else _) = rewrite
    by_cases hreason : rewrite.reason = .rewritten
    · rw [if_pos hreason]
      exact ⟨_, rfl⟩
    · rw [if_neg hreason]
      refine houtcome _ fun v hv => ?_
      simp only [HostChecks.verdicts, List.mem_cons, List.not_mem_nil, or_false] at hv
      rcases hv with rfl | rfl | rfl | rfl | rfl | rfl
      · exact ⟨_, rfl⟩
      · exact matchHost_ok hf _ _ _
      · exact ⟨_, rfl⟩
      · exact ⟨_, rfl⟩
      · exact ⟨_, rfl⟩
      · dsimp only
        unfold HostChecks.searchVerdict
        split
        · exact ⟨_, rfl⟩
        · split
          · exact ⟨_, rfl⟩
          · exact search_ok hf _ _ _

/-- The value can be made a record of the type; there is nothing to make for other types. -/
def HasRecord (rr : UInt16) (v : RRValue) : Prop := rr ∈ valueTypes → OfType rr v

theorem hasRecord_of_ofType {rr : UInt16} {v : RRValue} (h : OfType rr v) : HasRecord rr v := fun _ => h

theorem filterDNSRewriteResponse_ok_iff (s : Handler) (req : Request) (rr : UInt16) (v : RRValue) :
    (∃ ans, s.filterDNSRewriteResponse req rr v = .ok ans) ↔ HasRecord rr v := by
  by_cases hmem : rr ∈ valueTypes
  · have hall := hmem
    simp only [valueTypes, List.mem_cons, List.not_mem_nil, or_false] at hall
    rw [HasRecord, imp_iff_right hmem]
    rcases hall with rfl | rfl | rfl | rfl | rfl | rfl | rfl | rfl <;> cases v <;>
      simp [filterDNSRewriteResponse, ansFromDNSRewriteIP, ansFromDNSRewriteText, ansFromDNSRewriteMX,
        ansFromDNSRewriteSVCB, ansFromDNSRewriteSRV, OfType, valueTypes, RRType.a, RRType.aaaa, RRType.ptr, RRType.txt,
        RRType.mx, RRType.https, RRType.svcb, RRType.srv]
  · refine iff_of_true ⟨s.rr req .none, ?_⟩ fun h => absurd h hmem
    simp only [valueTypes, List.mem_cons, List.not_mem_nil, or_false, not_or] at hmem
    obtain ⟨ha, haaaa, hptr, htxt, hmx, hsvcb, hhttps, hsrv⟩ := hmem
    unfold filterDNSRewriteResponse
    rw [if_neg (show ¬ (rr = RRType.a ∨ rr = RRType.aaaa) from not_or.2 ⟨ha, haaaa⟩),
      if_neg (show ¬ (rr = RRType.ptr ∨ rr = RRType.txt) from not_or.2 ⟨hptr, htxt⟩),
      if_neg (show ¬ rr = RRType.mx from hmx),
      if_neg (show ¬ (rr = RRType.https ∨ rr = RRType.svcb) from not_or.2 ⟨hhttps, hsvcb⟩),
      if_neg (show ¬ rr = RRType.srv from hsrv)]

theorem filterDNSRewriteValues_ok (s : Handler) (req : Request) {rr : UInt16} {values : List RRValue}
    (hvals : ∀ v ∈ values, HasRecord rr v) (i : ℕ) :
    ∃ answer, s.filterDNSRewriteValues req rr i values = .ok answer := by
  induction values generalizing i with
  | nil => exact ⟨[], rfl⟩
  | cons v values ih =>
    obtain ⟨hv, hvalues⟩ := List.forall_mem_cons.1 hvals
    obtain ⟨rest, hrest⟩ := ih hvalues (i + 1)
    obtain ⟨ans, hans⟩ := (s.filterDNSRewriteResponse_ok_iff req rr v).2 hv
    refine ⟨ans :: rest, ?_⟩
    rw [filterDNSRewriteValues, hans, hrest]
    rfl

/-- The server can act on every result that fits the question. -/
theorem filterDNSResult_ok (s : Handler) (hfits : HostChecks.Fits dctx.req.question.qtype res) :
    ∃ dctx', s.filterDNSResult dctx res = (dctx', .ok res) := by
  have hrewrite : (res.reason = .rewrittenAutoHosts ∨ res.reason = .rewrittenRule ∧ res.canonName = "") →
      ∃ resp, s.filterDNSRewrite dctx.req res = .ok resp := by
    intro hreason
    have hvalues : ∀ response, (∀ v ∈ (response.lookup dctx.req.question.qtype).getD [],
        OfType dctx.req.question.qtype v) → res.dnsRewriteResult = some ⟨some response, 0⟩ →
        ∃ resp, s.filterDNSRewrite dctx.req res = .ok resp := by
      intro response hvals hres
      obtain ⟨answer, hanswer⟩ := filterDNSRewriteValues_ok s dctx.req (fun v hv => hasRecord_of_ofType (hvals v hv)) 0
      refine ⟨{ replyCompressed dctx.req with rcode := 0, answer := answer }, ?_⟩
      unfold filterDNSRewrite
      rw [hres]
      dsimp only
      rw [if_neg (by decide), hanswer]
      rfl
    cases hfits with
    | notFound => simp at hreason
    | allowed _ => simp [makeResult] at hreason
    | blocked _ => simp [makeResult] at hreason
    | service _ _ => simp at hreason
    | safeBrowsing => simp [HostChecks.safeBrowsingResult, HostChecks.hashResult] at hreason
    | parental => simp [HostChecks.parentalResult, HostChecks.hashResult] at hreason
    | safeSearchIP _ => simp at hreason
    | safeSearchName _ => simp at hreason
    | rewritten _ _ => simp at hreason
    | autoHosts hvals _ =>
      refine hvalues _ ?_ rfl
      rwa [List.lookup_cons_self, Option.getD_some]
    | ruleName hname _ => simp [hname] at hreason
    | ruleCode hcode _ =>
      unfold filterDNSRewrite
      dsimp only
      exact ⟨_, if_pos hcode⟩
    | ruleValues hvals _ => exact hvalues _ hvals rfl
  unfold filterDNSResult
  dsimp only
  split
  · exact ⟨_, rfl⟩
  next hcname =>
    split
    · exact ⟨_, rfl⟩
    · split
      · exact ⟨_, rfl⟩
      · exact ⟨_, rfl⟩
      next hreason =>
        obtain ⟨resp, hresp⟩ := hrewrite (.inl hreason)
        rw [hresp]
        exact ⟨_, rfl⟩
      next hreason =>
        have hname : res.canonName = "" := by
          cases hfits with
          | ruleName hname _ =>
            exact absurd (by simp [isRewrittenCNAME, hname]) hcname
          | _ => first | rfl | cases hreason
        obtain ⟨resp, hresp⟩ := hrewrite (.inr ⟨hreason, hname⟩)
        rw [hresp]
        exact ⟨_, rfl⟩
      · exact ⟨_, rfl⟩

/-- The records of a rewrite are those of its values, in their order. -/
theorem filterDNSRewriteValues_forall₂ (s : Handler) (req : Request) {qtype : UInt16} {values : List RRValue} {i : ℕ}
    {answer : List RR} (h : s.filterDNSRewriteValues req qtype i values = .ok answer) :
    List.Forall₂ (fun v rr => s.filterDNSRewriteResponse req qtype v = .ok rr) values answer := by
  induction values generalizing i answer with
  | nil =>
    cases h
    exact .nil
  | cons v values ih =>
    rw [filterDNSRewriteValues] at h
    cases hans : s.filterDNSRewriteResponse req qtype v with
    | error err =>
      rw [hans] at h
      cases h
    | ok ans =>
      rw [hans] at h
      cases hrest : s.filterDNSRewriteValues req qtype (i + 1) values with
      | error err =>
        rw [hrest] at h
        cases h
      | ok rest =>
        rw [hrest] at h
        cases h
        exact .cons hans (ih hrest)

theorem filterDNSRequest_ok (hf : f.Documented) (s : Handler) (dctx : DnsContext) :
    ∃ dctx' res, (s.filteredBy f).filterDNSRequest dctx = (dctx', .ok res) := by
  obtain ⟨res, hres⟩ := checkHost_ok hf (trimDot dctx.req.question.name) dctx.req.question.qtype dctx.setts
  obtain ⟨dctx', hdctx'⟩ := @filterDNSResult_ok { dctx with checked := some res } res (s.filteredBy f)
    (HostChecks.fits_verdict hf.typed hres)
  refine ⟨dctx', res, ?_⟩
  unfold filterDNSRequest
  dsimp only
  rw [show (s.filteredBy f).checkHost _ _ _ = .ok res from hres]
  exact hdctx'

theorem filterAnswer_ok (hf : f.Documented) (s : Handler) (setts : Settings) (i : ℕ) (answer : List RR) :
    ∃ answer' res, (s.filteredBy f).filterAnswer setts i answer = (answer', .ok res) := by
  have hrules : ∀ host rrtype, ∃ res, (s.filteredBy f).checkHostRules host rrtype setts = .ok res :=
    fun host rrtype => matchHost_ok hf _ _ _
  have hhint : ∀ hint, ∃ res, (s.filteredBy f).filterSVCBHint setts hint = .ok res := by
    intro hint
    induction hint with
    | nil => exact ⟨none, rfl⟩
    | cons h hint ih =>
      obtain ⟨res, hres⟩ := hrules ((s.filteredBy f).ipString h) RRType.https
      unfold filterSVCBHint
      rw [hres]
      dsimp only
      split
      · exact ⟨_, rfl⟩
      · exact ih
  have hvalues : ∀ value, ∃ res, (s.filteredBy f).filterHTTPSValues setts value = .ok res := by
    intro value
    induction value with
    | nil => exact ⟨none, rfl⟩
    | cons kv value ih =>
      obtain ⟨res, hres⟩ := hhint (hintIPs kv)
      unfold filterHTTPSValues
      rw [hres]
      cases res with
      | none => exact ih
      | some r => exact ⟨_, rfl⟩
  have hcheck : ∀ rr, ∃ res, (s.filteredBy f).checkRR setts rr = .ok res := by
    intro rr
    unfold checkRR
    split
    · obtain ⟨res, hres⟩ := hrules (trimDot _) RRType.cname
      rw [hres]
      exact ⟨_, rfl⟩
    · obtain ⟨res, hres⟩ := hrules ((s.filteredBy f).ipString _) RRType.a
      rw [hres]
      exact ⟨_, rfl⟩
    · obtain ⟨res, hres⟩ := hrules ((s.filteredBy f).ipString _) RRType.aaaa
      rw [hres]
      exact ⟨_, rfl⟩
    · exact hvalues _
    · exact ⟨none, rfl⟩
  induction answer generalizing i with
  | nil => exact ⟨[], none, rfl⟩
  | cons a answer ih =>
    obtain ⟨res, hres⟩ := hcheck ((s.filteredBy f).stripRR a)
    obtain ⟨answer', res', hrest⟩ := ih (i + 1)
    unfold filterAnswer
    dsimp only
    rw [hres]
    dsimp only
    split
    · exact ⟨_, _, rfl⟩
    · rw [hrest]
      exact ⟨_, _, rfl⟩

/-- What a request can fail with that is asked of the upstreams. -/
def UpstreamErr (s : Handler) (e : String) : Prop :=
  (s.proxy = none ∧ e = srvClosedErr) ∨ ∃ resolve ∈ s.proxy, ∃ req ups, resolve req ups = .error e

/-- An upstream gives no response, or one without a question. -/
def UpstreamPanics (s : Handler) : Prop :=
  ∃ resolve ∈ s.proxy, ∃ req ups,
    resolve req ups = .ok none ∨ ∃ resp, resolve req ups = .ok (some resp) ∧ resp.question = []

/-- A lease has an address that is not for the prefix of DNS64. -/
def LeasePanics (s : Handler) : Prop :=
  ∃ pref ∈ s.dns64Pref, ∃ host, s.ipByHost host ≠ .invalid ∧ mapDNS64 pref (s.ipByHost host) = none

/-- The request has a response, or fails for what an upstream or a lease gives. -/
def Answered (s : Handler) (d : DnsContext) : Served → Prop
  | .nil => d.res.isSome = true
  | .err e => s.UpstreamErr e
  | .panic => s.UpstreamPanics ∨ s.LeasePanics

/-- A response has a question, if it is not one of an upstream without. -/
def HasQuestion (s : Handler) (d : DnsContext) : Prop := ∀ m ∈ d.res, m.question ≠ [] ∨ s.UpstreamPanics

theorem hasQuestion_some {resp : Msg} {q : Question} (hres : d.res = some resp) (hq : resp.question = [q]) :
    s.HasQuestion d := by
  intro m hm
  rw [hres] at hm
  cases hm
  rw [hq]
  exact .inl (List.cons_ne_nil q [])

theorem leads_processInitial (s : Handler) : Leads ends s.processInitial s.HasQuestion s.HasQuestion s.Answered := by
  intro d h
  unfold processInitial
  dsimp only
  split
  · exact rfl
  · split
    · exact rfl
    · split
      · exact rfl
      · exact h

theorem leads_processDDRQuery (s : Handler) : Leads ends s.processDDRQuery s.HasQuestion s.HasQuestion s.Answered := by
  intro d h
  unfold processDDRQuery
  split
  · exact rfl
  · exact h

theorem leasePanics_of_none {req : Request} {host : String} (hip : s.ipByHost host ≠ .invalid)
    (h : s.dhcpHostAnswer req (s.ipByHost host) = none) : s.LeasePanics := by
  unfold dhcpHostAnswer at h
  split at h
  · cases h
  · split at h
    · split at h
      · cases h
      next pref hpref => exact ⟨pref, hpref, host, hip, Option.map_eq_none_iff.1 h⟩
    · cases h

theorem leads_processDHCPHosts (s : Handler) :
    Leads ends s.processDHCPHosts s.HasQuestion s.HasQuestion s.Answered := by
  intro d h
  unfold processDHCPHosts
  dsimp only
  split
  · exact h
  · split
    · exact rfl
    · split
      · exact h
      next hip =>
        split
        next hnone => exact .inr (leasePanics_of_none hip hnone)
        · exact hasQuestion_some rfl rfl

theorem leads_processDHCPAddrs (s : Handler) :
    Leads ends s.processDHCPAddrs s.HasQuestion s.HasQuestion s.Answered := by
  intro d h
  unfold processDHCPAddrs
  split
  · exact h
  · split
    · exact h
    · split
      · exact h
      · dsimp only
        split
        · exact h
        · exact hasQuestion_some rfl rfl

theorem hasQuestion_filterDNSResult (h : s.HasQuestion d) (res : Result) :
    s.HasQuestion (s.filterDNSResult d res).1 := by
  unfold filterDNSResult
  dsimp only
  split
  · exact h
  · split
    · exact hasQuestion_some rfl (s.genDNSFilterMessage_question ..)
    · split
      · exact hasQuestion_some rfl (s.getCNAMEWithIPs_question ..)
      · exact hasQuestion_some rfl (s.getCNAMEWithIPs_question ..)
      · split
        · exact h
        next hrewrite => exact hasQuestion_some rfl (s.filterDNSRewrite_question _ hrewrite)
      · split
        · exact h
        next hrewrite => exact hasQuestion_some rfl (s.filterDNSRewrite_question _ hrewrite)
      · exact h

theorem leads_processFilteringBeforeRequest (hf : f.Documented) (s : Handler) :
    Leads ends (s.filteredBy f).processFilteringBeforeRequest (s.filteredBy f).HasQuestion
      (s.filteredBy f).HasQuestion (s.filteredBy f).Answered := by
  intro d h
  unfold processFilteringBeforeRequest
  dsimp only
  split
  · exact h
  · obtain ⟨d', res, hok⟩ := filterDNSRequest_ok hf s { d with setts := settsFor d }
    have hq : (s.filteredBy f).HasQuestion ((s.filteredBy f).filterDNSRequest { d with setts := settsFor d }).1 := by
      unfold filterDNSRequest
      dsimp only
      split
      · exact h
      next res _ =>
        have hd : (s.filteredBy f).HasQuestion { d with setts := settsFor d, checked := some res } := h
        exact hasQuestion_filterDNSResult hd res
    rw [hok] at hq ⊢
    exact hq

theorem leads_processUpstream (s : Handler) :
    Leads ends s.processUpstream s.HasQuestion (fun d => s.HasQuestion d ∧ d.res.isSome = true) s.Answered := by
  intro d h
  unfold processUpstream
  split
  next hres => exact ⟨h, hres⟩
  · split
    · exact rfl
    · dsimp only
      split
      next hproxy => exact .inl ⟨hproxy, rfl⟩
      next resolve hproxy =>
        split
        next err herr => exact .inr ⟨resolve, hproxy, _, _, herr⟩
        next hnone => exact .inl ⟨resolve, hproxy, _, _, .inl hnone⟩
        next resp hresp =>
          refine ⟨?_, rfl⟩
          rintro _ ⟨⟩
          by_cases hq : resp.question = []
          · exact .inr ⟨resolve, hproxy, _, _, .inr ⟨resp, hresp, hq⟩⟩
          · exact .inl hq

theorem leads_restoreQuestion (s : Handler) :
    Leads ends s.restoreQuestion (fun d => s.HasQuestion d ∧ d.res.isSome = true) (fun d => d.res.isSome = true)
      s.Answered := by
  rintro d ⟨h, hsome⟩
  obtain ⟨resp, hres⟩ := Option.isSome_iff_exists.1 hsome
  unfold restoreQuestion
  rw [hres]
  dsimp only
  split
  next hq => exact .inl ((h resp hres).resolve_left (not_not.2 hq))
  · exact rfl

theorem leads_filterAfterResponse (hf : f.Documented) (s : Handler) :
    Leads ends (s.filteredBy f).filterAfterResponse (fun d => d.res.isSome = true) (fun d => d.res.isSome = true)
      (s.filteredBy f).Answered := by
  intro d hsome
  obtain ⟨resp, hres⟩ := Option.isSome_iff_exists.1 hsome
  unfold filterAfterResponse
  split
  · exact hsome
  · rw [hres]
    dsimp only
    unfold filterDNSResponse
    split
    next herr =>
      split at herr
      · cases herr
      · obtain ⟨answer', res, hok⟩ := filterAnswer_ok hf s d.setts 0 resp.answer
        rw [hok] at herr
        cases res <;> cases herr
    next heq =>
      split at heq
      · cases heq
        exact hsome
      · obtain ⟨answer', res, hok⟩ := filterAnswer_ok hf s d.setts 0 resp.answer
        rw [hok] at heq
        cases res <;> cases heq <;> exact rfl

theorem leads_processFilteringAfterResponse (hf : f.Documented) (s : Handler) :
    Leads ends (s.filteredBy f).processFilteringAfterResponse
      (fun d => (s.filteredBy f).HasQuestion d ∧ d.res.isSome = true) (fun d => d.res.isSome = true)
      (s.filteredBy f).Answered := by
  rintro d ⟨h, hsome⟩
  have hrestore := (s.filteredBy f).leads_restoreQuestion d ⟨h, hsome⟩
  unfold processFilteringAfterResponse
  split
  · exact hsome
  · split
    · exact hsome
    · exact hrestore
  · split
    · exact hsome
    · exact hrestore
  · split
    · exact hsome
    · exact hrestore
  · exact leads_filterAfterResponse hf s d hsome

end Errors

/-! ## Without protection -/

section Unprotected

variable {f f' : Filters} {s : Handler} {setts setts' : Settings} {d d' : DnsContext}

/-- The rewrites that the engine finds. -/
def rewritesFound (checks : HostChecks) (req : DNSRequest) : List RewriteRule :=
  (checks.filteringEngine.map fun engine => (engine.matchRequest req).1.dnsRewrites).getD []

/-- The clients have the same name and tags, and are both filtered or both not.  Their services, their safe search and
their other settings may differ. -/
structure SameClient (c c' : Client.Persistent) : Prop where
  name : c'.name = c.name
  tags : c'.tags = c.tags
  useOwnSettings : c'.useOwnSettings = c.useOwnSettings
  filteringEnabled : c.useOwnSettings = true → c'.filteringEnabled = c.filteringEnabled

/-- The two have the same rewrites and hosts, and enable the filtering for the same clients.  Their lists of blocked and
allowed hosts, their services, databases and safe search, and those of their clients, may differ. -/
structure SameRewrites (f f' : Filters) : Prop where
  rewrites : f'.env.rewrites = f.env.rewrites
  ipFromReversedAddr : f'.env.ipFromReversedAddr = f.env.ipFromReversedAddr
  conf : f'.checks.conf = f.checks.conf
  etcHosts : f'.checks.etcHosts = f.checks.etcHosts
  found : ∀ req, rewritesFound f'.checks req = rewritesFound f.checks req
  filteringEnabled : f'.filteringEnabled = f.filteringEnabled
  clients : ∀ id addr, Option.Rel SameClient (f.client id addr) (f'.client id addr)

/-- The settings agree on all that the rewrites read, and on the protection. -/
structure Agree (setts setts' : Settings) : Prop where
  clientName : setts'.clientName = setts.clientName
  clientIP : setts'.clientIP = setts.clientIP
  clientTags : setts'.clientTags = setts.clientTags
  protectionEnabled : setts'.protectionEnabled = setts.protectionEnabled
  filteringEnabled : setts'.filteringEnabled = setts.filteringEnabled

/-- The contexts are the same but for settings that agree. -/
def Alike (d d' : DnsContext) : Prop := ∃ setts', d' = { d with setts := setts' } ∧ Agree d.setts setts'

/-! ### The settings of a request -/

theorem Agree.refl (setts : Settings) : Agree setts setts := ⟨rfl, rfl, rfl, rfl, rfl⟩

theorem Agree.trans {setts'' : Settings} (h : Agree setts setts') (h' : Agree setts' setts'') :
    Agree setts setts'' where
  clientName := h'.clientName.trans h.clientName
  clientIP := h'.clientIP.trans h.clientIP
  clientTags := h'.clientTags.trans h.clientTags
  protectionEnabled := h'.protectionEnabled.trans h.protectionEnabled
  filteringEnabled := h'.filteringEnabled.trans h.filteringEnabled

theorem Agree.symm (h : Agree setts setts') : Agree setts' setts where
  clientName := h.clientName.symm
  clientIP := h.clientIP.symm
  clientTags := h.clientTags.symm
  protectionEnabled := h.protectionEnabled.symm
  filteringEnabled := h.filteringEnabled.symm

theorem Agree.withServices (h : Agree setts setts') (servicesRules : List String) (bsvc : Option BlockedServices) :
    Agree setts { setts' with servicesRules := servicesRules, blockedServices := bsvc } :=
  ⟨h.clientName, h.clientIP, h.clientTags, h.protectionEnabled, h.filteringEnabled⟩

theorem Agree.applyUnpaused (h : Agree setts setts') (env : FilterEnv) (contains : Option Weekly → Bool)
    (bsvc : BlockedServices) : Agree setts (HostChecks.applyUnpaused env contains bsvc setts') := by
  unfold HostChecks.applyUnpaused
  split
  · exact h
  · exact h.withServices _ _

theorem SameClient.agree {c c' : Client.Persistent} (hc : SameClient c c') (h : Agree setts setts') :
    Agree (Client.Storage.applyClient c setts) (Client.Storage.applyClient c' setts') := by
  have hservices : ∀ (c : Client.Persistent) (setts : Settings), Agree setts
      (if c.useOwnBlockedServices then { setts with blockedServices := c.blockedServices } else setts) := by
    intro c setts
    split
    · exact (Agree.refl setts).withServices _ _
    · exact .refl setts
  have hboth := (hservices c setts).symm.trans (h.trans (hservices c' setts'))
  unfold Client.Storage.applyClient
  dsimp only
  rw [hc.useOwnSettings]
  cases hown : c.useOwnSettings with
  | false => exact ⟨hc.name, hboth.clientIP, hc.tags, hboth.protectionEnabled, hboth.filteringEnabled⟩
  | true => exact ⟨hc.name, hboth.clientIP, hc.tags, hboth.protectionEnabled, hc.filteringEnabled hown⟩

theorem applyClient_protectionEnabled (c : Client.Persistent) (setts : Settings) :
    (Client.Storage.applyClient c setts).protectionEnabled = setts.protectionEnabled := by
  unfold Client.Storage.applyClient
  dsimp only
  split <;> split <;> rfl

/-- The settings that a request has of its client alone. -/
def clientSettings (f : Filters) (addr : Addr) (id : String) (setts : Settings) : Settings :=
  match f.client id addr with
  | none => { setts with clientIP := addr }
  | some c => Client.Storage.applyClient c { setts with clientIP := addr }

theorem agree_applyAdditionalFiltering (f : Filters) (addr : Addr) (id : String) (setts : Settings) :
    Agree (clientSettings f addr id setts) (f.applyAdditionalFiltering addr id setts) := by
  have hnone := (Agree.refl { setts with clientIP := addr }).withServices [] setts.blockedServices
  have hglobal := hnone.applyUnpaused f.env f.contains f.blockedServices
  unfold clientSettings Filters.applyAdditionalFiltering HostChecks.applyAdditionalFiltering
    Client.Storage.applyClientFiltering
  rw [f.client_eq]
  dsimp only at hglobal ⊢
  generalize HostChecks.applyUnpaused f.env f.contains f.blockedServices _ = global at hglobal ⊢
  cases f.client id addr with
  | none =>
    dsimp only
    cases global.blockedServices with
    | none => exact hglobal
    | some bsvc => exact (hglobal.withServices [] bsvc).applyUnpaused f.env f.contains bsvc
  | some c =>
    have hown := SameClient.agree (c := c) ⟨rfl, rfl, rfl, fun _ => rfl⟩ hglobal
    dsimp only
    cases (Client.Storage.applyClient c global).blockedServices with
    | none => exact hown
    | some bsvc => exact (hown.withServices [] bsvc).applyUnpaused f.env f.contains bsvc

theorem agree_settings (hsame : SameRewrites f f') (addr : Addr) (id : String) (protectionEnabled : Bool) :
    Agree (f.applyAdditionalFiltering addr id { f.settings with protectionEnabled := protectionEnabled })
      (f'.applyAdditionalFiltering addr id { f'.settings with protectionEnabled := protectionEnabled }) := by
  have hsetts : Agree { f.settings with protectionEnabled := protectionEnabled, clientIP := addr }
      { f'.settings with protectionEnabled := protectionEnabled, clientIP := addr } :=
    ⟨rfl, rfl, rfl, rfl, hsame.filteringEnabled⟩
  refine (agree_applyAdditionalFiltering f _ _ _).symm.trans (.trans ?_ (agree_applyAdditionalFiltering f' _ _ _))
  have hclient := hsame.clients id addr
  unfold clientSettings
  generalize f.client id addr = found at hclient ⊢
  generalize f'.client id addr = found' at hclient ⊢
  cases hclient with
  | none => exact hsetts
  | some hc => exact hc.agree hsetts

theorem applyAdditionalFiltering_protectionEnabled (f : Filters) (addr : Addr) (id : String) (setts : Settings) :
    (f.applyAdditionalFiltering addr id setts).protectionEnabled = setts.protectionEnabled := by
  rw [(agree_applyAdditionalFiltering f addr id setts).protectionEnabled]
  unfold clientSettings
  split
  · rfl
  · exact applyClient_protectionEnabled ..

/-! ### What is left of the checks -/

theorem Agree.dnsRequest_eq (h : Agree setts setts') (host : String) (qtype : UInt16) :
    dnsRequest host qtype setts' = dnsRequest host qtype setts := by
  unfold dnsRequest
  rw [h.clientName, h.clientIP, h.clientTags]

theorem matchHost_unprotected (hoff : setts.protectionEnabled = false) (checks : HostChecks) (host : String)
    (qtype : UInt16) :
    HostChecks.matchHost host qtype setts checks = .ok (if !setts.filteringEnabled then {}
      else processDNSResultRewrites { dnsRewrites := rewritesFound checks (dnsRequest host qtype setts) } host) := by
  have hrewrites : ∀ dnsres : DNSResult, processDNSResultRewrites { dnsRewrites := dnsres.dnsRewrites } host =
      processDNSResultRewrites dnsres host := fun _ => rfl
  unfold HostChecks.matchHost
  split
  · rfl
  · rw [hoff]
    dsimp only
    rw [if_neg Bool.false_ne_true]
    dsimp only
    unfold HostChecks.matchBlocked rewritesFound
    cases checks.filteringEngine with
    | none => rfl
    | some engine =>
      obtain ⟨matchRequest⟩ := engine
      rw [Option.map_some, Option.getD_some, hrewrites, hoff]
      dsimp only
      rcases processDNSResultRewrites_cases (matchRequest (dnsRequest host qtype setts)).1 host with hnone | ⟨hreason, -⟩
      · rw [if_neg (by simp [hnone]), hnone]
        split <;> rfl
      · rw [if_pos (by simp [hreason])]

/-- What the checkers say without protection. -/
theorem verdicts_unprotected (hoff : setts.protectionEnabled = false) (f : Filters) (host : String) (qtype : UInt16) :
    HostChecks.verdicts f.env f.db host qtype setts f.checks =
      [("hosts container", .ok (f.checks.matchSysHosts f.env host qtype setts)),
        ("filtering", .ok (if !setts.filteringEnabled then {} else
          processDNSResultRewrites { dnsRewrites := rewritesFound f.checks (dnsRequest host qtype setts) } host)),
        ("blocked services", .ok {}), ("safe browsing", .ok {}), ("parental", .ok {}), ("safe search", .ok {})] := by
  have hservices : HostChecks.matchBlockedServicesRules f.env host setts = {} := by
    unfold HostChecks.matchBlockedServicesRules
    rw [hoff]
    rfl
  have hhashes : ∀ S res, HostChecks.hashVerdict f.env S host false res = {} := by
    intro S res
    unfold HostChecks.hashVerdict
    rw [if_neg fun h => Bool.false_ne_true h.1]
  have hsearch : HostChecks.searchVerdict f.env host qtype setts f.checks = .ok {} := by
    unfold HostChecks.searchVerdict HostChecks.searchOf
    rw [if_pos (.inr (.inl (by rw [hoff]; rfl)))]
  unfold HostChecks.verdicts
  rw [matchHost_unprotected hoff, hservices, hsearch, hoff, Bool.false_and, Bool.false_and, hhashes, hhashes]

/-- Without protection a host has the verdict that its rewrites give. -/
theorem checkHost_unprotected (hsame : SameRewrites f f') (h : Agree setts setts')
    (hoff : setts.protectionEnabled = false) (host : String) (qtype : UInt16) :
    f'.checkHost host qtype setts' = f.checkHost host qtype setts := by
  have hhosts : ∀ host,
      f'.checks.matchSysHosts f'.env host qtype setts' = f.checks.matchSysHosts f.env host qtype setts := by
    intro host
    unfold HostChecks.matchSysHosts HostChecks.hostsRewrites
    rw [hsame.etcHosts, hsame.ipFromReversedAddr, h.filteringEnabled]
  have hlegacy : ∀ host, f'.checks.processRewrites f'.env host qtype = f.checks.processRewrites f.env host qtype := by
    intro host
    unfold HostChecks.processRewrites
    rw [hsame.conf, hsame.rewrites]
  unfold Filters.checkHost HostChecks.verdict
  simp only [verdicts_unprotected hoff, verdicts_unprotected (h.protectionEnabled.trans hoff), hhosts, hlegacy,
    hsame.rewrites, hsame.found, h.dnsRequest_eq, h.filteringEnabled]

/-- Without protection nothing is filtered. -/
theorem isFiltered_unprotected (hoff : setts.protectionEnabled = false) {host : String} {qtype : UInt16} {res : Result}
    (h : f.checkHost host qtype setts = .ok res) : res.isFiltered = false := by
  unfold Filters.checkHost HostChecks.verdict at h
  split at h
  · cases h
    rfl
  · dsimp only at h
    generalize f.env.rewrites.toLower host = host at h
    have hlegacy : HostChecks.Legacy (if setts.filteringEnabled then f.checks.processRewrites f.env host qtype
        else {}) := by
      split
      · exact HostChecks.legacy_processRewrites f.env host qtype f.checks
      · exact HostChecks.legacy_default
    generalize (if setts.filteringEnabled then f.checks.processRewrites f.env host qtype else {}) = rewrite at h hlegacy
    by_cases hreason : rewrite.reason = .rewritten
    · rw [if_pos hreason] at h
      cases h
      obtain ⟨_, _, _, rfl, -, -⟩ := hlegacy
      rfl
    · rw [if_neg hreason, verdicts_unprotected hoff] at h
      rcases HostChecks.mem_of_outcome h with rfl | ⟨v, hv, hres⟩
      · rfl
      · simp only [List.mem_cons, List.not_mem_nil, or_false] at hv
        rcases hv with rfl | rfl | rfl | rfl | rfl | rfl
        · cases hres
          unfold HostChecks.matchSysHosts
          split
          · rfl
          · split <;> rfl
        · cases hres
          split
          · rfl
          · rcases processDNSResultRewrites_cases _ host with hnone | ⟨-, hfiltered⟩
            · rw [hnone]
            · exact hfiltered
        all_goals
          cases hres
          rfl

/-! ### The stages -/

/-- A stage that neither reads nor writes the settings. -/
def Frames (stage : DnsContext → DnsContext × ResultCode) : Prop :=
  ∀ d setts, stage { d with setts := setts } = ({ (stage d).1 with setts := setts }, (stage d).2)

theorem frames_processDDRQuery (s : Handler) : Frames s.processDDRQuery := by
  intro d setts
  unfold processDDRQuery
  dsimp only
  split <;> rfl

theorem frames_processDHCPHosts (s : Handler) : Frames s.processDHCPHosts := by
  intro d setts
  unfold processDHCPHosts
  dsimp only
  split
  · rfl
  · split
    · rfl
    · split
      · rfl
      · cases s.dhcpHostAnswer d.req (s.ipByHost (s.dhcpHostFromRequest d.req.question)) <;> rfl

theorem frames_processDHCPAddrs (s : Handler) : Frames s.processDHCPAddrs := by
  intro d setts
  unfold processDHCPAddrs
  dsimp only
  split
  · rfl
  · cases d.requestedPrivateRDNS with
    | none => rfl
    | some pref =>
      dsimp only
      split
      · rfl
      · split <;> rfl

theorem setCustomUpstream_frame (s : Handler) (d : DnsContext) (setts : Settings) :
    s.setCustomUpstream { d with setts := setts } = { s.setCustomUpstream d with setts := setts } := by
  unfold setCustomUpstream
  dsimp only
  split
  · rfl
  · cases s.customUpstreamConfig d.clientID d.addr <;> rfl

theorem frames_processUpstream (s : Handler) : Frames s.processUpstream := by
  intro d setts
  unfold processUpstream
  rw [s.setCustomUpstream_frame]
  dsimp only
  split
  · rfl
  · split
    · rfl
    · cases s.proxy with
      | none => rfl
      | some resolve =>
        dsimp only
        generalize s.setCustomUpstream d = d
        cases resolve d.req d.customUpstreamConfig with
        | error err => rfl
        | ok resp => cases resp <;> rfl

theorem frames_restoreQuestion (s : Handler) : Frames s.restoreQuestion := by
  rintro ⟨pctx, res⟩ setts
  unfold restoreQuestion
  cases res with
  | none => rfl
  | some resp =>
    dsimp only
    cases resp.question <;> rfl

theorem filterDNSResult_frame (s : Handler) (d : DnsContext) (setts : Settings) (res : Result) :
    s.filterDNSResult { d with setts := setts } res =
      ({ (s.filterDNSResult d res).1 with setts := setts }, (s.filterDNSResult d res).2) := by
  unfold filterDNSResult
  dsimp only
  split
  · rfl
  · split
    · rfl
    · cases res.reason with
      | rewrittenAutoHosts | rewrittenRule => dsimp only; cases s.filterDNSRewrite d.req res <;> rfl
      | _ => rfl

theorem filterDNSRewriteValues_filteredBy (req : Request) (qtype : UInt16) (i : ℕ) (values : List RRValue) :
    (s.filteredBy f).filterDNSRewriteValues req qtype i values = s.filterDNSRewriteValues req qtype i values := by
  induction values generalizing i with
  | nil => rfl
  | cons v values ih =>
    unfold filterDNSRewriteValues
    rw [ih]
    rfl

/-- What is done with a result is the same whatever the filters are. -/
theorem filterDNSResult_filteredBy (d : DnsContext) (res : Result) :
    (s.filteredBy f).filterDNSResult d res = s.filterDNSResult d res := by
  have hrewrite : (s.filteredBy f).filterDNSRewrite d.req res = s.filterDNSRewrite d.req res := by
    unfold filterDNSRewrite
    simp only [filterDNSRewriteValues_filteredBy]
  unfold filterDNSResult
  rw [hrewrite]
  rfl

/-- A context of a request without protection, with nothing filtered. -/
structure Off (d : DnsContext) : Prop where
  protectionEnabled : d.protectionEnabled = false
  setts : d.setts.protectionEnabled = false
  result : d.result.isFiltered = false

theorem off_filterDNSResult (h : Off d) (s : Handler) (res : Result) :
    Off (s.filterDNSResult d res).1 ∧ ∀ res', (s.filterDNSResult d res).2 = .ok res' → res' = res := by
  have hsame : ∀ d' : DnsContext, Off d' →
      Off d' ∧ ∀ res', (Except.ok res : Except String Result) = .ok res' → res' = res :=
    fun d' h' => ⟨h', by rintro _ ⟨⟩; rfl⟩
  unfold filterDNSResult
  dsimp only
  split
  · exact hsame _ ⟨h.protectionEnabled, h.setts, h.result⟩
  · split
    · exact hsame _ ⟨h.protectionEnabled, h.setts, h.result⟩
    · split
      · exact hsame _ ⟨h.protectionEnabled, h.setts, h.result⟩
      · exact hsame _ ⟨h.protectionEnabled, h.setts, h.result⟩
      · split
        · exact ⟨h, nofun⟩
        · exact hsame _ ⟨h.protectionEnabled, h.setts, h.result⟩
      · split
        · exact ⟨h, nofun⟩
        · exact hsame _ ⟨h.protectionEnabled, h.setts, h.result⟩
      · exact hsame d h

/-- From alike contexts without protection the stages have alike results, with the same code and without protection. -/
def Related (stage stage' : DnsContext → DnsContext × ResultCode) : Prop :=
  ∀ d d', Alike d d' ∧ Off d → (Alike (stage d).1 (stage' d').1 ∧ Off (stage d).1) ∧ (stage d).2 = (stage' d').2

theorem Frames.setts_eq {stage : DnsContext → DnsContext × ResultCode} (h : Frames stage) (d : DnsContext) :
    (stage d).1.setts = d.setts := by
  have hself := h d d.setts
  exact congrArg (fun res : DnsContext × ResultCode => res.1.setts) hself

/-- A stage that does not ask the filters, and keeps what is off. -/
theorem related_of_frames {stage : Handler → DnsContext → DnsContext × ResultCode}
    (hstage : ∀ f, stage (s.filteredBy f) = stage s) (hframes : Frames (stage s))
    (hkeep : ∀ d, Off d → Off (stage s d).1) : Related (stage (s.filteredBy f)) (stage (s.filteredBy f')) := by
  rintro d _ ⟨⟨setts', rfl, hagree⟩, hoff⟩
  rw [hstage f, hstage f', hframes d setts']
  exact ⟨⟨⟨setts', rfl, (hframes.setts_eq d).symm ▸ hagree⟩, hkeep d hoff⟩, rfl⟩

/-- The first stage gives a response of its own, or goes on with the settings of the request, with any filters. -/
theorem processInitial_filteredBy (s : Handler) (d : DnsContext) :
    (∃ res, ∀ f setts, (s.filteredBy f).processInitial { d with setts := setts } =
      ({ d with setts := setts, res := some res }, .finish)) ∨
    ∃ clientID, ∀ f setts, (s.filteredBy f).processInitial { d with setts := setts } =
      ({ d with
        clientID := clientID
        protectionEnabled := s.protectionEnabled
        setts := f.applyAdditionalFiltering d.addr clientID
          { f.settings with protectionEnabled := s.protectionEnabled } }, .success) := by
  unfold processInitial
  dsimp only
  by_cases haaaa : s.aaaaDisabled ∧ d.req.question.qtype = RRType.aaaa
  · exact .inl ⟨s.newMsgNODATA d.req, fun f setts => if_pos haaaa⟩
  · by_cases hmozilla : (d.req.question.qtype = RRType.a ∨ d.req.question.qtype = RRType.aaaa) ∧
        d.req.question.name = mozillaFQDN
    · exact .inl ⟨s.newMsgNXDOMAIN d.req, fun f setts => (if_neg haaaa).trans (if_pos hmozilla)⟩
    · by_cases hhealth : d.req.question.name = healthcheckFQDN
      · exact .inl ⟨_, fun f setts => (if_neg haaaa).trans ((if_neg hmozilla).trans (if_pos hhealth))⟩
      · exact .inr ⟨_, fun f setts => (if_neg haaaa).trans ((if_neg hmozilla).trans (if_neg hhealth))⟩

theorem related_processInitial (hoff : s.protectionEnabled = false) (hsame : SameRewrites f f') :
    Related (s.filteredBy f).processInitial (s.filteredBy f').processInitial := by
  rintro d _ ⟨⟨setts', rfl, hagree⟩, h⟩
  rcases processInitial_filteredBy s d with ⟨res, hres⟩ | ⟨clientID, hres⟩
  · rw [hres f', show (s.filteredBy f).processInitial d = _ from hres f d.setts]
    exact ⟨⟨⟨setts', rfl, hagree⟩, h.protectionEnabled, h.setts, h.result⟩, rfl⟩
  · rw [hres f', show (s.filteredBy f).processInitial d = _ from hres f d.setts]
    exact ⟨⟨⟨_, rfl, agree_settings hsame _ _ _⟩, hoff,
      (applyAdditionalFiltering_protectionEnabled f _ _ _).trans hoff, h.result⟩, rfl⟩

theorem agree_settsFor {setts' : Settings} (h : Agree d.setts setts') :
    Agree (settsFor d) (settsFor { d with setts := setts' }) := by
  unfold settsFor
  dsimp only
  split
  · exact ⟨h.clientName, h.clientIP, h.clientTags, h.protectionEnabled, h.filteringEnabled⟩
  · exact h

theorem settsFor_protectionEnabled (d : DnsContext) : (settsFor d).protectionEnabled = d.setts.protectionEnabled := by
  unfold settsFor
  split <;> rfl

/-- The filtering of the request is the same and filters nothing. -/
theorem related_processFilteringBeforeRequest (hsame : SameRewrites f f') :
    Related (s.filteredBy f).processFilteringBeforeRequest (s.filteredBy f').processFilteringBeforeRequest := by
  rintro d _ ⟨⟨setts', rfl, hagree⟩, h⟩
  have hsetts := agree_settsFor hagree
  have hoff : (settsFor d).protectionEnabled = false := (settsFor_protectionEnabled d).trans h.setts
  generalize hafter : settsFor { d with setts := setts' } = after at hsetts
  generalize hbefore : settsFor d = before at hsetts hoff
  unfold processFilteringBeforeRequest filterDNSRequest
  dsimp only
  rw [hafter, hbefore]
  have hcheck : (s.filteredBy f').checkHost (trimDot d.req.question.name) d.req.question.qtype after =
      (s.filteredBy f).checkHost (trimDot d.req.question.name) d.req.question.qtype before :=
    checkHost_unprotected hsame hsetts hoff _ _
  rw [hcheck]
  cases hres : d.res with
  | some res => exact ⟨⟨⟨after, rfl, hsetts⟩, h.protectionEnabled, hoff, h.result⟩, rfl⟩
  | none =>
    cases hverdict : (s.filteredBy f).checkHost (trimDot d.req.question.name) d.req.question.qtype before with
    | error err => exact ⟨⟨⟨after, rfl, hsetts⟩, h.protectionEnabled, hoff, h.result⟩, rfl⟩
    | ok res =>
      have hfiltered : res.isFiltered = false := isFiltered_unprotected hoff hverdict
      have hframe := s.filterDNSResult_frame { d with setts := before, checked := some res } after res
      have hkeep := @off_filterDNSResult { d with setts := before, checked := some res }
        ⟨h.protectionEnabled, hoff, h.result⟩ s res
      have hsetts' : (s.filterDNSResult { d with setts := before, checked := some res } res).1.setts = before :=
        congrArg (fun out : DnsContext × Except String Result => out.1.setts)
          (s.filterDNSResult_frame { d with setts := before, checked := some res } before res)
      rw [hres] at hframe hkeep hsetts'
      dsimp only
      simp only [Option.isSome_none, Bool.false_eq_true, if_false, filterDNSResult_filteredBy]
      rw [hframe]
      generalize s.filterDNSResult _ _ = out at hkeep hsetts' ⊢
      obtain ⟨d₁, out⟩ := out
      obtain ⟨hoff₁, hsameRes⟩ := hkeep
      cases out with
      | error err => exact ⟨⟨⟨after, rfl, hsetts' ▸ hsetts⟩, hoff₁.protectionEnabled, hoff₁.setts, hoff₁.result⟩, rfl⟩
      | ok res' =>
        obtain rfl := hsameRes res' rfl
        exact ⟨⟨⟨after, rfl, hsetts' ▸ hsetts⟩, hoff₁.protectionEnabled, hoff₁.setts, hfiltered⟩, rfl⟩

theorem off_restoreQuestion (h : Off d) (s : Handler) : Off (s.restoreQuestion d).1 := by
  unfold restoreQuestion
  split
  · exact h
  · split
    · exact h
    · exact ⟨h.protectionEnabled, h.setts, h.result⟩

theorem related_processFilteringAfterResponse :
    Related (s.filteredBy f).processFilteringAfterResponse (s.filteredBy f').processFilteringAfterResponse := by
  have hafter : ∀ f d, Off d → (s.filteredBy f).filterAfterResponse d = (d, .success) := by
    intro f d h
    unfold filterAfterResponse
    rw [if_pos (.inl (by rw [h.protectionEnabled]; rfl))]
  have hrestore : Related (s.filteredBy f).restoreQuestion (s.filteredBy f').restoreQuestion :=
    @related_of_frames f f' s restoreQuestion (fun _ => rfl) s.frames_restoreQuestion fun d h => off_restoreQuestion h s
  rintro d d' hd
  have hrestored := hrestore d d' hd
  have hsame : (Alike d d' ∧ Off d) ∧ ResultCode.success = .success := ⟨hd, rfl⟩
  obtain ⟨⟨setts', rfl, hagree⟩, hoff⟩ := hd
  have hoff' : Off { d with setts := setts' } :=
    ⟨hoff.protectionEnabled, hagree.protectionEnabled.trans hoff.setts, hoff.result⟩
  unfold processFilteringAfterResponse
  rw [hafter f d hoff, hafter f' _ hoff']
  dsimp only
  split
  · exact hsame
  · split
    · exact hsame
    · exact hrestored
  · split
    · exact hsame
    · exact hrestored
  · split
    · exact hsame
    · exact hrestored
  · exact hsame

theorem off_processDDRQuery (h : Off d) (s : Handler) : Off (s.processDDRQuery d).1 := by
  unfold processDDRQuery
  split
  · exact ⟨h.protectionEnabled, h.setts, h.result⟩
  · exact h

theorem off_processDHCPHosts (h : Off d) (s : Handler) : Off (s.processDHCPHosts d).1 := by
  have hflag : ∀ b, Off { d with isDHCPHost := b } := fun _ => ⟨h.protectionEnabled, h.setts, h.result⟩
  unfold processDHCPHosts
  dsimp only
  split
  · exact hflag _
  · split
    · exact ⟨h.protectionEnabled, h.setts, h.result⟩
    · split
      · exact hflag _
      · split
        · exact hflag _
        · exact ⟨h.protectionEnabled, h.setts, h.result⟩

theorem off_processDHCPAddrs (h : Off d) (s : Handler) : Off (s.processDHCPAddrs d).1 := by
  unfold processDHCPAddrs
  split
  · exact h
  · split
    · exact h
    · split
      · exact h
      · dsimp only
        split
        · exact h
        · exact ⟨h.protectionEnabled, h.setts, h.result⟩

theorem off_processUpstream (h : Off d) (s : Handler) : Off (s.processUpstream d).1 := by
  have hcustom : Off (s.setCustomUpstream d) := by
    unfold setCustomUpstream
    split
    · exact h
    · split
      · exact h
      · exact ⟨h.protectionEnabled, h.setts, h.result⟩
  unfold processUpstream
  split
  · exact h
  · split
    · exact ⟨h.protectionEnabled, h.setts, h.result⟩
    · dsimp only
      split
      · exact ⟨hcustom.protectionEnabled, hcustom.setts, hcustom.result⟩
      · split <;> exact ⟨hcustom.protectionEnabled, hcustom.setts, hcustom.result⟩

end Unprotected

/-! ## Servers -/

/-- A server whose upstream has no records. -/
def exampleServer (protectionEnabled : Bool) : Handler where
  aaaaDisabled := false
  handleDDR := false
  serverName := ""
  httpsPorts := []
  tlsPorts := []
  quicPorts := []
  hasIPAddrs := false
  dhcpEnabled := false
  ipByHost _ := .invalid
  hostByIP _ := ""
  localDomainSuffix := "lan"
  dns64Pref := none
  protectionEnabled := protectionEnabled
  settings := {}
  applyAdditionalFiltering _ _ setts := setts
  checkHost _ _ _ := .ok {}
  checkHostRules _ _ _ := .ok {}
  blockingMode := .default
  blockingIPv4 := .invalid
  blockingIPv6 := .invalid
  blockedResponseTTL := 10
  safeBrowsingBlockHost := ""
  parentalBlockHost := ""
  customUpstreamConfig _ _ := none
  proxy := some fun req _ => .ok (some (reply req Rcode.success))
  toLower := id
  fqdn := id
  isSubdomain _ _ := false
  quote := id
  typeString _ := ""
  ipString _ := ""
  svcbValues _ := []

/-- Filters that have this engine and no others. -/
def engineFilters (engine : Option DNSEngine) : Filters where
  env := HostChecks.unsafeEnv
  db := ⟨∅, ∅⟩
  checks := { HostChecks.emptyChecks with filteringEngine := engine }
  filteringEnabled := true
  safeSearchEnabled := false
  safeBrowsingEnabled := false
  parentalEnabled := false
  contains _ := false
  blockedServices := ⟨none, []⟩
  clients := .new
  macByIP _ := none
  client _ _ := none
  client_eq _ _ := rfl

/-- An engine that blocks every host. -/
def blockAll : DNSEngine where
  matchRequest _ := ({ networkRule := some ⟨"*", 1, false⟩ }, true)

/-- A request for the address of a host. -/
def adsRequest : ProxyContext where
  req := { id := 1, question := ⟨"ads.example.", RRType.a, 1⟩ }
  addr := .v4 0xc0a80002

theorem blockAll_documented : (engineFilters (some blockAll)).Documented := by
  refine ⟨?typed, ?rules, ?address⟩
  case typed =>
    rintro _ ⟨⟩ req nr hnr
    cases hnr
  case rules => rintro _ ⟨⟩
  case address => rintro _ _ _ _ ⟨⟩

/-- Filters with the same rewrites that block every host, also as one of a service, and have all checks enabled. -/
def otherFilters : Filters :=
  { engineFilters (some blockAll) with
    env := { HostChecks.unsafeEnv with
      serviceRules := fun _ => some [⟨"*", 1, false⟩]
      ruleMatches := fun _ _ => true }
    db := HostChecks.unsafeHosts
    safeSearchEnabled := true
    safeBrowsingEnabled := true
    parentalEnabled := true
    blockedServices := ⟨none, ["ads"]⟩ }

theorem sameRewrites_other : SameRewrites (engineFilters none) otherFilters :=
  ⟨rfl, rfl, rfl, rfl, fun _ => rfl, rfl, fun _ _ => .none⟩

end Handler

end AdGuardHome.Dnsforward
