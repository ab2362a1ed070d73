import AdGuardHome.Dnsforward.Filtered

/-!
# IPv6 switched off

With IPv6 disabled, a question of type AAAA is answered with no data at the first stage.  The IPv6 hints of HTTPS
records are dropped by the loop that checks the answer of the upstreams, so they are left in all messages that do not
come from it or that it does not go through to the end.  `Leaks` says which requests get such a message.
-/

namespace AdGuardHome.Dnsforward

open AdGuardHome.Net AdGuardHome.Filtering AdGuardHome.Aghnet AdGuardHome.Lib.Stages

/-! ## Hints -/

def SVCBKeyValue.isIPv6Hint : SVCBKeyValue → Bool
  | .ipv6Hint _ => true
  | _ => false

/-- An HTTPS record with an IPv6 hint. -/
def RR.hinted (rr : RR) : Bool :=
  match rr.data with
  | .https _ _ value => value.any SVCBKeyValue.isIPv6Hint
  | _ => false

def RR.isAAAA (rr : RR) : Bool :=
  match rr.data with
  | .aaaa _ => true
  | _ => false

/-- A message with an IPv6 hint in its answer. -/
def Msg.Hinted (m : Msg) : Prop := ∃ rr ∈ m.answer, rr.hinted = true

namespace Handler

variable (s : Handler) (pctx : ProxyContext)

/-- A response to the request: what is left in the context if there is no panic. -/
def Responds (m : Msg) : Prop := (s.serveDNS pctx).2 ≠ .panic ∧ (s.serveDNS pctx).1.res = some m

/-- No response has an address for a question of type AAAA or an IPv6 hint. -/
def IPv6Off : Prop :=
  ∀ m, s.Responds pctx m →
    (pctx.req.question.qtype = RRType.aaaa → ∀ rr ∈ m.answer, rr.isAAAA = false) ∧ ¬ m.Hinted

/-! ## Which requests get a hint -/

/-- `processInitial` does not answer the request. -/
structure PassesInitial : Prop where
  ipv6 : ¬(s.aaaaDisabled = true ∧ pctx.req.question.qtype = RRType.aaaa)
  mozilla : ¬((pctx.req.question.qtype = RRType.a ∨ pctx.req.question.qtype = RRType.aaaa) ∧
    pctx.req.question.name = mozillaFQDN)
  healthcheck : pctx.req.question.name ≠ healthcheckFQDN

/-- Neither do the stages up to `processDHCPHosts`. -/
structure PassesDHCPHosts : Prop extends s.PassesInitial pctx where
  ddr : ¬(s.handleDDR = true ∧ pctx.req.question.name = ddrHostFQDN)
  dhcpHost : s.dhcpHostFromRequest pctx.req.question ≠ "" →
    pctx.isPrivateClient = true ∧ s.ipByHost (s.dhcpHostFromRequest pctx.req.question) = .invalid

/-- No stage before the filtering answers the request. -/
structure Reaches : Prop extends s.PassesDHCPHosts pctx where
  dhcpAddr : ∀ pref, pctx.requestedPrivateRDNS = some pref → pctx.req.question.qtype = RRType.ptr →
    s.hostByIP pref.addr = ""

/-- The settings that the filters get. -/
def finalSetts : Settings := settsFor (s.started pctx)

/-- The answer of the upstreams of the client to a request, if they give one and are asked. -/
def upstreamAnswer (req : Request) : Option Msg :=
  if s.dhcpHostFromRequest pctx.req.question ≠ "" then none
  else
    match s.proxy with
    | none => none
    | some resolve =>
      match resolve req (s.setCustomUpstream (s.started pctx)).customUpstreamConfig with
      | .ok m => m
      | .error _ => none

/-- The host is replaced by another one, and the answer for that one has a hint. -/
def LeaksReplacement (req : Request) (newAddr : String) : Prop :=
  newAddr ≠ "" ∧ parseAddr newAddr = none ∧
    ∃ resolve m, s.proxy = some resolve ∧ resolve (s.replacementRequest req newAddr) none = .ok (some m) ∧ m.Hinted

/-- The message for a blocked request has a hint. -/
def LeaksBlocked (req : Request) (res : Result) : Prop :=
  (req.question.qtype = RRType.a ∨ req.question.qtype = RRType.aaaa ∨ req.question.qtype = RRType.https) ∧
    (res.reason = .filteredSafeBrowsing ∧ s.LeaksReplacement req s.safeBrowsingBlockHost ∨
      res.reason = .filteredParental ∧ s.LeaksReplacement req s.parentalBlockHost)

/-- All values of a rewrite are service bindings, and one of them has a hint. -/
def LeaksValues (values : List RRValue) : Prop :=
  ∃ svcbs : List DNSSVCB, values = svcbs.map .svcb ∧
    ∃ svcb ∈ svcbs, (s.svcbValues svcb.params).any SVCBKeyValue.isIPv6Hint = true

/-- A rewrite rule has a hint for a question of type HTTPS. -/
def LeaksRewrite (req : Request) (res : Result) : Prop :=
  req.question.qtype = RRType.https ∧ ∃ dnsrr response, res.dnsRewriteResult = some dnsrr ∧
    dnsrr.rcode = Rcode.success ∧ dnsrr.response = some response ∧
    s.LeaksValues ((response.lookup RRType.https).getD [])

/-- The loop over the answer ends before a hint: a check fails, or it blocks and the generated message has one. -/
def LeaksScan (req : Request) (setts : Settings) (answer : List RR) : Prop :=
  ∃ before rr after, answer = before ++ rr :: after ∧
    (∀ b ∈ before, ∃ r, s.checkRR setts (s.stripRR b) = .ok r ∧ (r.map Result.isFiltered).getD false = false) ∧
    ((∃ err, s.checkRR setts (s.stripRR rr) = .error err) ∧ (∃ a ∈ after, a.hinted = true) ∨
      ∃ res, s.checkRR setts (s.stripRR rr) = .ok (some res) ∧ res.isFiltered = true ∧ s.LeaksBlocked req res)

/-- An answer of the upstreams is passed on as it is, or the loop over it ends too early. -/
def LeaksAnswer (m : Msg) : Prop :=
  if s.protectionEnabled = true ∧ (s.finalSetts pctx).filteringEnabled = true then
    s.LeaksScan pctx.req (s.finalSetts pctx) m.answer
  else m.Hinted

/-- `req` with the canonical name of a rewrite. -/
def renamedRequest (req : Request) (res : Result) : Request :=
  { req with question := { req.question with name := s.fqdn res.canonName } }

/-- What `CheckHost` has reported leads to a response with a hint. -/
def LeaksResult (res : Result) : Prop :=
  if isRewrittenCNAME res = true then
    ∃ m, s.upstreamAnswer pctx (s.renamedRequest pctx.req res) = some m ∧
      (pctx.req.question.name = "" ∨ m.question ≠ []) ∧ m.Hinted
  else if res.isFiltered = true then s.LeaksBlocked pctx.req res
  else
    match res.reason with
    | .filteredSafeSearch | .rewritten => False
    | .rewrittenAutoHosts | .rewrittenRule => s.LeaksRewrite pctx.req res
    | .notFilteredAllowList => ∃ m, s.upstreamAnswer pctx pctx.req = some m ∧ m.Hinted
    | _ => ∃ m, s.upstreamAnswer pctx pctx.req = some m ∧ s.LeaksAnswer pctx m

/-- The response to the request has an IPv6 hint. -/
def Leaks : Prop :=
  s.Reaches pctx ∧ ∃ res, s.checkHost (trimDot pctx.req.question.name) pctx.req.question.qtype (s.finalSetts pctx) =
    .ok res ∧ s.LeaksResult pctx res

/-! ## Hints of the generated messages -/

variable {s pctx} {req : Request}

theorem stripRR_hinted (h : s.aaaaDisabled = true) (rr : RR) : (s.stripRR rr).hinted = false := by
  have hany : ∀ value : List SVCBKeyValue, (removeIPv6Hints value).any SVCBKeyValue.isIPv6Hint = false := by
    intro value
    unfold removeIPv6Hints
    rw [List.any_filter, List.any_eq_false]
    rintro kv -
    cases kv <;> simp [SVCBKeyValue.isIPv6Hint]
  unfold stripRR
  split
  · rw [if_pos h]
    exact hany _
  · rename_i hdata
    unfold RR.hinted
    split
    next heq => exact absurd heq (hdata _ _ _)
    · rfl

theorem not_hinted_of_nil {m : Msg} (h : m.answer = []) : ¬ m.Hinted := by
  rintro ⟨rr, hrr, -⟩
  rw [h] at hrr
  cases hrr

theorem genAnswersWithIPs_hinted (ips : List Addr) : ∀ rr ∈ s.genAnswersWithIPs req ips, rr.hinted = false := by
  unfold genAnswersWithIPs genAnswersWithIPv4s
  intro rr hrr
  split at hrr
  · split at hrr
    · obtain ⟨ip, -, rfl⟩ := List.mem_map.1 hrr
      rfl
    · cases hrr
  · split at hrr
    · obtain ⟨ip, -, rfl⟩ := List.mem_map.1 hrr
      rfl
    · cases hrr

theorem genResponseWithIPs_hinted (ips : List Addr) : ¬ (s.genResponseWithIPs req ips).Hinted := by
  rintro ⟨rr, hrr, hh⟩
  exact absurd hh (by simp [genAnswersWithIPs_hinted ips rr hrr])

theorem getCNAMEWithIPs_hinted (ips : List Addr) (cname : String) : ¬ (s.getCNAMEWithIPs req ips cname).Hinted := by
  unfold getCNAMEWithIPs
  rintro ⟨rr, hrr, hh⟩
  split at hrr
  · rcases List.mem_cons.1 hrr with rfl | hrr
    · cases hh
    · exact absurd hh (by simp [genAnswersWithIPs_hinted ips rr hrr])
  · exact absurd hh (by simp [genAnswersWithIPs_hinted ips rr hrr])

theorem makeResponseNullIP_hinted : ¬ (s.makeResponseNullIP req).Hinted := by
  unfold makeResponseNullIP
  split
  · exact genResponseWithIPs_hinted _
  · split
    · exact genResponseWithIPs_hinted _
    · exact not_hinted_of_nil rfl

theorem makeResponseCustomIP_hinted (bIPv4 bIPv6 : Addr) : ¬ (s.makeResponseCustomIP req bIPv4 bIPv6).Hinted := by
  unfold makeResponseCustomIP
  rintro ⟨rr, hrr, hh⟩
  split at hrr
  · obtain rfl := List.mem_singleton.1 hrr
    cases hh
  · split at hrr
    · obtain rfl := List.mem_singleton.1 hrr
      cases hh
    · cases hrr

theorem genForBlockingMode_hinted (ips : List Addr) : ¬ (s.genForBlockingMode req ips).Hinted := by
  unfold genForBlockingMode
  split
  · exact makeResponseCustomIP_hinted _ _
  · split
    · exact genResponseWithIPs_hinted _
    · exact makeResponseNullIP_hinted
  · exact makeResponseNullIP_hinted
  · exact not_hinted_of_nil rfl
  · exact not_hinted_of_nil rfl
  · exact not_hinted_of_nil rfl

theorem genBlockedHost_hinted_iff (newAddr : String) :
    (s.genBlockedHost req newAddr).1.Hinted ↔ s.LeaksReplacement req newAddr := by
  unfold genBlockedHost LeaksReplacement
  split
  next hempty => exact iff_of_false (not_hinted_of_nil rfl) fun h => h.1 hempty
  next hne =>
    split
    next ip hip => exact iff_of_false (genResponseWithIPs_hinted _) (by simp [hip])
    next hip =>
      split
      next hproxy => exact iff_of_false (not_hinted_of_nil rfl) (by simp [hproxy])
      next resolve hproxy =>
        dsimp only
        split
        next hres => exact iff_of_false (not_hinted_of_nil rfl) (by simp [hproxy, hres])
        next hres => exact iff_of_false (not_hinted_of_nil rfl) (by simp [hproxy, hres])
        next m hres =>
          have hmap : (∃ rr ∈ m.answer.map fun answer => { answer with name := req.question.name },
              rr.hinted = true) ↔ m.Hinted := by
            refine ⟨?_, fun ⟨a, ha, hh⟩ => ⟨_, List.mem_map_of_mem ha, hh⟩⟩
            rintro ⟨rr, hrr, hh⟩
            obtain ⟨a, ha, rfl⟩ := List.mem_map.1 hrr
            exact ⟨a, ha, hh⟩
          refine hmap.trans ⟨fun h => ⟨hne, hip, resolve, m, hproxy, hres, h⟩, ?_⟩
          rintro ⟨-, -, resolve', m', hproxy', hres', h⟩
          cases hproxy.symm.trans hproxy'
          cases hres.symm.trans hres'
          exact h

theorem genDNSFilterMessage_hinted_iff (res : Result) :
    (s.genDNSFilterMessage req res).1.Hinted ↔ s.LeaksBlocked req res := by
  unfold genDNSFilterMessage LeaksBlocked
  dsimp only
  split
  next hqt =>
    refine iff_of_false ?_ (by rintro ⟨h, -⟩; tauto)
    split <;> exact not_hinted_of_nil rfl
  next hqt =>
    have hqt : req.question.qtype = RRType.a ∨ req.question.qtype = RRType.aaaa ∨
        req.question.qtype = RRType.https := by tauto
    split
    next hreason => simp [hreason, hqt, genBlockedHost_hinted_iff]
    next hreason => simp [hreason, hqt, genBlockedHost_hinted_iff]
    next hreason => exact iff_of_false (getCNAMEWithIPs_hinted _ _) (by simp [hreason])
    next hsb hpar _ =>
      refine iff_of_false (genForBlockingMode_hinted _) ?_
      rintro ⟨-, ⟨hreason, -⟩ | ⟨hreason, -⟩⟩
      · exact hsb hreason
      · exact hpar hreason

/-! ## Hints of rewrite rules -/

theorem filterDNSRewriteResponse_https (v : RRValue) :
    s.filterDNSRewriteResponse req RRType.https v = s.ansFromDNSRewriteSVCB v RRType.https req := by
  unfold filterDNSRewriteResponse
  rw [if_neg (by decide), if_neg (by decide), if_neg (by decide), if_pos (by decide)]

theorem filterDNSRewriteResponse_hinted {qtype : UInt16} {v : RRValue} {ans : RR} (hqtype : qtype ≠ RRType.https)
    (h : s.filterDNSRewriteResponse req qtype v = .ok ans) : ans.hinted = false := by
  unfold filterDNSRewriteResponse at h
  split at h
  · unfold ansFromDNSRewriteIP at h
    split at h
    · cases h
      split <;> rfl
    · cases h
  · split at h
    · unfold ansFromDNSRewriteText at h
      split at h
      · cases h
        split <;> rfl
      · cases h
    · split at h
      · unfold ansFromDNSRewriteMX at h
        split at h
        · cases h
          rfl
        · cases h
      · split at h
        · unfold ansFromDNSRewriteSVCB at h
          split at h
          · simp only [hqtype, if_false] at h
            cases h
            rfl
          · cases h
        · split at h
          · unfold ansFromDNSRewriteSRV at h
            split at h
            · cases h
              rfl
            · cases h
          · cases h
            rfl

theorem filterDNSRewriteValues_cons {qtype : UInt16} {i : ℕ} {v : RRValue} {values : List RRValue} {answer : List RR}
    (h : s.filterDNSRewriteValues req qtype i (v :: values) = .ok answer) :
    ∃ ans rest, s.filterDNSRewriteResponse req qtype v = .ok ans ∧
      s.filterDNSRewriteValues req qtype (i + 1) values = .ok rest ∧ answer = ans :: rest := by
  unfold filterDNSRewriteValues at h
  cases hans : s.filterDNSRewriteResponse req qtype v with
  | error err => rw [hans] at h; cases h
  | ok ans =>
    cases hrest : s.filterDNSRewriteValues req qtype (i + 1) values with
    | error err => rw [hans, hrest] at h; cases h
    | ok rest =>
      rw [hans, hrest] at h
      cases h
      exact ⟨ans, rest, rfl, rfl, rfl⟩

theorem filterDNSRewriteValues_hinted {qtype : UInt16} (hqtype : qtype ≠ RRType.https) {i : ℕ}
    {values : List RRValue} {answer : List RR} (h : s.filterDNSRewriteValues req qtype i values = .ok answer) :
    ∀ rr ∈ answer, rr.hinted = false := by
  induction values generalizing i answer with
  | nil => cases h; nofun
  | cons v values ih =>
    obtain ⟨ans, rest, hans, hrest, rfl⟩ := filterDNSRewriteValues_cons h
    intro rr hrr
    rcases List.mem_cons.1 hrr with rfl | hrr
    · exact filterDNSRewriteResponse_hinted hqtype hans
    · exact ih hrest rr hrr

/-- The record for a service binding. -/
def httpsRR (s : Handler) (req : Request) (svcb : DNSSVCB) : RR :=
  s.rr req (.https svcb.priority (s.fqdn svcb.target) (s.svcbValues svcb.params))

theorem filterDNSRewriteResponse_https_svcb (svcb : DNSSVCB) :
    s.filterDNSRewriteResponse req RRType.https (.svcb svcb) = .ok (s.httpsRR req svcb) := by
  rw [filterDNSRewriteResponse_https]
  rfl

theorem svcb_of_filterDNSRewriteResponse {v : RRValue} {ans : RR}
    (h : s.filterDNSRewriteResponse req RRType.https v = .ok ans) : ∃ svcb, v = .svcb svcb := by
  rw [filterDNSRewriteResponse_https] at h
  unfold ansFromDNSRewriteSVCB at h
  split at h
  · exact ⟨_, rfl⟩
  · cases h

theorem filterDNSRewriteValues_map (svcbs : List DNSSVCB) (i : ℕ) :
    s.filterDNSRewriteValues req RRType.https i (svcbs.map .svcb) = .ok (svcbs.map (s.httpsRR req)) := by
  induction svcbs generalizing i with
  | nil => rfl
  | cons svcb svcbs ih =>
    rw [List.map_cons, filterDNSRewriteValues, filterDNSRewriteResponse_https_svcb, ih]
    rfl

theorem svcbs_of_filterDNSRewriteValues {i : ℕ} {values : List RRValue} {answer : List RR}
    (h : s.filterDNSRewriteValues req RRType.https i values = .ok answer) :
    ∃ svcbs : List DNSSVCB, values = svcbs.map .svcb := by
  induction values generalizing i answer with
  | nil => exact ⟨[], rfl⟩
  | cons v values ih =>
    obtain ⟨ans, rest, hans, hrest, -⟩ := filterDNSRewriteValues_cons h
    obtain ⟨svcb, rfl⟩ := svcb_of_filterDNSRewriteResponse hans
    obtain ⟨svcbs, rfl⟩ := ih hrest
    exact ⟨svcb :: svcbs, rfl⟩

/-- The records for an HTTPS question exist if all values are service bindings, and have their hints. -/
theorem filterDNSRewriteValues_https (values : List RRValue) :
    (∃ answer, s.filterDNSRewriteValues req RRType.https 0 values = .ok answer ∧ ∃ rr ∈ answer, rr.hinted = true) ↔
      s.LeaksValues values := by
  constructor
  · rintro ⟨answer, h, rr, hrr, hh⟩
    obtain ⟨svcbs, rfl⟩ := svcbs_of_filterDNSRewriteValues h
    cases (filterDNSRewriteValues_map svcbs 0).symm.trans h
    obtain ⟨svcb, hsvcb, rfl⟩ := List.mem_map.1 hrr
    exact ⟨svcbs, rfl, svcb, hsvcb, hh⟩
  · rintro ⟨svcbs, rfl, svcb, hsvcb, hh⟩
    exact ⟨_, filterDNSRewriteValues_map svcbs 0, _, List.mem_map_of_mem hsvcb, hh⟩

theorem filterDNSRewrite_hinted_iff (res : Result) :
    (∃ resp, s.filterDNSRewrite req res = .ok resp ∧ resp.Hinted) ↔ s.LeaksRewrite req res := by
  constructor
  · rintro ⟨resp, h, hh⟩
    unfold filterDNSRewrite at h
    split at h
    · cases h
    next dnsrr hdnsrr =>
      dsimp only at h
      split at h
      · cases h
        exact absurd hh (not_hinted_of_nil rfl)
      next hrcode =>
        split at h
        · cases h
        next response hresponse =>
          cases hv : s.filterDNSRewriteValues req req.question.qtype 0
              ((response.lookup req.question.qtype).getD []) with
          | error err => rw [hv] at h; cases h
          | ok answer =>
            rw [hv] at h
            cases h
            have hqtype : req.question.qtype = RRType.https := by
              by_contra hqtype
              obtain ⟨rr, hrr, hh⟩ := hh
              exact absurd hh (by simp [filterDNSRewriteValues_hinted hqtype hv rr hrr])
            rw [hqtype] at hv
            exact ⟨hqtype, dnsrr, response, hdnsrr, not_not.1 hrcode, hresponse,
              (filterDNSRewriteValues_https _).1 ⟨answer, hv, hh⟩⟩
  · rintro ⟨hqtype, dnsrr, response, hdnsrr, hrcode, hresponse, hvalues⟩
    obtain ⟨answer, hanswer, hh⟩ := (filterDNSRewriteValues_https _).2 hvalues
    refine ⟨{ replyCompressed req with rcode := dnsrr.rcode, answer := answer }, ?_, hh⟩
    unfold filterDNSRewrite
    rw [hdnsrr]
    dsimp only
    rw [if_neg (not_not.2 hrcode), hresponse, hqtype]
    dsimp only
    rw [hanswer]
    rfl

/-! ## The loop over an answer -/

section Scan

variable {setts : Settings}

theorem leaksScan_nil : ¬ s.LeaksScan req setts [] := by
  rintro ⟨before, rr, after, h, -⟩
  simp at h

theorem leaksScan_of_passes {a : RR} {answer : List RR} {r : Option Result} (h : s.checkRR setts (s.stripRR a) = .ok r)
    (hpass : (r.map Result.isFiltered).getD false = false) :
    s.LeaksScan req setts (a :: answer) ↔ s.LeaksScan req setts answer := by
  constructor
  · rintro ⟨before, rr, after, heq, hbefore, hrr⟩
    cases before with
    | nil =>
      cases heq
      rcases hrr with ⟨⟨err, herr⟩, -⟩ | ⟨res, hres, hf, -⟩
      · cases h.symm.trans herr
      · cases h.symm.trans hres
        simp [hf] at hpass
    | cons b before =>
      cases heq
      exact ⟨before, rr, after, rfl, fun b hb => hbefore b (List.mem_cons_of_mem _ hb), hrr⟩
  · rintro ⟨before, rr, after, rfl, hbefore, hrr⟩
    refine ⟨a :: before, rr, after, rfl, fun b hb => ?_, hrr⟩
    rcases List.mem_cons.1 hb with rfl | hb
    · exact ⟨r, h, hpass⟩
    · exact hbefore b hb

/-- At a record that fails or is blocked the loop ends. -/
theorem leaksScan_of_ends {a : RR} {answer : List RR}
    (h : ∀ r, s.checkRR setts (s.stripRR a) = .ok r → (r.map Result.isFiltered).getD false = true) :
    s.LeaksScan req setts (a :: answer) ↔
      ((∃ err, s.checkRR setts (s.stripRR a) = .error err) ∧ (∃ a ∈ answer, a.hinted = true) ∨
        ∃ res, s.checkRR setts (s.stripRR a) = .ok (some res) ∧ res.isFiltered = true ∧ s.LeaksBlocked req res) := by
  constructor
  · rintro ⟨before, rr, after, heq, hbefore, hrr⟩
    cases before with
    | nil =>
      cases heq
      exact hrr
    | cons b before =>
      cases heq
      obtain ⟨r, hr, hpass⟩ := hbefore a List.mem_cons_self
      exact Bool.noConfusion ((h r hr).symm.trans hpass)
  · intro hrr
    exact ⟨[], a, answer, rfl, nofun, hrr⟩

/-- What the loop says about the hints: after an error they are among the records that it has not come to. -/
theorem filterAnswer_leaks (hoff : s.aaaaDisabled = true) (i : ℕ) (answer : List RR) :
    match s.filterAnswer setts i answer with
    | (out, .error _) => (∃ rr ∈ out, rr.hinted = true) ↔ s.LeaksScan req setts answer
    | (out, .ok none) => (∀ rr ∈ out, rr.hinted = false) ∧ ¬ s.LeaksScan req setts answer
    | (_, .ok (some res)) => s.LeaksBlocked req res ↔ s.LeaksScan req setts answer := by
  induction answer generalizing i with
  | nil => exact ⟨by simp, leaksScan_nil⟩
  | cons a answer ih =>
    have hstrip := stripRR_hinted hoff a
    unfold filterAnswer
    dsimp only
    cases hcheck : s.checkRR setts (s.stripRR a) with
    | error err =>
      rw [leaksScan_of_ends (by rw [hcheck]; rintro _ ⟨⟩)]
      simp [hcheck, hstrip]
    | ok r =>
      dsimp only
      cases hf : (r.map Result.isFiltered).getD false with
      | true =>
        rw [if_pos rfl]
        cases r with
        | none => cases hf
        | some res =>
          rw [leaksScan_of_ends (by rw [hcheck]; rintro _ ⟨⟩; exact hf)]
          have hf : res.isFiltered = true := hf
          simp [hcheck, hf]
      | false =>
        rw [if_neg (by decide)]
        have hrest := ih (i + 1)
        have hscan : s.LeaksScan req setts (a :: answer) ↔ s.LeaksScan req setts answer :=
          leaksScan_of_passes hcheck hf
        rcases hout : s.filterAnswer setts (i + 1) answer with ⟨out, err | (_ | res)⟩
        · rw [hout] at hrest
          simpa [hstrip, hscan] using hrest
        · rw [hout] at hrest
          simpa [hstrip, hscan] using hrest
        · rw [hout] at hrest
          simpa [hscan] using hrest

end Scan

/-! ## The stages -/

/-- What `Leaks` says of the end of a run. -/
def Tells (s : Handler) (pctx : ProxyContext) (d : DnsContext) (o : Served) : Prop :=
  (o ≠ .panic ∧ ∃ m, d.res = some m ∧ m.Hinted) ↔ s.Leaks pctx

/-- The request has a response that is not from the upstreams of the client. -/
structure Replied (s : Handler) (pctx : ProxyContext) (d : DnsContext) : Prop where
  res : ∃ m, d.res = some m ∧ (m.Hinted ↔ s.Leaks pctx)
  orig : d.origQuestion.name = ""
  notFromUpstream : d.responseFromUpstream = false

/-- The context of a request that has come to the filtering. -/
def reached (s : Handler) (pctx : ProxyContext) : DnsContext :=
  { s.started pctx with isDHCPHost := decide (s.dhcpHostFromRequest pctx.req.question ≠ "") }

/-- The same with the result of `CheckHost`. -/
def kept (s : Handler) (pctx : ProxyContext) (res : Result) : DnsContext :=
  { s.reached pctx with setts := s.finalSetts pctx, checked := some res, result := res }

/-- The same with a canonical name in the request. -/
def renamed (s : Handler) (pctx : ProxyContext) (res : Result) : DnsContext :=
  { s.kept pctx res with origQuestion := pctx.req.question, req := s.renamedRequest pctx.req res }

theorem tells_of_not {d : DnsContext} {o : Served} (hres : ∀ m, d.res = some m → ¬ m.Hinted)
    (hleaks : ¬ s.Leaks pctx) : Tells s pctx d o :=
  iff_of_false (fun ⟨_, m, hm, hh⟩ => hres m hm hh) hleaks

theorem tells_of_answer {d : DnsContext} {o : Served} {m : Msg} (hm : d.res = some m) (hnil : m.answer = [])
    (hleaks : ¬ s.Leaks pctx) : Tells s pctx d o :=
  tells_of_not (fun m' hm' => by cases hm.symm.trans hm'; exact not_hinted_of_nil hnil) hleaks

theorem makeDDRResponse_hinted : ¬ (s.makeDDRResponse req).Hinted := by
  unfold makeDDRResponse
  dsimp only
  split
  · exact not_hinted_of_nil rfl
  · rintro ⟨rr, hrr, hh⟩
    simp only [List.mem_append, List.mem_map] at hrr
    rcases hrr with (⟨port, -, rfl⟩ | hrr) | ⟨port, -, rfl⟩
    · cases hh
    · split at hrr
      · obtain ⟨port, -, rfl⟩ := List.mem_map.1 hrr
        cases hh
      · cases hrr
    · cases hh

theorem processInitial_tells :
    Leads ends s.processInitial (fun d => d = { toProxyContext := pctx })
      (fun d => d = s.started pctx ∧ s.PassesInitial pctx) (Tells s pctx) := by
  rintro d rfl
  unfold processInitial
  dsimp only
  split
  next h => exact tells_of_answer rfl rfl fun hleaks => hleaks.1.ipv6 h
  next hipv6 =>
    split
    next h => exact tells_of_answer rfl rfl fun hleaks => hleaks.1.mozilla h
    next hmozilla =>
      split
      next h => exact tells_of_answer rfl rfl fun hleaks => hleaks.1.healthcheck h
      next hhealth => exact ⟨rfl, hipv6, hmozilla, hhealth⟩

theorem processDDRQuery_tells :
    Leads ends s.processDDRQuery (fun d => d = s.started pctx ∧ s.PassesInitial pctx)
      (fun d => d = s.started pctx ∧ s.PassesInitial pctx ∧
        ¬(s.handleDDR = true ∧ pctx.req.question.name = ddrHostFQDN)) (Tells s pctx) := by
  rintro d ⟨rfl, hinit⟩
  unfold processDDRQuery
  split
  next h =>
    refine tells_of_not ?_ fun hleaks => hleaks.1.ddr h
    rintro m ⟨⟩
    exact makeDDRResponse_hinted
  next hddr => exact ⟨rfl, hinit, hddr⟩

theorem dhcpHostAnswer_hinted {ip : Addr} {answer : List RR} (h : s.dhcpHostAnswer req ip = some answer) :
    ∀ rr ∈ answer, rr.hinted = false := by
  unfold dhcpHostAnswer at h
  split at h
  · cases h
    intro rr hrr
    obtain rfl := List.mem_singleton.1 hrr
    rfl
  · split at h
    · split at h
      · cases h
        nofun
      · obtain ⟨mapped, -, rfl⟩ := Option.map_eq_some_iff.1 h
        intro rr hrr
        obtain rfl := List.mem_singleton.1 hrr
        rfl
    · cases h
      nofun

theorem processDHCPHosts_tells :
    Leads ends s.processDHCPHosts
      (fun d => d = s.started pctx ∧ s.PassesInitial pctx ∧
        ¬(s.handleDDR = true ∧ pctx.req.question.name = ddrHostFQDN))
      (fun d => Replied s pctx d ∨ d = s.reached pctx ∧ s.PassesDHCPHosts pctx) (Tells s pctx) := by
  rintro d ⟨rfl, hinit, hddr⟩
  unfold processDHCPHosts
  dsimp only
  split
  next hnot =>
    refine Or.inr ⟨rfl, hinit, hddr, fun hhost => ?_⟩
    have hnot : s.dhcpHostFromRequest (s.started pctx).req.question = "" := by simpa using hnot
    exact absurd hnot hhost
  next hhost =>
    have hhost : s.dhcpHostFromRequest (s.started pctx).req.question ≠ "" := by simpa using hhost
    split
    next hprivate =>
      refine tells_of_answer rfl rfl fun hleaks => ?_
      have hprivate : (s.started pctx).isPrivateClient = false := by simpa using hprivate
      exact Bool.noConfusion (hprivate.symm.trans (hleaks.1.dhcpHost hhost).1)
    next hprivate =>
      have hprivate : (s.started pctx).isPrivateClient = true := by simpa using hprivate
      split
      next hlease => exact Or.inr ⟨rfl, hinit, hddr, fun _ => ⟨hprivate, hlease⟩⟩
      next hlease =>
        have hleaks : ¬ s.Leaks pctx := fun hleaks => hlease (hleaks.1.dhcpHost hhost).2
        split
        · exact tells_of_not nofun hleaks
        next answer hanswer =>
          refine Or.inl ⟨⟨_, rfl, iff_of_false ?_ hleaks⟩, rfl, rfl⟩
          rintro ⟨rr, hrr, hh⟩
          exact absurd hh (by simp [dhcpHostAnswer_hinted hanswer rr hrr])

theorem processDHCPAddrs_tells :
    Leads ends s.processDHCPAddrs (fun d => Replied s pctx d ∨ d = s.reached pctx ∧ s.PassesDHCPHosts pctx)
      (fun d => Replied s pctx d ∨ d = s.reached pctx ∧ s.Reaches pctx) (Tells s pctx) := by
  rintro d (h | ⟨rfl, h⟩)
  · obtain ⟨m, hm, -⟩ := h.res
    unfold processDHCPAddrs
    rw [if_pos (by rw [hm]; rfl)]
    exact Or.inl h
  · have hreaches : (∀ pref, pctx.requestedPrivateRDNS = some pref → pctx.req.question.qtype = RRType.ptr →
        s.hostByIP pref.addr = "") → s.Reaches pctx := fun hptr =>
      ⟨h, hptr⟩
    unfold processDHCPAddrs
    split
    next hres => cases hres
    · split
      next hpref => exact Or.inr ⟨rfl, hreaches fun pref hpref' => nomatch hpref.symm.trans hpref'⟩
      next pref hpref =>
        split
        next hqt => exact Or.inr ⟨rfl, hreaches fun _ _ hptr => absurd hptr hqt⟩
        next hqt =>
          dsimp only
          split
          next hhost =>
            refine Or.inr ⟨rfl, hreaches fun pref' hpref' _ => ?_⟩
            cases hpref.symm.trans hpref'
            exact hhost
          next hhost =>
            refine Or.inl ⟨⟨_, rfl, iff_of_false ?_ fun hleaks => ?_⟩, rfl, rfl⟩
            · rintro ⟨rr, hrr, hh⟩
              obtain rfl := List.mem_singleton.1 hrr
              cases hh
            · exact hhost (hleaks.1.dhcpAddr pref hpref (not_not.1 hqt))

theorem leaks_iff {res : Result} (h : s.Reaches pctx)
    (hcheck : s.checkHost (trimDot pctx.req.question.name) pctx.req.question.qtype (s.finalSetts pctx) = .ok res) :
    s.Leaks pctx ↔ s.LeaksResult pctx res := by
  refine ⟨?_, fun hres => ⟨h, res, hcheck, hres⟩⟩
  rintro ⟨-, res', hcheck', hres⟩
  cases hcheck.symm.trans hcheck'
  exact hres

/-- The hints that are left of an answer of the upstreams. -/
def LeaksPassed (s : Handler) (pctx : ProxyContext) (res : Result) (m : Msg) : Prop :=
  if isRewrittenCNAME res = true then (pctx.req.question.name = "" ∨ m.question ≠ []) ∧ m.Hinted
  else if res.reason = .notFilteredAllowList then m.Hinted
  else s.LeaksAnswer pctx m

/-- A context with a result that does not answer the request. -/
structure Routed (s : Handler) (pctx : ProxyContext) (d : DnsContext) : Prop where
  renamed : isRewrittenCNAME d.result = true → d.origQuestion = pctx.req.question
  kept : isRewrittenCNAME d.result = false → d.req = pctx.req ∧ (d.result.reason = .notFilteredAllowList ∨ ¬ Unchecked d.result)
  setts : d.setts = s.finalSetts pctx
  protection : d.protectionEnabled = s.protectionEnabled

/-- The context of a request for the upstreams. -/
structure Asking (s : Handler) (pctx : ProxyContext) (d : DnsContext) : Prop extends Routed s pctx d where
  res : d.res = none
  dhcpHost : d.isDHCPHost = decide (s.dhcpHostFromRequest pctx.req.question ≠ "")
  addr : d.addr = (s.started pctx).addr
  clientID : d.clientID = (s.started pctx).clientID
  noCustom : d.customUpstreamConfig = none
  leaks : s.Leaks pctx ↔ ∃ m, s.upstreamAnswer pctx d.req = some m ∧ s.LeaksPassed pctx d.result m

/-- The context with the answer of the upstreams. -/
structure Fetched (s : Handler) (pctx : ProxyContext) (d : DnsContext) : Prop extends Routed s pctx d where
  fetched : ∃ m, d.res = some m ∧ (s.Leaks pctx ↔ s.LeaksPassed pctx d.result m)
  fromUpstream : d.responseFromUpstream = true

theorem asking_renamed {res : Result} (hcname : isRewrittenCNAME res = true)
    (hleaks : s.Leaks pctx ↔ s.LeaksResult pctx res) : Asking s pctx (s.renamed pctx res) := by
  rw [LeaksResult, if_pos hcname] at hleaks
  refine ⟨⟨fun _ => rfl, fun h => Bool.noConfusion (hcname.symm.trans h), rfl, rfl⟩, rfl, rfl, rfl, rfl, rfl, ?_⟩
  have hpassed : ∀ m, s.LeaksPassed pctx res m ↔ (pctx.req.question.name = "" ∨ m.question ≠ []) ∧ m.Hinted := by
    intro m
    rw [LeaksPassed, if_pos hcname]
  have hresult : (s.renamed pctx res).result = res := rfl
  simp only [hresult, hpassed]
  exact hleaks

theorem asking_kept {res : Result} (hcname : isRewrittenCNAME res = false) (hf : ¬ res.isFiltered = true)
    (hleaks : s.Leaks pctx ↔ s.LeaksResult pctx res)
    (hreason : res.reason ≠ .filteredSafeSearch ∧ res.reason ≠ .rewritten ∧ res.reason ≠ .rewrittenAutoHosts ∧
      res.reason ≠ .rewrittenRule) : Asking s pctx (s.kept pctx res) := by
  obtain ⟨h₁, h₂, h₃, h₄⟩ := hreason
  rw [LeaksResult, if_neg (by simp [hcname]), if_neg hf] at hleaks
  have hunchecked : res.reason = .notFilteredAllowList ∨ ¬ Unchecked res := by
    unfold Unchecked
    tauto
  refine ⟨⟨fun h => Bool.noConfusion (hcname.symm.trans h), fun _ => ⟨rfl, hunchecked⟩, rfl, rfl⟩, rfl, rfl, rfl, rfl,
    rfl, ?_⟩
  have hpassed : ∀ m, s.LeaksPassed pctx res m ↔
      if res.reason = .notFilteredAllowList then m.Hinted else s.LeaksAnswer pctx m := by
    intro m
    rw [LeaksPassed, if_neg (by simp [hcname])]
  have hresult : (s.kept pctx res).result = res := rfl
  simp only [hresult, hpassed]
  split at hleaks
  next h => exact absurd h h₁
  next h => exact absurd h h₂
  next h => exact absurd h h₃
  next h => exact absurd h h₄
  next h =>
    simp only [if_pos h]
    exact hleaks
  next h =>
    simp only [if_neg h]
    exact hleaks

/-- What `Leaks` says after `filterDNSRequest`. -/
def TellsFiltered (s : Handler) (pctx : ProxyContext) : DnsContext × Except String Result → Prop
  | (d, .error _) => d.res = none ∧ ¬ s.Leaks pctx
  | (d, .ok res) => Replied s pctx { d with result := res } ∨ Asking s pctx { d with result := res }

/-- A request that a rewrite rule answers. -/
theorem filterDNSRewrite_tells {d : DnsContext} {res : Result} (hd : d = { s.kept pctx res with result := {} })
    (hleaks : s.Leaks pctx ↔ s.LeaksRewrite pctx.req res) :
    TellsFiltered s pctx
      (match s.filterDNSRewrite d.req res with
        | .error err => (d, .error err)
        | .ok resp => ({ d with res := some resp }, .ok res)) := by
  subst hd
  have hiff := @filterDNSRewrite_hinted_iff s pctx.req res
  split
  next err hresp =>
    refine ⟨rfl, fun h => ?_⟩
    obtain ⟨resp, hresp', -⟩ := hiff.2 (hleaks.1 h)
    cases hresp.symm.trans hresp'
  next resp hresp =>
    refine Or.inl ⟨⟨resp, rfl, fun hh => hleaks.2 (hiff.1 ⟨resp, hresp, hh⟩), fun h => ?_⟩, rfl, rfl⟩
    obtain ⟨resp', hresp', hh⟩ := hiff.2 (hleaks.1 h)
    cases hresp.symm.trans hresp'
    exact hh

theorem filterDNSResult_tells {d : DnsContext} {res : Result} (hd : d = { s.kept pctx res with result := {} })
    (hleaks : s.Leaks pctx ↔ s.LeaksResult pctx res) : TellsFiltered s pctx (s.filterDNSResult d res) := by
  cases hcname : isRewrittenCNAME res with
  | true =>
    subst hd
    rw [filterDNSResult_renamed hcname]
    exact Or.inr (asking_renamed hcname hleaks)
  | false =>
    have hiff := hleaks
    rw [LeaksResult, if_neg (by simp [hcname])] at hleaks
    unfold filterDNSResult
    dsimp only
    rw [if_neg (by simp [hcname])]
    by_cases hf : res.isFiltered = true
    · rw [if_pos hf] at hleaks ⊢
      subst hd
      exact Or.inl ⟨⟨_, rfl, (genDNSFilterMessage_hinted_iff res).trans hleaks.symm⟩, rfl, rfl⟩
    · rw [if_neg hf] at hleaks ⊢
      split
      next hreason =>
        subst hd
        refine Or.inl ⟨⟨_, rfl, iff_of_false (getCNAMEWithIPs_hinted _ _) ?_⟩, rfl, rfl⟩
        simpa [hreason] using hleaks
      next hreason =>
        subst hd
        refine Or.inl ⟨⟨_, rfl, iff_of_false (getCNAMEWithIPs_hinted _ _) ?_⟩, rfl, rfl⟩
        simpa [hreason] using hleaks
      next hreason =>
        rw [hreason] at hleaks
        exact filterDNSRewrite_tells hd hleaks
      next hreason =>
        rw [hreason] at hleaks
        exact filterDNSRewrite_tells hd hleaks
      next h₁ h₂ h₃ h₄ =>
        subst hd
        exact Or.inr (asking_kept hcname hf hiff ⟨h₁, h₂, h₃, h₄⟩)

theorem processFilteringBeforeRequest_tells :
    Leads ends s.processFilteringBeforeRequest (fun d => Replied s pctx d ∨ d = s.reached pctx ∧ s.Reaches pctx)
      (fun d => Replied s pctx d ∨ Asking s pctx d) (Tells s pctx) := by
  rintro d (h | ⟨rfl, h⟩)
  · obtain ⟨m, hm, hh⟩ := h.res
    unfold processFilteringBeforeRequest
    dsimp only
    rw [if_pos (by rw [hm]; rfl)]
    exact Or.inl ⟨⟨m, hm, hh⟩, h.orig, h.notFromUpstream⟩
  · unfold processFilteringBeforeRequest
    dsimp only
    rw [if_neg (by exact Bool.false_ne_true)]
    unfold filterDNSRequest
    dsimp only
    cases hcheck : s.checkHost (trimDot (s.reached pctx).req.question.name) (s.reached pctx).req.question.qtype
        (settsFor (s.reached pctx)) with
    | error err =>
      refine tells_of_not nofun ?_
      rintro ⟨-, res, hcheck', -⟩
      cases hcheck.symm.trans hcheck'
    | ok res =>
      have htells : TellsFiltered s pctx
          (s.filterDNSResult { s.reached pctx with setts := settsFor (s.reached pctx), checked := some res } res) :=
        filterDNSResult_tells rfl (leaks_iff h hcheck)
      dsimp only
      split
      next d err heq =>
        rw [heq] at htells
        refine tells_of_not (fun m hm => ?_) htells.2
        cases htells.1.symm.trans hm
      next d res' heq =>
        rw [heq] at htells
        exact htells

/-- The upstreams of the client are found by the address and the ClientID, which the stages keep. -/
theorem Asking.setCustomUpstream {d : DnsContext} (h : Asking s pctx d) :
    s.setCustomUpstream d =
      { d with customUpstreamConfig := (s.setCustomUpstream (s.started pctx)).customUpstreamConfig } := by
  have hsame : ∀ d' : DnsContext, s.setCustomUpstream d' =
      { d' with customUpstreamConfig := (s.setCustomUpstream d').customUpstreamConfig } := by
    intro d'
    unfold Handler.setCustomUpstream
    split
    · rfl
    · split <;> rfl
  have hcfg : (s.setCustomUpstream d).customUpstreamConfig =
      (s.setCustomUpstream (s.started pctx)).customUpstreamConfig := by
    unfold Handler.setCustomUpstream
    rw [h.addr, h.clientID]
    split
    · exact h.noCustom
    · split
      · exact h.noCustom
      · rfl
  rw [hsame, hcfg]

theorem processUpstream_tells :
    Leads ends s.processUpstream (fun d => Replied s pctx d ∨ Asking s pctx d)
      (fun d => Replied s pctx d ∨ Fetched s pctx d) (Tells s pctx) := by
  rintro d (h | h)
  · obtain ⟨m, hm, -⟩ := h.res
    unfold processUpstream
    rw [if_pos (by rw [hm]; rfl)]
    exact Or.inl h
  · have hnone : s.upstreamAnswer pctx d.req = none → ¬ s.Leaks pctx := by
      intro hnone hleaks
      obtain ⟨m, hm, -⟩ := h.leaks.1 hleaks
      cases hnone.symm.trans hm
    have hdhcp := h.dhcpHost
    unfold upstreamAnswer at hnone
    unfold processUpstream
    rw [if_neg (by simp [h.res]), hdhcp]
    split
    next hhost =>
      refine tells_of_answer rfl rfl (hnone ?_)
      rw [if_pos (by simpa using hhost)]
    next hhost =>
      have hhost : ¬ s.dhcpHostFromRequest pctx.req.question ≠ "" := by simpa using hhost
      rw [if_neg hhost] at hnone
      rw [h.setCustomUpstream]
      dsimp only
      split
      next hproxy =>
        refine tells_of_not (fun m hm => ?_) (hnone (by rw [hproxy]))
        cases h.res.symm.trans hm
      next resolve hproxy =>
        rw [hproxy] at hnone
        dsimp only at hnone
        split
        next err hres =>
          refine tells_of_not (fun m hm => ?_) (hnone (by rw [hres]))
          cases h.res.symm.trans hm
        next hres =>
          refine tells_of_not (fun m hm => ?_) (hnone (by rw [hres]))
          cases h.res.symm.trans hm
        next m hres =>
          have hanswer : s.upstreamAnswer pctx d.req = some m := by
            unfold upstreamAnswer
            rw [if_neg hhost, hproxy]
            dsimp only
            rw [hres]
          refine Or.inr ⟨⟨h.renamed, h.kept, h.setts, h.protection⟩, ⟨m, rfl, h.leaks.trans ?_⟩, rfl⟩
          rw [hanswer]
          simp

theorem tells_of_res {d : DnsContext} {o : Served} {m : Msg} (ho : o ≠ .panic) (hm : d.res = some m)
    (hleaks : m.Hinted ↔ s.Leaks pctx) : Tells s pctx d o := by
  refine Iff.trans ⟨?_, fun hh => ⟨ho, m, hm, hh⟩⟩ hleaks
  rintro ⟨-, m', hm', hh⟩
  cases hm.symm.trans hm'
  exact hh

theorem tells_compressed {d : DnsContext} {m : Msg} (hm : d.res = some m) (hleaks : m.Hinted ↔ s.Leaks pctx) :
    Tells s pctx (compressed d).1 .nil := by
  refine tells_of_res (m := { m with compress := true }) nofun ?_ hleaks
  dsimp only [compressed]
  rw [hm]
  rfl

theorem Replied.afterResponse {d : DnsContext} (h : Replied s pctx d) :
    Post ends (fun d => Tells s pctx (compressed d).1 .nil) (Tells s pctx) (s.processFilteringAfterResponse d) := by
  obtain ⟨m, hm, hleaks⟩ := h.res
  have hsame : s.processFilteringAfterResponse d = (d, .success) := by
    unfold processFilteringAfterResponse filterAfterResponse
    rw [if_pos h.orig, h.notFromUpstream]
    split
    · rfl
    · rfl
    · rfl
    · rfl
    · exact if_pos (Or.inr (by rfl))
  rw [hsame]
  exact tells_compressed hm hleaks

/-- The CNAME record that is put before the answer is no hint. -/
theorem restoreQuestion_tells {d : DnsContext} {m : Msg} (hm : d.res = some m)
    (hleaks : s.Leaks pctx ↔ m.question ≠ [] ∧ m.Hinted) :
    Post ends (fun d => Tells s pctx (compressed d).1 .nil) (Tells s pctx) (s.restoreQuestion d) := by
  unfold restoreQuestion
  rw [hm]
  dsimp only
  split
  next hquestion =>
    refine iff_of_false (fun h => h.1 rfl) fun h => ?_
    exact (hleaks.1 h).1 hquestion
  next q qs hquestion =>
    refine tells_compressed rfl (Iff.trans ?_ hleaks.symm)
    unfold Msg.Hinted
    simp [hquestion, genAnswerCNAME, rr, RR.hinted]

theorem filterAfterResponse_tells {d : DnsContext} {m : Msg} (hoff : s.aaaaDisabled = true) (hreq : d.req = pctx.req)
    (hsetts : d.setts = s.finalSetts pctx) (hprot : d.protectionEnabled = s.protectionEnabled)
    (hfrom : d.responseFromUpstream = true) (hm : d.res = some m) (hleaks : s.Leaks pctx ↔ s.LeaksAnswer pctx m) :
    Post ends (fun d => Tells s pctx (compressed d).1 .nil) (Tells s pctx) (s.filterAfterResponse d) := by
  unfold LeaksAnswer at hleaks
  unfold filterAfterResponse
  rw [hprot, hfrom, hm]
  by_cases hp : s.protectionEnabled = true
  · rw [if_neg (by simp [hp])]
    dsimp only
    unfold filterDNSResponse
    rw [hsetts]
    by_cases hf : (s.finalSetts pctx).filteringEnabled = true
    · rw [if_pos ⟨hp, hf⟩] at hleaks
      rw [if_neg (by simp [hf])]
      have hscan := @filterAnswer_leaks s pctx.req (s.finalSetts pctx) hoff 0 m.answer
      dsimp only
      rcases hout : s.filterAnswer (s.finalSetts pctx) 0 m.answer with ⟨out, err | (_ | res)⟩
      · rw [hout] at hscan
        exact tells_of_res nofun rfl (Iff.trans hscan hleaks.symm)
      · rw [hout] at hscan
        refine tells_compressed rfl (iff_of_false ?_ (fun h => hscan.2 (hleaks.1 h)))
        rintro ⟨rr, hrr, hh⟩
        exact Bool.noConfusion ((hscan.1 rr hrr).symm.trans hh)
      · rw [hout] at hscan
        refine tells_compressed rfl (Iff.trans ?_ hleaks.symm)
        rw [hreq]
        exact (genDNSFilterMessage_hinted_iff res).trans hscan
    · rw [if_neg (by simp [hf])] at hleaks
      rw [if_pos (by simpa using hf)]
      exact tells_compressed hm hleaks.symm
  · rw [if_neg (by simp [hp])] at hleaks
    rw [if_pos (by simp [hp])]
    exact tells_compressed hm hleaks.symm

theorem Fetched.afterResponse {d : DnsContext} (hoff : s.aaaaDisabled = true) (h : Fetched s pctx d) :
    Post ends (fun d => Tells s pctx (compressed d).1 .nil) (Tells s pctx) (s.processFilteringAfterResponse d) := by
  obtain ⟨m, hm, hleaks⟩ := h.fetched
  unfold LeaksPassed at hleaks
  cases hcname : isRewrittenCNAME d.result with
  | true =>
    rw [if_pos hcname] at hleaks
    have hrestore : Post ends (fun d => Tells s pctx (compressed d).1 .nil) (Tells s pctx)
        (if d.origQuestion.name = "" then (d, .success) else s.restoreQuestion d) := by
      rw [h.renamed hcname]
      split
      next hname => exact tells_compressed hm (by simp [hleaks, hname])
      next hname => exact restoreQuestion_tells hm (by simp [hleaks, hname])
    have hreason := hcname
    unfold isRewrittenCNAME at hreason
    unfold processFilteringAfterResponse
    split
    next heq => simp [heq] at hreason
    · exact hrestore
    · exact hrestore
    · exact hrestore
    next h₁ h₂ h₃ h₄ =>
      split at hreason
      next heq => exact absurd heq h₄
      next heq => exact absurd heq h₂
      next heq => exact absurd heq h₃
      · cases hreason
  | false =>
    rw [if_neg (by simp [hcname])] at hleaks
    obtain ⟨hreq, hreason⟩ := h.kept hcname
    by_cases hallow : d.result.reason = .notFilteredAllowList
    · rw [if_pos hallow] at hleaks
      unfold processFilteringAfterResponse
      rw [hallow]
      exact tells_compressed hm hleaks.symm
    · rw [if_neg hallow] at hleaks
      rw [processFilteringAfterResponse_of_checked (hreason.resolve_left hallow)]
      exact filterAfterResponse_tells hoff hreq h.setts h.protection h.fromUpstream hm hleaks

theorem processFilteringAfterResponse_tells (hoff : s.aaaaDisabled = true) :
    Leads ends s.processFilteringAfterResponse (fun d => Replied s pctx d ∨ Fetched s pctx d)
      (fun d => Tells s pctx (compressed d).1 .nil) (Tells s pctx) := by
  rintro d (h | h)
  · exact h.afterResponse
  · exact h.afterResponse hoff

theorem serveDNS_tells (hoff : s.aaaaDisabled = true) : Tells s pctx (s.serveDNS pctx).1 (s.serveDNS pctx).2 := by
  have hends : Ends ends compressed s.mods (fun d => d = { toProxyContext := pctx }) (Tells s pctx) :=
    Ends.cons processInitial_tells (Ends.cons processDDRQuery_tells (Ends.cons processDHCPHosts_tells
      (Ends.cons processDHCPAddrs_tells (Ends.cons processFilteringBeforeRequest_tells (Ends.cons processUpstream_tells
      (Ends.cons (processFilteringAfterResponse_tells hoff) (Ends.nil fun _ h => h)))))))
  exact hends _ rfl

/-- A question of type AAAA gets no data from the first stage. -/
theorem serveDNS_aaaa (hoff : s.aaaaDisabled = true) (hqtype : pctx.req.question.qtype = RRType.aaaa) :
    s.serveDNS pctx = ({ toProxyContext := pctx, res := some (s.newMsgNODATA pctx.req) }, .nil) := by
  have hfirst : s.processInitial { toProxyContext := pctx } =
      ({ toProxyContext := pctx, res := some (s.newMsgNODATA pctx.req) }, .finish) := by
    unfold processInitial
    dsimp only
    rw [if_pos ⟨hoff, hqtype⟩]
  unfold serveDNS mods
  rw [run_cons_stop (o := .nil) (by rw [hfirst]; rfl), hfirst]

/-- **IPv6 is off but for these requests.**  With IPv6 disabled, no response has an address for a question of type
AAAA, and a response has an IPv6 hint if and only if `Leaks` says so. -/
theorem ipv6Off_iff (hoff : s.aaaaDisabled = true) : s.IPv6Off pctx ↔ ¬ s.Leaks pctx := by
  have htells := @serveDNS_tells s pctx hoff
  constructor
  · intro h hleaks
    obtain ⟨hpanic, m, hm, hh⟩ := htells.2 hleaks
    exact (h m ⟨hpanic, hm⟩).2 hh
  · rintro h m ⟨hpanic, hm⟩
    refine ⟨fun hqtype rr hrr => ?_, fun hh => h (htells.1 ⟨hpanic, m, hm, hh⟩)⟩
    rw [serveDNS_aaaa hoff hqtype] at hm
    cases hm
    cases hrr

end Handler

/-- A server with IPv6 disabled, whose upstreams answer with an IPv6 hint. -/
def noIPv6 (protectionEnabled : Bool) : Handler :=
  { lanHandler with
    aaaaDisabled := true
    protectionEnabled := protectionEnabled
    ipString := fun _ => "2001:db8::1"
    proxy := some fun req _ => .ok (some (hintedAnswer req.question)) }

/-- With protection and filtering enabled the hint is dropped. -/
theorem noIPv6_ipv6Off : (noIPv6 true).IPv6Off httpsRequest := by
  refine (Handler.ipv6Off_iff rfl).2 ?_
  rintro ⟨-, res, hcheck, hres⟩
  cases hcheck
  obtain ⟨m, hm, hscan⟩ : ∃ m, (noIPv6 true).upstreamAnswer httpsRequest httpsRequest.req = some m ∧
      (noIPv6 true).LeaksAnswer httpsRequest m := hres
  cases hm
  have hpasses := (Handler.leaksScan_of_passes (r := none) (by rfl) rfl).1 hscan
  exact Handler.leaksScan_nil hpasses

/-- With protection disabled it is passed on. -/
theorem noIPv6_not_ipv6Off : (noIPv6 false).aaaaDisabled = true ∧ ¬ (noIPv6 false).IPv6Off httpsRequest := by
  refine ⟨rfl, fun h => ?_⟩
  refine (h _ ⟨by decide, rfl⟩).2 ?_
  exact ⟨_, List.mem_singleton_self _, by decide⟩

end AdGuardHome.Dnsforward
