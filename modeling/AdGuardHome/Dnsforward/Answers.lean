import AdGuardHome.Dnsforward.Process

/-!
# Questions of the responses

A rewrite to a canonical name without addresses puts that name into the request, and the question of the client is put
back after the response.  A request for a host of the DHCP server without a lease is answered before that, so it is the
one kind of request that can get a response with another question than its own.
-/

namespace AdGuardHome.Dnsforward

open AdGuardHome.Net AdGuardHome.Filtering AdGuardHome.Aghnet AdGuardHome.Lib.Stages

namespace Handler

variable (s : Handler) (pctx : ProxyContext)

/-- The answers of the upstreams carry the question that they were asked. -/
def CarriesQuestion : Prop :=
  ∀ resolve ∈ s.proxy, ∀ req ups resp, resolve req ups = .ok (some resp) → resp.question = [req.question]

/-- If `ServeDNS` returns nil with a response, the response and the request have the question of the client. -/
def Answers : Prop :=
  (s.serveDNS pctx).2 = .nil → ∀ m ∈ (s.serveDNS pctx).1.res,
    m.question = [pctx.req.question] ∧ (s.serveDNS pctx).1.req.question = pctx.req.question

/-- The context after `processInitial`. -/
def started : DnsContext :=
  let dctx : DnsContext :=
    { toProxyContext := pctx, clientID := pctx.ctxClientID.getD "", protectionEnabled := s.protectionEnabled }
  { dctx with setts := s.clientRequestFilteringSettings dctx }

/-- The stages up to the filtering do not answer the request, which is for a host of the DHCP server. -/
structure MissesLease : Prop where
  ipv6 : ¬(s.aaaaDisabled = true ∧ pctx.req.question.qtype = RRType.aaaa)
  mozilla : pctx.req.question.name ≠ mozillaFQDN
  healthcheck : pctx.req.question.name ≠ healthcheckFQDN
  ddr : ¬(s.handleDDR = true ∧ pctx.req.question.name = ddrHostFQDN)
  dhcpHost : s.dhcpHostFromRequest pctx.req.question ≠ ""
  isPrivateClient : pctx.isPrivateClient = true
  noLease : s.ipByHost (s.dhcpHostFromRequest pctx.req.question) = .invalid

/-- Such a request is rewritten to another name and no addresses. -/
structure RenamesDHCPHost : Prop extends s.MissesLease pctx where
  renamed : ∃ res, s.checkHost (trimDot pctx.req.question.name) pctx.req.question.qtype (settsFor (s.started pctx)) =
    .ok res ∧ isRewrittenCNAME res = true ∧ s.fqdn res.canonName ≠ pctx.req.question.name

/-! ## The stages -/

variable {s pctx}

theorem dhcpHostFromRequest_qtype {q : Question} (h : s.dhcpHostFromRequest q ≠ "") :
    q.qtype = RRType.a ∨ q.qtype = RRType.aaaa := by
  by_contra hq
  refine h ?_
  unfold dhcpHostFromRequest
  split
  · rfl
  · exact if_pos (not_or.mp hq)

/-- The request has the question of the client, and a response too. -/
structure Asked (pctx : ProxyContext) (d : DnsContext) : Prop where
  req : d.req.question = pctx.req.question
  res : ∀ m ∈ d.res, m.question = [pctx.req.question]

/-- The question was not changed. -/
structure Clean (pctx : ProxyContext) (d : DnsContext) : Prop extends Asked pctx d where
  orig : d.origQuestion.name = ""

/-- A context before the filtering. -/
structure Unfiltered (s : Handler) (pctx : ProxyContext) (d : DnsContext) : Prop where
  ctx : d.toProxyContext = pctx
  setts : d.setts = (s.started pctx).setts
  res : ∀ m ∈ d.res, m.question = [pctx.req.question]
  orig : d.origQuestion.name = ""
  misses : d.isDHCPHost = true → d.res = none → s.MissesLease pctx

/-- The question of the client is kept apart, and the request has the canonical name. -/
structure Renamed (s : Handler) (pctx : ProxyContext) (d : DnsContext) : Prop where
  orig : d.origQuestion = pctx.req.question
  result : isRewrittenCNAME d.result = true
  res : d.res = none
  dhcpHost : d.isDHCPHost = true → s.RenamesDHCPHost pctx ∨ d.req.question = pctx.req.question

/-- The renamed request has an answer. -/
structure Resolved (pctx : ProxyContext) (d : DnsContext) : Prop where
  orig : d.origQuestion = pctx.req.question
  result : isRewrittenCNAME d.result = true
  res : ∃ m, d.res = some m ∧ m.question = [d.req.question]

/-- What `Answers` asks of the end of a run. -/
def Good (pctx : ProxyContext) (d : DnsContext) (o : Served) : Prop :=
  o = .nil → ∀ m ∈ d.res, m.question = [pctx.req.question] ∧ d.req.question = pctx.req.question

theorem good_of_ne {d : DnsContext} {o : Served} (h : o ≠ .nil) : Good pctx d o := fun h' => absurd h' h

theorem good_of_questions {d : DnsContext} (hres : ∀ m ∈ d.res, m.question = [pctx.req.question])
    (hreq : d.req.question = pctx.req.question) : Good pctx d .nil := fun _ m hm => ⟨hres m hm, hreq⟩

theorem processInitial_leads :
    Leads ends s.processInitial (fun d => d = { toProxyContext := pctx })
      (fun d => d = s.started pctx ∧ ¬(s.aaaaDisabled = true ∧ pctx.req.question.qtype = RRType.aaaa) ∧
        ¬((pctx.req.question.qtype = RRType.a ∨ pctx.req.question.qtype = RRType.aaaa) ∧
          pctx.req.question.name = mozillaFQDN) ∧ pctx.req.question.name ≠ healthcheckFQDN)
      (Good pctx) := by
  rintro d rfl
  unfold processInitial
  dsimp only
  split
  · exact good_of_questions (by rintro _ ⟨⟩; rfl) rfl
  · split
    · exact good_of_questions (by rintro _ ⟨⟩; rfl) rfl
    · split
      · exact good_of_questions (by rintro _ ⟨⟩; rfl) rfl
      · rename_i hipv6 hmozilla hhealth
        exact ⟨rfl, hipv6, hmozilla, hhealth⟩

theorem processDDRQuery_leads {P : Prop} :
    Leads ends s.processDDRQuery (fun d => d = s.started pctx ∧ P)
      (fun d => d = s.started pctx ∧ P ∧ ¬(s.handleDDR = true ∧ pctx.req.question.name = ddrHostFQDN))
      (Good pctx) := by
  rintro d ⟨rfl, hP⟩
  unfold processDDRQuery
  split
  · exact good_of_questions (by rintro _ ⟨⟩; exact s.makeDDRResponse_question _) rfl
  · rename_i hddr
    exact ⟨rfl, hP, hddr⟩

theorem processDHCPHosts_leads :
    Leads ends s.processDHCPHosts
      (fun d => d = s.started pctx ∧ (¬(s.aaaaDisabled = true ∧ pctx.req.question.qtype = RRType.aaaa) ∧
        ¬((pctx.req.question.qtype = RRType.a ∨ pctx.req.question.qtype = RRType.aaaa) ∧
          pctx.req.question.name = mozillaFQDN) ∧ pctx.req.question.name ≠ healthcheckFQDN) ∧
        ¬(s.handleDDR = true ∧ pctx.req.question.name = ddrHostFQDN))
      (Unfiltered s pctx) (Good pctx) := by
  rintro d ⟨rfl, ⟨hipv6, hmozilla, hhealth⟩, hddr⟩
  unfold processDHCPHosts
  dsimp only
  split
  · rename_i hnot
    refine ⟨rfl, rfl, nofun, rfl, fun hhost _ => ?_⟩
    exact absurd hhost (by simpa using hnot)
  · rename_i hhost
    have hhost : s.dhcpHostFromRequest (s.started pctx).req.question ≠ "" := by simpa using hhost
    split
    · exact good_of_questions (by rintro _ ⟨⟩; rfl) rfl
    · rename_i hprivate
      split
      · rename_i hlease
        have hprivate : (s.started pctx).isPrivateClient = true := by simpa using hprivate
        have hname : pctx.req.question.name ≠ mozillaFQDN := fun hname =>
          hmozilla ⟨dhcpHostFromRequest_qtype hhost, hname⟩
        exact ⟨rfl, rfl, nofun, rfl, fun _ _ => ⟨hipv6, hname, hhealth, hddr, hhost, hprivate, hlease⟩⟩
      · split
        · exact good_of_ne (by decide)
        · refine ⟨rfl, rfl, ?_, rfl, fun _ hnone => nomatch hnone⟩
          rintro m ⟨⟩
          rfl

theorem processDHCPAddrs_leads : Leads ends s.processDHCPAddrs (Unfiltered s pctx) (Unfiltered s pctx) (Good pctx) := by
  intro d h
  unfold processDHCPAddrs
  split
  · exact h
  · split
    · exact h
    · split
      · exact h
      · dsimp only
        split
        · exact h
        · refine ⟨h.ctx, h.setts, ?_, h.orig, fun _ hnone => nomatch hnone⟩
          rintro m ⟨⟩
          change [d.req.question] = _
          rw [h.ctx]

theorem filterDNSResult_clean {d : DnsContext} {res : Result} (h : Clean pctx d)
    (hcname : isRewrittenCNAME res = false) : Clean pctx (s.filterDNSResult d res).1 := by
  have hset : ∀ m : Msg, m.question = [d.req.question] → ∀ m' ∈ some m, m'.question = [pctx.req.question] := by
    rintro m hm _ ⟨⟩
    rw [hm, h.req]
  unfold filterDNSResult
  dsimp only
  rw [hcname]
  simp only [Bool.false_eq_true, if_false]
  split
  · exact ⟨⟨h.req, hset _ (s.genDNSFilterMessage_question ..)⟩, h.orig⟩
  · split
    · exact ⟨⟨h.req, hset _ (s.getCNAMEWithIPs_question ..)⟩, h.orig⟩
    · exact ⟨⟨h.req, hset _ (s.getCNAMEWithIPs_question ..)⟩, h.orig⟩
    · split
      · exact h
      · rename_i hrewrite
        exact ⟨⟨h.req, hset _ (s.filterDNSRewrite_question _ hrewrite)⟩, h.orig⟩
    · split
      · exact h
      · rename_i hrewrite
        exact ⟨⟨h.req, hset _ (s.filterDNSRewrite_question _ hrewrite)⟩, h.orig⟩
    · exact h

theorem Unfiltered.clean {d : DnsContext} (h : Unfiltered s pctx d) : Clean pctx d := by
  refine ⟨⟨?_, h.res⟩, h.orig⟩
  rw [h.ctx]

theorem settsFor_eq {d : DnsContext} (h : Unfiltered s pctx d) : settsFor d = settsFor (s.started pctx) := by
  unfold settsFor
  rw [h.setts, h.ctx]
  rfl

theorem filterDNSResult_renamed {d : DnsContext} {res : Result} (hcname : isRewrittenCNAME res = true) :
    s.filterDNSResult d res =
      ({ d with
        origQuestion := d.req.question
        req := { d.req with question := { d.req.question with name := s.fqdn res.canonName } } }, .ok res) := by
  unfold filterDNSResult
  dsimp only
  rw [hcname]
  rfl

theorem processFilteringBeforeRequest_leads :
    Leads ends s.processFilteringBeforeRequest (Unfiltered s pctx) (fun d => Clean pctx d ∨ Renamed s pctx d)
      (Good pctx) := by
  intro d h
  have hclean := h.clean
  unfold processFilteringBeforeRequest
  dsimp only
  split
  · exact Or.inl ⟨⟨hclean.req, hclean.res⟩, hclean.orig⟩
  · rename_i hres
    have hnone : d.res = none := by simpa using hres
    unfold filterDNSRequest
    dsimp only
    cases hcheck : s.checkHost (trimDot d.req.question.name) d.req.question.qtype (settsFor d) with
    | error err => exact good_of_ne nofun
    | ok res =>
      dsimp only
      cases hcname : isRewrittenCNAME res with
      | false =>
        have hfiltered := filterDNSResult_clean (s := s) (d := { d with setts := settsFor d, checked := some res })
          ⟨⟨hclean.req, hclean.res⟩, hclean.orig⟩ hcname
        split
        · exact good_of_ne nofun
        · rename_i d' res' heq
          rw [heq] at hfiltered
          exact Or.inl ⟨⟨hfiltered.req, hfiltered.res⟩, hfiltered.orig⟩
      | true =>
        rw [filterDNSResult_renamed hcname]
        refine Or.inr ⟨hclean.req, hcname, hnone, fun hhost => ?_⟩
        by_cases hname : s.fqdn res.canonName = pctx.req.question.name
        · right
          change { d.req.question with name := s.fqdn res.canonName } = _
          rw [hname, hclean.req]
        · left
          rw [settsFor_eq h, h.ctx] at hcheck
          exact ⟨h.misses hhost hnone, res, hcheck, hcname, hname⟩

theorem processUpstream_leads (hup : s.CarriesQuestion) (hnot : ¬s.RenamesDHCPHost pctx) :
    Leads ends s.processUpstream (fun d => Clean pctx d ∨ Renamed s pctx d) (fun d => Clean pctx d ∨ Resolved pctx d)
      (Good pctx) := by
  intro d h
  unfold processUpstream
  have hcustom : (s.setCustomUpstream d).req = d.req ∧ (s.setCustomUpstream d).origQuestion = d.origQuestion ∧
      (s.setCustomUpstream d).result = d.result := by
    unfold setCustomUpstream
    split
    · exact ⟨rfl, rfl, rfl⟩
    · split <;> exact ⟨rfl, rfl, rfl⟩
  split
  · rename_i hsome
    refine h.imp id fun hr => ?_
    rw [hr.res] at hsome
    cases hsome
  · split
    · rename_i hhost
      -- The name error is about the question in the request.
      have hreq : d.req.question = pctx.req.question :=
        h.elim (fun hc => hc.req) fun hr => (hr.dhcpHost hhost).resolve_left hnot
      exact good_of_questions (by rintro _ ⟨⟩; exact congrArg (fun q => [q]) hreq) hreq
    · dsimp only
      split
      · exact good_of_ne nofun
      · rename_i resolve hproxy
        split
        · exact good_of_ne nofun
        · exact good_of_ne nofun
        · rename_i resp hresp
          have hq := hup resolve hproxy _ _ resp hresp
          rw [hcustom.1] at hq
          rcases h with hc | hr
          · refine Or.inl ⟨⟨?_, ?_⟩, ?_⟩
            · rw [← hc.req, ← hcustom.1]
            · rintro m ⟨⟩
              rw [hq, hc.req]
            · rw [← hc.orig, ← hcustom.2.1]
          · refine Or.inr ⟨?_, ?_, resp, rfl, ?_⟩
            · rw [← hr.orig, ← hcustom.2.1]
            · rw [← hr.result, ← hcustom.2.2]
            · rw [hq, ← hcustom.1]

theorem filterDNSResponse_asked {d : DnsContext} {resp : Msg} (h : Asked pctx d) (hres : d.res = some resp) :
    Asked pctx (s.filterDNSResponse d resp).1 := by
  have hresp := h.res resp hres
  unfold filterDNSResponse
  split
  · exact h
  · dsimp only
    split
    · exact ⟨h.req, by rintro _ ⟨⟩; exact hresp⟩
    · exact ⟨h.req, by rintro _ ⟨⟩; exact hresp⟩
    · refine ⟨h.req, ?_⟩
      rintro _ ⟨⟩
      rw [s.genDNSFilterMessage_question, h.req]

theorem filterAfterResponse_leads :
    Leads ends s.filterAfterResponse (Asked pctx) (Asked pctx) (Good pctx) := by
  intro d h
  unfold filterAfterResponse
  split
  · exact h
  · split
    · exact good_of_ne nofun
    · rename_i resp hres
      have hasked := filterDNSResponse_asked (s := s) h hres
      split
      · exact good_of_ne nofun
      · rename_i d' heq
        rw [heq] at hasked
        exact hasked

theorem restoreQuestion_leads : Leads ends s.restoreQuestion (Resolved pctx) (Asked pctx) (Good pctx) := by
  intro d h
  obtain ⟨m, hm, hq⟩ := h.res
  unfold restoreQuestion
  rw [hm]
  dsimp only
  rw [hq]
  refine ⟨h.orig, ?_⟩
  rintro _ ⟨⟩
  exact congrArg (fun q => [q]) h.orig

theorem processFilteringAfterResponse_leads (hname : pctx.req.question.name ≠ "") :
    Leads ends s.processFilteringAfterResponse (fun d => Clean pctx d ∨ Resolved pctx d) (Asked pctx) (Good pctx) := by
  rintro d (hc | hr)
  · unfold processFilteringAfterResponse
    split
    · exact hc.toAsked
    · rw [if_pos hc.orig]
      exact hc.toAsked
    · rw [if_pos hc.orig]
      exact hc.toAsked
    · rw [if_pos hc.orig]
      exact hc.toAsked
    · exact filterAfterResponse_leads d hc.toAsked
  · have horig : d.origQuestion.name ≠ "" := by rwa [hr.orig]
    have hrestore := restoreQuestion_leads (s := s) d hr
    have hresult := hr.result
    unfold isRewrittenCNAME at hresult
    unfold processFilteringAfterResponse
    split at hresult
    · rename_i hreason
      simp only [hreason, if_neg horig]
      exact hrestore
    · rename_i hreason
      simp only [hreason, if_neg horig]
      exact hrestore
    · rename_i hreason
      simp only [hreason, if_neg horig]
      exact hrestore
    · cases hresult

/-- Apart from the hosts of the DHCP server, a response has the question of the client. -/
theorem answers_of_not_renamesDHCPHost (hup : s.CarriesQuestion) (hname : pctx.req.question.name ≠ "")
    (hnot : ¬s.RenamesDHCPHost pctx) : s.Answers pctx := by
  have hends : Ends ends compressed s.mods (fun d => d = { toProxyContext := pctx }) (Good pctx) := by
    refine Ends.cons processInitial_leads (Ends.cons processDDRQuery_leads (Ends.cons processDHCPHosts_leads
      (Ends.cons processDHCPAddrs_leads (Ends.cons processFilteringBeforeRequest_leads
      (Ends.cons (processUpstream_leads hup hnot) (Ends.cons (processFilteringAfterResponse_leads hname)
      (Ends.nil ?_)))))))
    intro d h
    refine good_of_questions ?_ h.req
    intro m hm
    obtain ⟨m', hm', rfl⟩ := Option.map_eq_some_iff.mp hm
    exact h.res m' hm'
  exact hends _ rfl

/-! ## Hosts of the DHCP server -/

/-- The context of a request for a host of the DHCP server without a lease, before the filtering. -/
def missed (s : Handler) (pctx : ProxyContext) : DnsContext := { s.started pctx with isDHCPHost := true }

theorem MissesLease.processInitial (h : s.MissesLease pctx) :
    s.processInitial { toProxyContext := pctx } = (s.started pctx, .success) := by
  unfold Handler.processInitial
  dsimp only
  rw [if_neg h.ipv6, if_neg fun hm => h.mozilla hm.2, if_neg h.healthcheck]
  rfl

theorem MissesLease.processDDRQuery (h : s.MissesLease pctx) :
    s.processDDRQuery (s.started pctx) = (s.started pctx, .success) := if_neg h.ddr

theorem MissesLease.processDHCPHosts (h : s.MissesLease pctx) :
    s.processDHCPHosts (s.started pctx) = (missed s pctx, .success) := by
  have hhost : s.dhcpHostFromRequest (s.started pctx).req.question ≠ "" := h.dhcpHost
  have hlease : s.ipByHost (s.dhcpHostFromRequest (s.started pctx).req.question) = .invalid := h.noLease
  have hprivate : (s.started pctx).isPrivateClient = true := h.isPrivateClient
  unfold Handler.processDHCPHosts
  simp only [decide_eq_true hhost, hprivate, hlease, Bool.not_true, Bool.false_eq_true, if_false, if_true]
  rfl

theorem MissesLease.processDHCPAddrs (h : s.MissesLease pctx) :
    s.processDHCPAddrs (missed s pctx) = (missed s pctx, .success) := by
  have hptr : (missed s pctx).req.question.qtype ≠ RRType.ptr := by
    rcases dhcpHostFromRequest_qtype h.dhcpHost with hq | hq
    · exact fun hp => absurd (hq.symm.trans hp) (by decide)
    · exact fun hp => absurd (hq.symm.trans hp) (by decide)
  unfold Handler.processDHCPAddrs
  split
  · rfl
  · split
    · rfl
    · rfl

/-- The context after the rewrite of a request for a host of the DHCP server. -/
def renamedHost (s : Handler) (pctx : ProxyContext) (res : Result) : DnsContext :=
  { missed s pctx with
    setts := settsFor (s.started pctx)
    checked := some res
    origQuestion := pctx.req.question
    req := { pctx.req with question := { pctx.req.question with name := s.fqdn res.canonName } }
    result := res }

theorem processFilteringBeforeRequest_missed {res : Result}
    (hcheck : s.checkHost (trimDot pctx.req.question.name) pctx.req.question.qtype (settsFor (s.started pctx)) =
      .ok res) (hcname : isRewrittenCNAME res = true) :
    s.processFilteringBeforeRequest (missed s pctx) = (renamedHost s pctx res, .success) := by
  have hcheck' : s.checkHost (trimDot (missed s pctx).req.question.name) (missed s pctx).req.question.qtype
      (settsFor (missed s pctx)) = .ok res := hcheck
  unfold Handler.processFilteringBeforeRequest Handler.filterDNSRequest
  dsimp only
  rw [hcheck']
  simp only [filterDNSResult_renamed hcname]
  rfl

theorem RenamesDHCPHost.serveDNS (h : s.RenamesDHCPHost pctx) :
    ∃ res, s.fqdn res.canonName ≠ pctx.req.question.name ∧
      s.serveDNS pctx =
        ({ renamedHost s pctx res with res := some (s.newMsgNXDOMAIN (renamedHost s pctx res).req) }, .nil) := by
  obtain ⟨hmiss, res, hcheck, hcname, hname⟩ := h
  refine ⟨res, hname, ?_⟩
  unfold Handler.serveDNS Handler.mods
  rw [run_cons_next (by rw [hmiss.processInitial]; rfl), hmiss.processInitial,
    run_cons_next (by rw [hmiss.processDDRQuery]; rfl), hmiss.processDDRQuery,
    run_cons_next (by rw [hmiss.processDHCPHosts]; rfl), hmiss.processDHCPHosts,
    run_cons_next (by rw [hmiss.processDHCPAddrs]; rfl), hmiss.processDHCPAddrs,
    run_cons_next (by rw [processFilteringBeforeRequest_missed hcheck hcname]; rfl),
    processFilteringBeforeRequest_missed hcheck hcname, run_cons_stop (o := .nil) rfl]
  rfl

/-- A response has the question of the client unless a host of the DHCP server without a lease is rewritten to another
name. -/
theorem answers_iff (hup : s.CarriesQuestion) (hname : pctx.req.question.name ≠ "") :
    s.Answers pctx ↔ ¬s.RenamesDHCPHost pctx := by
  refine ⟨fun hanswers hrenames => ?_, answers_of_not_renamesDHCPHost hup hname⟩
  obtain ⟨res, hne, hserve⟩ := hrenames.serveDNS
  unfold Answers at hanswers
  rw [hserve] at hanswers
  exact hne (congrArg Question.name (hanswers rfl _ rfl).2)

end Handler

/-- A server with a DHCP server for `lan` without leases, a rewrite of `printer.lan`, and an upstream that answers
nothing. -/
def lanHandler : Handler where
  aaaaDisabled := false
  handleDDR := false
  serverName := ""
  httpsPorts := []
  tlsPorts := []
  quicPorts := []
  hasIPAddrs := false
  dhcpEnabled := true
  ipByHost _ := .invalid
  hostByIP _ := ""
  localDomainSuffix := "lan"
  dns64Pref := none
  protectionEnabled := true
  settings := { filteringEnabled := true }
  applyAdditionalFiltering _ _ setts := setts
  checkHost host _ _ :=
    .ok (if host = "printer.lan" then { reason := .rewritten, canonName := "printer.example" } else {})
  checkHostRules _ _ _ := .ok {}
  blockingMode := .default
  blockingIPv4 := .invalid
  blockingIPv6 := .invalid
  blockedResponseTTL := 10
  safeBrowsingBlockHost := ""
  parentalBlockHost := ""
  customUpstreamConfig _ _ := none
  proxy := some fun req _ => .ok (some { question := [req.question] })
  toLower := id
  fqdn name := if name.toList.getLast? = some '.' then name else name ++ "."
  isSubdomain domain top := ('.' :: top.toList).isSuffixOf domain.toList
  quote := id
  typeString _ := ""
  ipString _ := ""
  svcbValues _ := []

/-- A request of a private client for an address. -/
def addressRequest (name : String) : ProxyContext :=
  { req := { id := 1, question := ⟨name, RRType.a, 1⟩ }, addr := .v4 0xc0a80002, isPrivateClient := true }

theorem lanHandler_carriesQuestion : lanHandler.CarriesQuestion := by
  rintro _ ⟨⟩ req ups resp h
  cases h
  rfl

theorem lanHandler_answers : lanHandler.Answers (addressRequest "example.org.") := by
  refine (Handler.answers_iff lanHandler_carriesQuestion (by decide)).mpr fun h => ?_
  exact h.dhcpHost (by decide)

/-- The name error for `printer.lan` is about its canonical name. -/
theorem lanHandler_not_answers :
    lanHandler.CarriesQuestion ∧ ¬lanHandler.Answers (addressRequest "printer.lan.") := by
  refine ⟨lanHandler_carriesQuestion, fun h => ?_⟩
  have hname := congrArg Question.name (h (by decide) _ rfl).2
  revert hname
  decide

end AdGuardHome.Dnsforward
