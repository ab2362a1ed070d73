import AdGuardHome.Dnsforward.AccessSpec
import AdGuardHome.Dnsforward.Answers
import AdGuardHome.Dnsforward.LetterCase

/-!
# Requests that differ in the letters of the name

The names of the requests that the server answers at once are compared letter by letter, while all other stages put
the name in lower case or leave it to the filter and the upstreams.  So two requests whose names differ only in the
case of letters are treated alike on every server exactly when both or none of them has one of these names.
-/

namespace AdGuardHome.Dnsforward

open AdGuardHome.Net AdGuardHome.Filtering AdGuardHome.Aghnet AdGuardHome.Lib AdGuardHome.Lib.Stages

/-! ## Special names -/

/-- The question has one of the names that the first two stages answer, as they are written in the source. -/
def Special (aaaaDisabled handleDDR : Bool) (q : Question) : Prop :=
  ¬(aaaaDisabled = true ∧ q.qtype = RRType.aaaa) ∧
    ((q.qtype = RRType.a ∨ q.qtype = RRType.aaaa) ∧ q.name = mozillaFQDN ∨ q.name = healthcheckFQDN ∨
      handleDDR = true ∧ q.name = ddrHostFQDN)

instance (aaaaDisabled handleDDR : Bool) (q : Question) : Decidable (Special aaaaDisabled handleDDR q) :=
  inferInstanceAs (Decidable (_ ∧ _))

variable {aaaaDisabled handleDDR : Bool} {q q' : Question}

theorem Special.toLower_name (h : Special aaaaDisabled handleDDR q) : q.name.toLower = q.name := by
  have hnames : ∀ n ∈ [mozillaFQDN, healthcheckFQDN, ddrHostFQDN], n.toLower = n := by
    intro n hn
    rw [toLower_eq_iff]
    revert n
    decide
  rcases h.2 with ⟨-, hname⟩ | hname | ⟨-, hname⟩ <;> exact hnames _ (by simp [hname])

/-- Special names that differ only in the case of letters are the same. -/
theorem Special.eq (h : Special aaaaDisabled handleDDR q) (h' : Special aaaaDisabled handleDDR q')
    (hfold : q.folded = q'.folded) : q = q' := by
  obtain ⟨name, qtype, qclass⟩ := q
  obtain ⟨name', qtype', qclass'⟩ := q'
  have hname : name.toLower = name'.toLower := congrArg Question.name hfold
  have hqtype : qtype = qtype' := congrArg Question.qtype hfold
  have hqclass : qclass = qclass' := congrArg Question.qclass hfold
  have hn : name.toLower = name := h.toLower_name
  have hn' : name'.toLower = name' := h'.toLower_name
  rw [hn, hn'] at hname
  rw [hname, hqtype, hqclass]

/-! ## Stages on two contexts -/

/-- Two contexts that differ only in the case of echoed names and in the texts of errors. -/
def AlikeContexts (d e : DnsContext) : Prop := d.folded = e.folded

/-- Two ends of a run. -/
def AlikeEnds (a b : DnsContext × Served) : Prop := a.1.folded = b.1.folded ∧ a.2.folded = b.2.folded

theorem postBoth_of_alike {Q : DnsContext → DnsContext → Prop} {a b : DnsContext × ResultCode}
    (hd : a.1.folded = b.1.folded) (hcode : a.2 = b.2) (hQ : Q a.1 b.1) : PostBoth ends Q AlikeEnds a b := by
  unfold PostBoth
  rw [← hcode]
  cases a.2 with
  | success => exact hQ
  | finish => exact ⟨hd, rfl⟩
  | error => exact ⟨hd, rfl⟩
  | panic => exact ⟨hd, rfl⟩

/-- A blind stage does the same for both contexts. -/
theorem Blind.leadsBoth {f : DnsContext → DnsContext × ResultCode} (hf : Blind f) :
    LeadsBoth ends f AlikeContexts AlikeContexts AlikeEnds := by
  intro d e hde
  obtain ⟨hd, hcode⟩ := hf d
  obtain ⟨he, hcode'⟩ := hf e
  have hfold : d.folded = e.folded := hde
  rw [hfold] at hd hcode
  exact postBoth_of_alike (hd.symm.trans he) (hcode.symm.trans hcode') (hd.symm.trans he)

namespace Handler

variable {s : Handler}

/-- A generated message is the same for both requests. -/
theorem gen_alike {gen : Request → Msg} (hgen : ∀ req, (gen req.folded).folded = (gen req).folded)
    {req req' : Request} (h : req.folded = req'.folded) : (gen req).folded = (gen req').folded := by
  rw [← hgen req, h, hgen req']

/-- The contexts of the first two stages: both or none of the questions is special. -/
def AlikeQuestions (s : Handler) (d e : DnsContext) : Prop :=
  d.folded = e.folded ∧
    (Special s.aaaaDisabled s.handleDDR d.req.question ↔ Special s.aaaaDisabled s.handleDDR e.req.question)

theorem AlikeQuestions.qtype {d e : DnsContext} (h : s.AlikeQuestions d e) :
    d.req.question.qtype = e.req.question.qtype := congrArg (·.req.question.qtype) h.1

theorem AlikeQuestions.req {d e : DnsContext} (h : s.AlikeQuestions d e) : d.req.folded = e.req.folded :=
  congrArg (·.req) h.1

/-- What is special about one of the questions is so about the other. -/
theorem AlikeQuestions.name_iff {d e : DnsContext} (h : s.AlikeQuestions d e)
    (hipv6 : ¬(s.aaaaDisabled = true ∧ d.req.question.qtype = RRType.aaaa)) {P : Question → Prop}
    (hP : ∀ q, ¬(s.aaaaDisabled = true ∧ q.qtype = RRType.aaaa) → P q → Special s.aaaaDisabled s.handleDDR q) :
    P d.req.question ↔ P e.req.question := by
  have hipv6' : ¬(s.aaaaDisabled = true ∧ e.req.question.qtype = RRType.aaaa) := h.qtype ▸ hipv6
  have hfold : d.req.question.folded = e.req.question.folded := congrArg (·.question) h.req
  constructor
  · intro hd
    have hspecial := hP _ hipv6 hd
    exact hspecial.eq (h.2.1 hspecial) hfold ▸ hd
  · intro he
    have hspecial := hP _ hipv6' he
    exact (h.2.2 hspecial).eq hspecial hfold ▸ he

/-- The contexts after `processInitial`: both or none of the questions is for the designated resolvers. -/
def AlikeDDR (s : Handler) (d e : DnsContext) : Prop :=
  d.folded = e.folded ∧
    (s.handleDDR = true ∧ d.req.question.name = ddrHostFQDN ↔ s.handleDDR = true ∧ e.req.question.name = ddrHostFQDN)

/-- The context that `processInitial` passes on. -/
def identified (s : Handler) (d : DnsContext) : DnsContext :=
  let d := { d with clientID := d.ctxClientID.getD d.clientID, protectionEnabled := s.protectionEnabled }
  { d with setts := s.clientRequestFilteringSettings d }

theorem identified_folded {d e : DnsContext} (h : d.folded = e.folded) :
    (s.identified d).folded = (s.identified e).folded := by
  have hcomm : ∀ d : DnsContext, (s.identified d).folded = s.identified d.folded := fun _ => rfl
  rw [hcomm, hcomm, h]

theorem processInitial_leadsBoth : LeadsBoth ends s.processInitial s.AlikeQuestions s.AlikeDDR AlikeEnds := by
  intro d e h
  have hres : ∀ m m' : Msg, m.folded = m'.folded →
      PostBoth ends s.AlikeDDR AlikeEnds (({ d with res := some m } : DnsContext), ResultCode.finish)
        (({ e with res := some m' } : DnsContext), ResultCode.finish) :=
    fun m m' hm => ⟨folded_with_res h.1 hm, rfl⟩
  unfold processInitial
  dsimp only
  rw [← h.qtype]
  by_cases hipv6 : s.aaaaDisabled = true ∧ d.req.question.qtype = RRType.aaaa
  · rw [if_pos hipv6, if_pos hipv6]
    exact hres _ _ (gen_alike s.newMsgNODATA_folded h.req)
  · rw [if_neg hipv6, if_neg hipv6]
    have hmozilla := h.name_iff hipv6
      (P := fun q => (q.qtype = RRType.a ∨ q.qtype = RRType.aaaa) ∧ q.name = mozillaFQDN)
      fun q hq hname => ⟨hq, .inl hname⟩
    have hhealth := h.name_iff hipv6 (P := fun q => q.name = healthcheckFQDN) fun q hq hname => ⟨hq, .inr (.inl hname)⟩
    have hddr := h.name_iff hipv6 (P := fun q => s.handleDDR = true ∧ q.name = ddrHostFQDN)
      fun q hq hname => ⟨hq, .inr (.inr hname)⟩
    rw [← h.qtype] at hmozilla
    by_cases hname : (d.req.question.qtype = RRType.a ∨ d.req.question.qtype = RRType.aaaa) ∧
      d.req.question.name = mozillaFQDN
    · rw [if_pos hname, if_pos (hmozilla.1 hname)]
      exact hres _ _ (gen_alike s.newMsgNXDOMAIN_folded h.req)
    · rw [if_neg hname, if_neg (hname ∘ hmozilla.2)]
      by_cases hcheck : d.req.question.name = healthcheckFQDN
      · rw [if_pos hcheck, if_pos (hhealth.1 hcheck)]
        exact hres _ _ (gen_alike (fun req => replyCompressed_folded req rfl) h.req)
      · rw [if_neg hcheck, if_neg (hcheck ∘ hhealth.2)]
        exact postBoth_of_alike (a := (s.identified d, .success)) (b := (s.identified e, .success))
          (identified_folded h.1) rfl ⟨identified_folded h.1, hddr⟩

theorem processDDRQuery_leadsBoth : LeadsBoth ends s.processDDRQuery s.AlikeDDR AlikeContexts AlikeEnds := by
  intro d e h
  unfold processDDRQuery
  by_cases hname : s.handleDDR = true ∧ d.req.question.name = ddrHostFQDN
  · rw [if_pos hname, if_pos (h.2.1 hname)]
    have hres := gen_alike s.makeDDRResponse_folded (congrArg (·.req) h.1)
    exact ⟨folded_with_res h.1 hres, rfl⟩
  · rw [if_neg hname, if_neg (hname ∘ h.2.2)]
    exact h.1

/-- The stages after the first two are blind to the letters of the name. -/
theorem CaseBlind.mods (h : s.CaseBlind) : ∀ f ∈ s.mods.drop 2, Blind f := by
  intro f hf
  simp only [Handler.mods, List.drop_succ_cons, List.drop_zero, List.mem_cons, List.not_mem_nil, or_false] at hf
  rcases hf with rfl | rfl | rfl | rfl | rfl
  · exact h.processDHCPHosts
  · exact processDHCPAddrs_blind
  · exact h.processFilteringBeforeRequest
  · exact h.processUpstream
  · exact processFilteringAfterResponse_blind

theorem compressed_alike {d e : DnsContext} (h : d.folded = e.folded) : AlikeEnds (compressed d) (compressed e) := by
  have hcomm : ∀ d : DnsContext, (compressed d).1.folded = (compressed d.folded).1 := by
    intro d
    simp only [compressed, DnsContext.folded, Option.map_map]
    rfl
  refine ⟨?_, rfl⟩
  rw [hcomm d, h, ← hcomm e]

/-- The processing of two requests both or none of which has a special name. -/
theorem CaseBlind.serveDNS_alike (h : s.CaseBlind) (p p' : ProxyContext)
    (hctx : ({ toProxyContext := p } : DnsContext).folded = ({ toProxyContext := p' } : DnsContext).folded)
    (hspecial : Special s.aaaaDisabled s.handleDDR p.req.question ↔
      Special s.aaaaDisabled s.handleDDR p'.req.question) :
    AlikeEnds (s.serveDNS p) (s.serveDNS p') := by
  have hrest : EndsBoth ends compressed (s.mods.drop 2) AlikeContexts AlikeEnds :=
    .of_forall (fun f hf => (h.mods f hf).leadsBoth) fun _ _ => compressed_alike
  exact EndsBoth.cons processInitial_leadsBoth (.cons processDDRQuery_leadsBoth hrest) _ _ ⟨hctx, hspecial⟩

end Handler

/-! ## Decisions -/

/-- What becomes of a request, up to the case of echoed names and the texts of errors. -/
inductive Decision
  | refused (o : Outcome)
  /-- The response is made here. -/
  | answered (res : Option Msg) (o : Served)
  /-- The question of the client is sent to the upstreams. -/
  | upstream (res : Option Msg) (o : Served)
deriving DecidableEq

def Exchange.isClient : Exchange → Bool
  | .client _ => true
  | .replacement _ => false

def decided (x : DnsContext × Served) : Decision :=
  let d := x.1.folded
  if d.exchanges.any Exchange.isClient then .upstream d.res x.2.folded else .answered d.res x.2.folded

theorem AlikeEnds.decided {x y : DnsContext × Served} (h : AlikeEnds x y) : decided x = decided y := by
  unfold Dnsforward.decided
  rw [h.1, h.2]

variable (env : AccessEnv) (a : AccessServer) (actx : AccessContext) (pctx : ProxyContext)

/-- The context of the connection with the client and the question of the request. -/
def accessContext : AccessContext := { actx with addr := pctx.addr, question := [pctx.req.question] }

/-- The context with the ClientID, if there is one. -/
def ProxyContext.withClientID (clientID : String) : ProxyContext :=
  { pctx with ctxClientID := if clientID = "" then none else some clientID }

/-- `Wrap` around `ServeDNS`. -/
def handle (s : Handler) : Decision :=
  match wrap env a (accessContext actx pctx) with
  | .served clientID => decided (s.serveDNS (pctx.withClientID clientID))
  | o => .refused o

/-- The access settings let the request through. -/
def Admits : Prop :=
  ∃ clientID, clientIDFromDNSContext env a (accessContext actx pctx) = .ok clientID ∧
    (isBlockedClient a.access pctx.addr clientID).1 = false ∧ isBlockedHost a [pctx.req.question] = false

/-- The same request with another spelling of the name. -/
def ProxyContext.withName (name : String) : ProxyContext :=
  { pctx with req := { pctx.req with question := { pctx.req.question with name := name } } }

variable {env a actx pctx}

theorem normalizeDomain_eq {n n' : String} (h : n.toLower = n'.toLower) : normalizeDomain n = normalizeDomain n' := by
  have hdot : n = "." ↔ n' = "." := by rw [← toLower_eq_dot, h, toLower_eq_dot]
  unfold normalizeDomain
  by_cases hn : n = "."
  · rw [if_pos hn, if_pos (hdot.1 hn), hn, hdot.1 hn]
  · rw [if_neg hn, if_neg (hn ∘ hdot.2), ← trimDot_toLower, ← trimDot_toLower, h]

theorem wrap_withName {n : String} (hcase : n.toLower = pctx.req.question.name.toLower) :
    wrap env a (accessContext actx (pctx.withName n)) = wrap env a (accessContext actx pctx) := by
  have hhost : isBlockedHost a (accessContext actx (pctx.withName n)).question =
      isBlockedHost a (accessContext actx pctx).question :=
    congrArg (a.access.blockedHostsEng · pctx.req.question.qtype) (normalizeDomain_eq hcase)
  unfold wrap
  rw [hhost]
  rfl

theorem Admits.wrap_eq (h : Admits env a actx pctx) :
    ∃ clientID, wrap env a (accessContext actx pctx) = .served clientID := by
  obtain ⟨clientID, hid, hclient, hhost⟩ := h
  exact (wrap_served_iff hid hhost).2 hclient

theorem admits_of_served {clientID : String} (h : wrap env a (accessContext actx pctx) = .served clientID) :
    Admits env a actx pctx := by
  have hblocked : serveBlockedResponse (accessContext actx pctx) ≠ .served clientID := by
    unfold serveBlockedResponse
    split <;> nofun
  unfold wrap at h
  split at h
  · cases h
  · rename_i id hid
    split at h
    · exact absurd h hblocked
    · rename_i hclient
      split at h
      · exact absurd h hblocked
      · rename_i hhost
        exact ⟨id, hid, Bool.eq_false_of_not_eq_true hclient, Bool.eq_false_of_not_eq_true hhost⟩

theorem handle_of_served {s : Handler} {clientID : String}
    (h : wrap env a (accessContext actx pctx) = .served clientID) :
    handle env a actx pctx s = decided (s.serveDNS (pctx.withClientID clientID)) := by
  unfold handle
  rw [h]

theorem folded_withName {n clientID : String} (hcase : n.toLower = pctx.req.question.name.toLower) :
    ({ toProxyContext := (pctx.withName n).withClientID clientID } : DnsContext).folded =
      ({ toProxyContext := pctx.withClientID clientID } : DnsContext).folded := by
  simp [DnsContext.folded, Request.folded, Question.folded, ProxyContext.withName, ProxyContext.withClientID, hcase]

/-- Requests that are alike for all stages are decided alike. -/
theorem handle_alike {s : Handler} (h : s.CaseBlind) {n : String} (hcase : n.toLower = pctx.req.question.name.toLower)
    (hspecial : Admits env a actx pctx → (Special s.aaaaDisabled s.handleDDR (pctx.withName n).req.question ↔
      Special s.aaaaDisabled s.handleDDR pctx.req.question)) :
    handle env a actx (pctx.withName n) s = handle env a actx pctx s := by
  cases hwrap : wrap env a (accessContext actx pctx) with
  | served clientID =>
    rw [handle_of_served hwrap, handle_of_served ((wrap_withName hcase).trans hwrap)]
    exact (h.serveDNS_alike _ _ (folded_withName hcase) (hspecial (admits_of_served hwrap))).decided
  | _ =>
    unfold handle
    rw [wrap_withName hcase, hwrap]

/-! ## A server without filters -/

/-- A server that sends the names that are not special to its upstreams. -/
def openHandler (aaaaDisabled handleDDR : Bool) : Handler :=
  { lanHandler with
    aaaaDisabled := aaaaDisabled
    handleDDR := handleDDR
    dhcpEnabled := false
    protectionEnabled := false
    checkHost := fun _ _ _ => .ok {}
    toLower := String.toLower }

@[simp] theorem openHandler_aaaaDisabled : (openHandler aaaaDisabled handleDDR).aaaaDisabled = aaaaDisabled := rfl

@[simp] theorem openHandler_handleDDR : (openHandler aaaaDisabled handleDDR).handleDDR = handleDDR := rfl

theorem openHandler_caseBlind : (openHandler aaaaDisabled handleDDR).CaseBlind where
  toLower _ _ h := h
  checkHost _ _ _ _ _ := rfl
  resolve := by
    rintro _ ⟨⟩ req req' ups h
    exact congrArg (fun q : Question => some (some ({ question := [q] } : Msg))) (congrArg Request.question h)

/-- A context before the upstreams. -/
structure Open (q : Question) (d : DnsContext) : Prop where
  question : d.req.question = q
  res : d.res = none
  dhcpHost : d.isDHCPHost = false
  protection : d.protectionEnabled = false

/-- The question was sent to the upstreams. -/
def Sent (d : DnsContext) : Prop := d.exchanges.any Exchange.isClient = true

theorem Sent.decided {x : DnsContext × Served} (h : Sent x.1) : ∃ res o, decided x = .upstream res o := by
  refine ⟨x.1.folded.res, x.2.folded, if_pos ?_⟩
  have hclient : ∀ e : Exchange, e.folded.isClient = e.isClient := fun e => by cases e <;> rfl
  have hsent : x.1.exchanges.any Exchange.isClient = true := h
  rw [← hsent]
  simp [DnsContext.folded, Function.comp_def, hclient]

section OpenHandler

open Handler

variable {p : ProxyContext}

theorem openHandler_special (h : Special aaaaDisabled handleDDR p.req.question) :
    ∃ res o, decided ((openHandler aaaaDisabled handleDDR).serveDNS p) = .answered res o := by
  have hinitial : Leads ends (openHandler aaaaDisabled handleDDR).processInitial (· = { toProxyContext := p })
      (fun d => d.req = p.req ∧ d.exchanges = [] ∧ handleDDR = true ∧ p.req.question.name = ddrHostFQDN)
      (fun d _ => d.exchanges = []) := by
    rintro d rfl
    unfold processInitial
    dsimp only
    rw [openHandler_aaaaDisabled, if_neg h.1]
    split
    · exact (rfl : ([] : List Exchange) = [])
    · rename_i hmozilla
      split
      · exact (rfl : ([] : List Exchange) = [])
      · rename_i hhealth
        exact ⟨rfl, rfl, (h.2.resolve_left hmozilla).resolve_left hhealth⟩
  have hddr : Leads ends (openHandler aaaaDisabled handleDDR).processDDRQuery
      (fun d => d.req = p.req ∧ d.exchanges = [] ∧ handleDDR = true ∧ p.req.question.name = ddrHostFQDN)
      (fun _ => False) (fun d _ => d.exchanges = []) := by
    rintro d ⟨hreq, hexch, hddr⟩
    unfold processDDRQuery
    rw [hreq, openHandler_handleDDR, if_pos hddr]
    exact hexch
  have hnone : ((openHandler aaaaDisabled handleDDR).serveDNS p).1.exchanges = [] :=
    Ends.cons hinitial (Ends.cons hddr fun _ hfalse => hfalse.elim) _ rfl
  refine ⟨_, _, if_neg ?_⟩
  simp [DnsContext.folded, hnone]

theorem processInitial_open (h : ¬Special aaaaDisabled handleDDR p.req.question)
    (hipv6 : ¬(aaaaDisabled = true ∧ p.req.question.qtype = RRType.aaaa)) :
    Leads ends (openHandler aaaaDisabled handleDDR).processInitial (· = { toProxyContext := p })
      (Open p.req.question) fun d _ => Sent d := by
  rintro d rfl
  unfold processInitial
  dsimp only
  rw [openHandler_aaaaDisabled, if_neg hipv6, if_neg fun hmozilla => h ⟨hipv6, .inl hmozilla⟩,
    if_neg fun hhealth => h ⟨hipv6, .inr (.inl hhealth)⟩]
  exact ⟨rfl, rfl, rfl, rfl⟩

theorem processDDRQuery_open (h : ¬Special aaaaDisabled handleDDR q)
    (hipv6 : ¬(aaaaDisabled = true ∧ q.qtype = RRType.aaaa)) :
    Leads ends (openHandler aaaaDisabled handleDDR).processDDRQuery (Open q) (Open q) fun d _ => Sent d := by
  intro d hd
  unfold processDDRQuery
  rw [hd.question, openHandler_handleDDR, if_neg fun hddr => h ⟨hipv6, .inr (.inr hddr)⟩]
  exact hd

theorem processDHCPHosts_open :
    Leads ends (openHandler aaaaDisabled handleDDR).processDHCPHosts (Open q) (Open q) fun d _ => Sent d :=
  fun _ hd => ⟨hd.question, hd.res, rfl, hd.protection⟩

theorem processDHCPAddrs_open :
    Leads ends (openHandler aaaaDisabled handleDDR).processDHCPAddrs (Open q) (Open q) fun d _ => Sent d := by
  intro d hd
  have hsame : (openHandler aaaaDisabled handleDDR).processDHCPAddrs d = (d, .success) := by
    unfold processDHCPAddrs
    split
    · rfl
    · split
      · rfl
      · split <;> rfl
  rw [hsame]
  exact hd

theorem processFilteringBeforeRequest_open :
    Leads ends (openHandler aaaaDisabled handleDDR).processFilteringBeforeRequest (Open q) (Open q)
      fun d _ => Sent d := by
  intro d hd
  have hpassed : (openHandler aaaaDisabled handleDDR).processFilteringBeforeRequest d =
      ({ d with setts := settsFor d, checked := some {}, result := {} }, .success) := by
    unfold processFilteringBeforeRequest
    dsimp only
    rw [hd.res]
    rfl
  rw [hpassed]
  exact ⟨hd.question, hd.res, hd.dhcpHost, hd.protection⟩

theorem processUpstream_open :
    Leads ends (openHandler aaaaDisabled handleDDR).processUpstream (Open q)
      (fun d => Sent d ∧ d.protectionEnabled = false) fun d _ => Sent d := by
  intro d hd
  have hsame : (openHandler aaaaDisabled handleDDR).setCustomUpstream d = d := by
    unfold setCustomUpstream
    split <;> rfl
  unfold processUpstream
  rw [hd.res, hd.dhcpHost, hsame]
  refine ⟨?_, hd.protection⟩
  show (d.exchanges ++ [Exchange.client d.req.question]).any Exchange.isClient = true
  simp [Exchange.isClient]

theorem processFilteringAfterResponse_open :
    Leads ends (openHandler aaaaDisabled handleDDR).processFilteringAfterResponse
      (fun d => Sent d ∧ d.protectionEnabled = false) Sent fun d _ => Sent d := by
  rintro d ⟨hsent, hprotection⟩
  have hfilter : (openHandler aaaaDisabled handleDDR).filterAfterResponse d = (d, .success) :=
    if_pos (.inl (by rw [hprotection]; rfl))
  have hrestore : Sent ((openHandler aaaaDisabled handleDDR).restoreQuestion d).1 := by
    unfold restoreQuestion
    split
    · exact hsent
    · split <;> exact hsent
  have hkeep : Sent ((openHandler aaaaDisabled handleDDR).processFilteringAfterResponse d).1 := by
    unfold processFilteringAfterResponse
    split
    · exact hsent
    · split <;> assumption
    · split <;> assumption
    · split <;> assumption
    · rw [hfilter]
      exact hsent
  exact .of_forall hkeep fun _ => hkeep

theorem openHandler_sent (h : ¬Special aaaaDisabled handleDDR p.req.question)
    (hipv6 : ¬(aaaaDisabled = true ∧ p.req.question.qtype = RRType.aaaa)) :
    Sent ((openHandler aaaaDisabled handleDDR).serveDNS p).1 :=
  Ends.cons (processInitial_open h hipv6) (Ends.cons (processDDRQuery_open h hipv6)
    (Ends.cons processDHCPHosts_open (Ends.cons processDHCPAddrs_open
    (Ends.cons processFilteringBeforeRequest_open (Ends.cons processUpstream_open
    (Ends.cons processFilteringAfterResponse_open (Ends.nil fun _ hsent => hsent))))))) _ rfl

/-- The server without filters tells a special name from another one. -/
theorem openHandler_decided_ne (p p' : ProxyContext) (h : Special aaaaDisabled handleDDR p.req.question)
    (h' : ¬Special aaaaDisabled handleDDR p'.req.question) (hqtype : p'.req.question.qtype = p.req.question.qtype) :
    decided ((openHandler aaaaDisabled handleDDR).serveDNS p) ≠
      decided ((openHandler aaaaDisabled handleDDR).serveDNS p') := by
  obtain ⟨res, o, hanswered⟩ := openHandler_special h
  obtain ⟨res', o', hupstream⟩ := (openHandler_sent h' (hqtype ▸ h.1)).decided
  rw [hanswered, hupstream]
  nofun

end OpenHandler

/-- **The letters of the name do not matter on any server** if and only if the access settings refuse the request, or
both or none of the two names is special as it is written. -/
theorem respelled_iff {n : String} (hcase : n.toLower = pctx.req.question.name.toLower) :
    (∀ s : Handler, s.aaaaDisabled = aaaaDisabled → s.handleDDR = handleDDR → s.CaseBlind →
      handle env a actx (pctx.withName n) s = handle env a actx pctx s) ↔
    (Admits env a actx pctx →
      (Special aaaaDisabled handleDDR (pctx.withName n).req.question ↔
        Special aaaaDisabled handleDDR pctx.req.question)) := by
  constructor
  · intro hsame hadmits
    obtain ⟨clientID, hwrap⟩ := hadmits.wrap_eq
    have hopen := hsame (openHandler aaaaDisabled handleDDR) rfl rfl openHandler_caseBlind
    rw [handle_of_served hwrap, handle_of_served ((wrap_withName hcase).trans hwrap)] at hopen
    by_contra hdiff
    have hdiff := not_iff.1 hdiff
    by_cases hspecial : Special aaaaDisabled handleDDR pctx.req.question
    · exact openHandler_decided_ne (pctx.withClientID clientID) ((pctx.withName n).withClientID clientID) hspecial
        (hdiff.mpr hspecial) rfl hopen.symm
    · exact openHandler_decided_ne ((pctx.withName n).withClientID clientID) (pctx.withClientID clientID)
        (by_contra fun h => hspecial (hdiff.mp h)) hspecial rfl hopen
  · rintro hspecial s rfl rfl hs
    exact handle_alike hs hcase hspecial

/-- A server without access settings. -/
def openServer : AccessServer := ⟨⟨∅, ∅, ∅, ∅, fun _ _ => false, [], []⟩, "", false⟩

def udpContext : AccessContext := ⟨.udp, .invalid, none, "", none, []⟩

theorem admits_openServer (name : String) : Admits asciiEnv openServer udpContext (addressRequest name) :=
  ⟨"", rfl, (by decide : (isBlockedClient openServer.access (.v4 0xc0a80002) "").1 = false), rfl⟩

/-- The case of letters in an ordinary name does not matter. -/
theorem handle_ads :
    "ADS.Example.org.".toLower = "ads.example.org.".toLower ∧
      handle asciiEnv openServer udpContext ((addressRequest "ads.example.org.").withName "ADS.Example.org.")
        (openHandler false true) =
      handle asciiEnv openServer udpContext (addressRequest "ads.example.org.") (openHandler false true) := by
  have hcase : "ADS.Example.org.".toLower = (addressRequest "ads.example.org.").req.question.name.toLower :=
    (toLower_eq_iff.2 (by decide)).trans (toLower_eq_iff.2 (by decide) : _ = "ads.example.org.").symm
  refine ⟨hcase, (respelled_iff hcase).2 (fun _ => ?_) (openHandler false true) rfl rfl openHandler_caseBlind⟩
  exact iff_of_false (by decide) (by decide)

/-- The canary name of a browser is asked for at the upstreams if it has a capital letter. -/
theorem not_handle_respelled :
    ¬ ∀ (env : AccessEnv) (a : AccessServer) (actx : AccessContext) (pctx : ProxyContext) (n : String) (s : Handler),
      n.toLower = pctx.req.question.name.toLower → s.CaseBlind →
      handle env a actx (pctx.withName n) s = handle env a actx pctx s := by
  intro h
  have hcase : "Use-Application-DNS.net.".toLower = (addressRequest mozillaFQDN).req.question.name.toLower :=
    (toLower_eq_iff.2 (by decide)).trans (toLower_eq_iff.2 (by decide) : _ = mozillaFQDN).symm
  have hsame := h asciiEnv openServer udpContext (addressRequest mozillaFQDN) _ (openHandler false true) hcase
    openHandler_caseBlind
  have hspecial : Special false true (addressRequest mozillaFQDN).req.question := by decide
  have hother : ¬Special false true ⟨"Use-Application-DNS.net.", RRType.a, 1⟩ := by decide
  obtain ⟨clientID, hwrap⟩ := (admits_openServer mozillaFQDN).wrap_eq
  rw [handle_of_served hwrap, handle_of_served ((wrap_withName hcase).trans hwrap)] at hsame
  exact openHandler_decided_ne ((addressRequest mozillaFQDN).withClientID clientID)
    (((addressRequest mozillaFQDN).withName "Use-Application-DNS.net.").withClientID clientID) hspecial hother rfl
    hsame.symm

end AdGuardHome.Dnsforward
