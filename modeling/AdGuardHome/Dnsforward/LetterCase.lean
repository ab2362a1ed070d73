import AdGuardHome.Dnsforward.Process
import AdGuardHome.Lib.Lower

/-!
# The letters of the name in a question

A name is read by the stages of a request and echoed by the messages that they make.  `folded` puts the echoed names
in lower case, and a stage that is `Blind` does the same for a context and for the folded one.  All stages after the
first two are, if the filter and the upstreams are.
-/

namespace AdGuardHome.Dnsforward

open AdGuardHome.Net AdGuardHome.Filtering AdGuardHome.Aghnet AdGuardHome.Lib

/-! ## Folding -/

def Question.folded (q : Question) : Question := { q with name := q.name.toLower }

def Request.folded (req : Request) : Request := { req with question := req.question.folded }

/-- The mailbox of a generated SOA record has the name in it. -/
def RData.folded : RData → RData
  | .soa ns mbox serial refresh retry expire minttl => .soa ns mbox.toLower serial refresh retry expire minttl
  | data => data

def RR.folded (rr : RR) : RR := { rr with name := rr.name.toLower, data := rr.data.folded }

def Msg.folded (m : Msg) : Msg :=
  { m with question := m.question.map Question.folded, answer := m.answer.map RR.folded, ns := m.ns.map RR.folded }

def Exchange.folded : Exchange → Exchange
  | .client question => .client question.folded
  | .replacement question => .replacement question.folded

/-- The texts of errors are left out: they have the name in them. -/
def DnsContext.folded (d : DnsContext) : DnsContext :=
  { d with
    req := d.req.folded
    res := d.res.map Msg.folded
    origResp := d.origResp.map Msg.folded
    err := ""
    origQuestion := d.origQuestion.folded
    exchanges := d.exchanges.map Exchange.folded
    upstreamRes := d.upstreamRes.map Msg.folded }

def Served.folded : Served → Served
  | .err _ => .err ""
  | o => o

@[simp] theorem Question.folded_folded (q : Question) : q.folded.folded = q.folded := by
  simp [Question.folded, toLower_toLower]

@[simp] theorem Question.folded_name (q : Question) : q.folded.name = q.name.toLower := rfl

@[simp] theorem Question.folded_qtype (q : Question) : q.folded.qtype = q.qtype := rfl

@[simp] theorem Question.folded_qclass (q : Question) : q.folded.qclass = q.qclass := rfl

@[simp] theorem Request.folded_question (req : Request) : req.folded.question = req.question.folded := rfl

@[simp] theorem Request.folded_folded (req : Request) : req.folded.folded = req.folded := by
  simp [Request.folded]

@[simp] theorem RData.folded_folded (data : RData) : data.folded.folded = data.folded := by
  cases data <;> simp [RData.folded, toLower_toLower]

@[simp] theorem RR.folded_folded (rr : RR) : rr.folded.folded = rr.folded := by
  simp [RR.folded, toLower_toLower]

@[simp] theorem Msg.folded_folded (m : Msg) : m.folded.folded = m.folded := by
  simp [Msg.folded, Function.comp_def]

@[simp] theorem Exchange.folded_folded (e : Exchange) : e.folded.folded = e.folded := by
  cases e <;> simp [Exchange.folded]

@[simp] theorem DnsContext.folded_folded (d : DnsContext) : d.folded.folded = d.folded := by
  simp [DnsContext.folded, Function.comp_def]

/-! ## Messages -/

theorem toLower_append (s t : String) : (s ++ t).toLower = s.toLower ++ t.toLower := by
  rw [toLower_eq_iff]
  simp [toList_toLower]

theorem toLower_eq_dot {n : String} : n.toLower = "." ↔ n = "." := by
  have hdot : ∀ cs : List Char, cs.map Char.toLower = ['.'] ↔ cs = ['.'] := fun cs => by
    rcases cs with _ | ⟨c, _ | ⟨c', cs⟩⟩
    · simp
    · simp [toLower_eq_of_not_isAlpha (show '.'.isAlpha = false by decide)]
    · simp
  rw [toLower_eq_iff, ← String.toList_inj]
  exact hdot n.toList

namespace Handler

variable (s : Handler) (req : Request)

@[simp] theorem rr_folded (data : RData) : (s.rr req.folded data).folded = (s.rr req data).folded := by
  simp [rr, RR.folded, toLower_toLower]

theorem genSOA_folded : (s.genSOA req.folded).map RR.folded = (s.genSOA req).map RR.folded := by
  unfold genSOA
  dsimp only
  have hroot : req.folded.question.name ≠ "." ↔ req.question.name ≠ "." := not_congr toLower_eq_dot
  by_cases hname : req.question.name ≠ "."
  · rw [if_pos hname, if_pos (hroot.2 hname)]
    simp [RR.folded, RData.folded, toLower_append, toLower_toLower]
  · rw [if_neg hname, if_neg (hname ∘ hroot.1)]
    simp [RR.folded, RData.folded, toLower_toLower]

/-- A reply with records echoes the name in the question and in the records. -/
theorem reply_folded (code : ℕ) (compress : Bool) {answer answer' ns ns' : List RR}
    (hanswer : answer.map RR.folded = answer'.map RR.folded) (hns : ns.map RR.folded = ns'.map RR.folded) :
    ({ reply req.folded code with compress := compress, answer := answer, ns := ns } : Msg).folded =
      ({ reply req code with compress := compress, answer := answer', ns := ns' } : Msg).folded := by
  unfold Msg.folded
  dsimp only
  rw [hanswer, hns]
  simp [reply, setRcode, Request.folded]

@[simp] theorem newMsgSERVFAIL_folded : (newMsgSERVFAIL req.folded).folded = (newMsgSERVFAIL req).folded :=
  reply_folded req Rcode.serverFailure false rfl rfl

@[simp] theorem newMsgNXDOMAIN_folded : (s.newMsgNXDOMAIN req.folded).folded = (s.newMsgNXDOMAIN req).folded :=
  reply_folded req Rcode.nameError false rfl (s.genSOA_folded req)

@[simp] theorem newMsgNODATA_folded : (s.newMsgNODATA req.folded).folded = (s.newMsgNODATA req).folded :=
  reply_folded req Rcode.success false rfl (s.genSOA_folded req)

theorem replyCompressed_folded {answer answer' : List RR} (h : answer.map RR.folded = answer'.map RR.folded) :
    ({ replyCompressed req.folded with answer := answer } : Msg).folded =
      ({ replyCompressed req with answer := answer' } : Msg).folded := reply_folded req Rcode.success true h rfl

theorem map_rr_folded {α : Type} (data : α → RData) (xs : List α) :
    (xs.map fun x => s.rr req.folded (data x)).map RR.folded = (xs.map fun x => s.rr req (data x)).map RR.folded := by
  simp [Function.comp_def]

theorem genAnswersWithIPs_folded (ips : List Addr) :
    (s.genAnswersWithIPs req.folded ips).map RR.folded = (s.genAnswersWithIPs req ips).map RR.folded := by
  unfold genAnswersWithIPs
  rw [Request.folded_question, Question.folded_qtype]
  split
  · unfold genAnswersWithIPv4s
    split
    · exact s.map_rr_folded req .a ips
    · rfl
  · split
    · exact s.map_rr_folded req .aaaa _
    · rfl

theorem genResponseWithIPs_folded (ips : List Addr) :
    (s.genResponseWithIPs req.folded ips).folded = (s.genResponseWithIPs req ips).folded :=
  replyCompressed_folded req (s.genAnswersWithIPs_folded req ips)

/-- The addresses are those of the canonical name. -/
theorem getCNAMEWithIPs_folded (ips : List Addr) (cname : String) :
    (s.getCNAMEWithIPs req.folded ips cname).folded = (s.getCNAMEWithIPs req ips cname).folded := by
  unfold getCNAMEWithIPs
  split
  · refine replyCompressed_folded req ?_
    rw [List.map_cons, List.map_cons]
    exact congrArg (· :: _) (s.rr_folded req _)
  · exact replyCompressed_folded req (s.genAnswersWithIPs_folded req ips)

theorem makeResponseNullIP_folded : (s.makeResponseNullIP req.folded).folded = (s.makeResponseNullIP req).folded := by
  unfold makeResponseNullIP
  rw [Request.folded_question, Question.folded_qtype]
  split
  · exact s.genResponseWithIPs_folded req _
  · split
    · exact s.genResponseWithIPs_folded req _
    · exact replyCompressed_folded req rfl

theorem makeResponseCustomIP_folded (bIPv4 bIPv6 : Addr) :
    (s.makeResponseCustomIP req.folded bIPv4 bIPv6).folded = (s.makeResponseCustomIP req bIPv4 bIPv6).folded := by
  unfold makeResponseCustomIP
  rw [Request.folded_question, Question.folded_qtype]
  split
  · exact replyCompressed_folded req (s.map_rr_folded req .a [bIPv4])
  · split
    · exact replyCompressed_folded req (s.map_rr_folded req .aaaa [bIPv6])
    · exact replyCompressed_folded req rfl

theorem genForBlockingMode_folded (ips : List Addr) :
    (s.genForBlockingMode req.folded ips).folded = (s.genForBlockingMode req ips).folded := by
  unfold genForBlockingMode
  split
  · exact s.makeResponseCustomIP_folded req _ _
  · split
    · exact s.genResponseWithIPs_folded req ips
    · exact s.makeResponseNullIP_folded req
  · exact s.makeResponseNullIP_folded req
  · exact s.newMsgNXDOMAIN_folded req
  · exact reply_folded req Rcode.refused false rfl rfl
  · exact replyCompressed_folded req rfl

/-- The replacement of a blocked host is asked for by its own name. -/
theorem genBlockedHost_folded (newAddr : String) :
    (s.genBlockedHost req.folded newAddr).1.folded = (s.genBlockedHost req newAddr).1.folded ∧
      (s.genBlockedHost req.folded newAddr).2 = (s.genBlockedHost req newAddr).2 := by
  unfold genBlockedHost
  split
  · exact ⟨newMsgSERVFAIL_folded req, rfl⟩
  · split
    · exact ⟨s.genResponseWithIPs_folded req _, rfl⟩
    · split
      · exact ⟨newMsgSERVFAIL_folded req, rfl⟩
      · rename_i resolve _
        refine ⟨?_, rfl⟩
        have hrepl : s.replacementRequest req.folded newAddr = s.replacementRequest req newAddr := rfl
        dsimp only
        rw [hrepl]
        cases resolve (s.replacementRequest req newAddr) none with
        | error err => exact newMsgSERVFAIL_folded req
        | ok m =>
          cases m with
          | none => exact replyCompressed_folded req rfl
          | some m =>
            refine replyCompressed_folded req ?_
            rw [List.map_map, List.map_map]
            refine List.map_congr_left fun rr _ => ?_
            simp [RR.folded, toLower_toLower]

theorem genDNSFilterMessage_folded (res : Result) :
    (s.genDNSFilterMessage req.folded res).1.folded = (s.genDNSFilterMessage req res).1.folded ∧
      (s.genDNSFilterMessage req.folded res).2 = (s.genDNSFilterMessage req res).2 := by
  unfold genDNSFilterMessage
  dsimp only
  rw [Request.folded_question, Question.folded_qtype]
  split
  · split
    · exact ⟨replyCompressed_folded req rfl, rfl⟩
    · exact ⟨s.newMsgNODATA_folded req, rfl⟩
  · split
    · exact s.genBlockedHost_folded req _
    · exact s.genBlockedHost_folded req _
    · exact ⟨s.getCNAMEWithIPs_folded req _ _, rfl⟩
    · exact ⟨s.genForBlockingMode_folded req _, rfl⟩

theorem makeDDRResponse_folded : (s.makeDDRResponse req.folded).folded = (s.makeDDRResponse req).folded := by
  unfold makeDDRResponse
  dsimp only
  rw [Request.folded_question, Question.folded_qtype]
  split
  · exact replyCompressed_folded req rfl
  · refine replyCompressed_folded req ?_
    split <;> simp [Function.comp_def]

/-! ## Rewrites -/

theorem cases_of_option_map_eq {α β : Type} {f : α → β} {x y : Option α} (h : x.map f = y.map f) :
    (x = none ∧ y = none) ∨ ∃ a b, x = some a ∧ y = some b ∧ f a = f b := by
  cases x with
  | none =>
    cases y with
    | none => exact .inl ⟨rfl, rfl⟩
    | some b => cases h
  | some a =>
    cases y with
    | none => cases h
    | some b => exact .inr ⟨a, b, rfl, rfl, Option.some.inj h⟩

/-- Two results that are mapped to the same one. -/
theorem cases_of_map_eq {ε α β : Type} {f : α → β} {x y : Except ε α} (h : x.map f = y.map f) :
    (∃ err, x = .error err ∧ y = .error err) ∨ ∃ a b, x = .ok a ∧ y = .ok b ∧ f a = f b := by
  cases x with
  | error err =>
    cases y with
    | error err' => exact .inl ⟨err, rfl, congrArg Except.error (Except.error.inj h).symm⟩
    | ok b => cases h
  | ok a =>
    cases y with
    | error err' => cases h
    | ok b => exact .inr ⟨a, b, rfl, rfl, Except.ok.inj h⟩

theorem filterDNSRewriteResponse_folded (rr : UInt16) (v : RRValue) :
    (s.filterDNSRewriteResponse req.folded rr v).map RR.folded = (s.filterDNSRewriteResponse req rr v).map RR.folded := by
  have hrr : ∀ data, Except.ok (ε := String) (s.rr req.folded data).folded = .ok (s.rr req data).folded :=
    fun data => congrArg Except.ok (s.rr_folded req data)
  unfold filterDNSRewriteResponse ansFromDNSRewriteIP ansFromDNSRewriteText ansFromDNSRewriteMX ansFromDNSRewriteSVCB
    ansFromDNSRewriteSRV
  split
  · cases v with
    | ip ip =>
      dsimp only
      split <;> exact hrr _
    | _ => rfl
  · split
    · cases v with
      | text str => exact hrr _
      | _ => rfl
    · split
      · cases v with
        | mx preference exchange => exact hrr _
        | _ => rfl
      · split
        · cases v with
          | svcb svcb => exact hrr _
          | _ => rfl
        · split
          · cases v with
            | srv priority weight port target => exact hrr _
            | _ => rfl
          · exact hrr _

theorem filterDNSRewriteValues_folded (qtype : UInt16) (i : ℕ) (values : List RRValue) :
    (s.filterDNSRewriteValues req.folded qtype i values).map (List.map RR.folded) =
      (s.filterDNSRewriteValues req qtype i values).map (List.map RR.folded) := by
  induction values generalizing i with
  | nil => rfl
  | cons v values ih =>
    unfold filterDNSRewriteValues
    obtain ⟨err, hx, hy⟩ | ⟨rr, rr', hx, hy, hrr⟩ := cases_of_map_eq (s.filterDNSRewriteResponse_folded req qtype v)
    · rw [hx, hy]
      rfl
    · rw [hx, hy]
      obtain ⟨err, hxs, hys⟩ | ⟨rrs, rrs', hxs, hys, hrrs⟩ := cases_of_map_eq (ih (i + 1))
      · rw [hxs, hys]
        rfl
      · rw [hxs, hys]
        show Except.ok (List.map RR.folded (rr :: rrs)) = Except.ok (List.map RR.folded (rr' :: rrs'))
        rw [List.map_cons, List.map_cons, hrr, hrrs]

theorem filterDNSRewrite_folded (res : Result) :
    (s.filterDNSRewrite req.folded res).map Msg.folded = (s.filterDNSRewrite req res).map Msg.folded := by
  unfold filterDNSRewrite
  dsimp only
  split
  · rfl
  · split
    · exact congrArg Except.ok (reply_folded req _ true rfl rfl)
    · split
      · rfl
      · rename_i dnsrr _ _ response _
        rw [Request.folded_question, Question.folded_qtype]
        obtain ⟨err, hx, hy⟩ | ⟨answer, answer', hx, hy, hanswer⟩ := cases_of_map_eq
          (s.filterDNSRewriteValues_folded req req.question.qtype 0 ((response.lookup req.question.qtype).getD []))
        · rw [hx, hy]
          rfl
        · rw [hx, hy]
          exact congrArg Except.ok (reply_folded req _ true hanswer rfl)

end Handler

/-! ## Stages -/

/-- What is assumed of the filter, the upstreams and `strings.ToLower`: the letters of a name do not matter to them, and
the answers of the upstreams are the same up to the echoed name. -/
structure Handler.CaseBlind (s : Handler) : Prop where
  toLower : ∀ n n' : String, n.toLower = n'.toLower → s.toLower n = s.toLower n'
  checkHost : ∀ host host' qtype setts, host.toLower = host'.toLower →
    (s.checkHost host qtype setts).toOption = (s.checkHost host' qtype setts).toOption
  resolve : ∀ resolve ∈ s.proxy, ∀ req req' ups, req.folded = req'.folded →
    (resolve req ups).toOption.map (Option.map Msg.folded) = (resolve req' ups).toOption.map (Option.map Msg.folded)

/-- The stage does the same for a context and for the folded one. -/
def Blind (f : DnsContext → DnsContext × ResultCode) : Prop :=
  ∀ d, (f d.folded).1.folded = (f d).1.folded ∧ (f d.folded).2 = (f d).2

theorem withoutDot_toLower (n : String) : Handler.withoutDot n.toLower = (Handler.withoutDot n).toLower := by
  rw [← String.toList_inj]
  simp [Handler.withoutDot, toList_toLower, List.map_dropLast]

theorem trimDot_toLower (n : String) : trimDot n.toLower = (trimDot n).toLower := by
  have hdot : n.toLower.toList.getLast? = some '.' ↔ n.toList.getLast? = some '.' := by
    rw [toList_toLower, List.getLast?_map]
    cases n.toList.getLast? with
    | none => simp
    | some c => simp [toLower_eq_of_not_isAlpha (show '.'.isAlpha = false by decide)]
  unfold trimDot
  by_cases h : n.toList.getLast? = some '.'
  · rw [if_pos h, if_pos (hdot.2 h)]
    exact withoutDot_toLower n
  · rw [if_neg h, if_neg (h ∘ hdot.1)]

/-- A context with another answer. -/
theorem folded_with_res {d d' : DnsContext} (h : d.folded = d'.folded) {m m' : Msg} (hm : m.folded = m'.folded) :
    ({ d with res := some m } : DnsContext).folded = ({ d' with res := some m' } : DnsContext).folded := by
  have hres : ({ d with res := some m } : DnsContext).folded = { d.folded with res := some m.folded } := rfl
  rw [hres, h, hm]
  rfl

/-- A context with a blocked answer. -/
theorem folded_with_blocked {d d' : DnsContext} (h : d.folded = d'.folded) {res : Result} {m m' : Msg}
    (hm : m.folded = m'.folded) :
    ({ d with result := res, origResp := some m } : DnsContext).folded =
      ({ d' with result := res, origResp := some m' } : DnsContext).folded := by
  have horig : ({ d with result := res, origResp := some m } : DnsContext).folded =
    { d.folded with result := res, origResp := some m.folded } := rfl
  rw [horig, h, hm]
  rfl

namespace Handler

variable {s : Handler} (h : s.CaseBlind)

include h

theorem CaseBlind.dhcpHostFromRequest (q : Question) : s.dhcpHostFromRequest q.folded = s.dhcpHostFromRequest q := by
  unfold Handler.dhcpHostFromRequest
  have hlower : s.toLower (withoutDot q.name.toLower) = s.toLower (withoutDot q.name) :=
    h.toLower _ _ (by rw [withoutDot_toLower, toLower_toLower])
  rw [Question.folded_name, Question.folded_qtype, hlower]

omit h in
theorem dhcpHostAnswer_folded (req : Request) (ip : Addr) :
    (s.dhcpHostAnswer req.folded ip).map (List.map RR.folded) =
      (s.dhcpHostAnswer req ip).map (List.map RR.folded) := by
  unfold dhcpHostAnswer
  rw [Request.folded_question, Question.folded_qtype]
  split
  · exact congrArg some (s.map_rr_folded req .a [ip])
  · split
    · split
      · rfl
      · rename_i pref _
        cases mapDNS64 pref ip with
        | none => rfl
        | some mapped => exact congrArg some (s.map_rr_folded req .aaaa [mapped])
    · rfl

theorem CaseBlind.processDHCPHosts : Blind s.processDHCPHosts := by
  intro d
  have hhost : s.dhcpHostFromRequest d.folded.req.question = s.dhcpHostFromRequest d.req.question :=
    h.dhcpHostFromRequest d.req.question
  unfold Handler.processDHCPHosts
  dsimp only
  rw [hhost]
  generalize s.dhcpHostFromRequest d.req.question = host
  have hd : ({ d.folded with isDHCPHost := decide (host ≠ "") } : DnsContext).folded =
      ({ d with isDHCPHost := decide (host ≠ "") } : DnsContext).folded := by
    simp [DnsContext.folded, Function.comp_def]
  split
  · exact ⟨hd, rfl⟩
  · have hprivate : d.folded.isPrivateClient = d.isPrivateClient := rfl
    rw [hprivate]
    split
    · exact ⟨folded_with_res hd (s.newMsgNXDOMAIN_folded d.req), rfl⟩
    · split
      · exact ⟨hd, rfl⟩
      · obtain ⟨hx, hy⟩ | ⟨answer, answer', hx, hy, hanswer⟩ :=
          cases_of_option_map_eq (s.dhcpHostAnswer_folded d.req (s.ipByHost host))
        · rw [show s.dhcpHostAnswer d.folded.req (s.ipByHost host) = none from hx, hy]
          exact ⟨hd, rfl⟩
        · rw [show s.dhcpHostAnswer d.folded.req (s.ipByHost host) = some answer from hx, hy]
          exact ⟨folded_with_res hd (replyCompressed_folded d.req hanswer), rfl⟩

omit h in
theorem processDHCPAddrs_blind : Blind s.processDHCPAddrs := by
  intro d
  have hres : d.folded.res.isSome = d.res.isSome := Option.isSome_map
  have hrdns : d.folded.requestedPrivateRDNS = d.requestedPrivateRDNS := rfl
  have hqtype : d.folded.req.question.qtype = d.req.question.qtype := rfl
  unfold processDHCPAddrs
  rw [hres, hrdns, hqtype]
  split
  · exact ⟨d.folded_folded, rfl⟩
  · split
    · exact ⟨d.folded_folded, rfl⟩
    · split
      · exact ⟨d.folded_folded, rfl⟩
      · dsimp only
        split
        · exact ⟨d.folded_folded, rfl⟩
        · exact ⟨folded_with_res d.folded_folded (replyCompressed_folded d.req
            (congrArg (fun rr => [rr]) (s.rr_folded d.req _))), rfl⟩

/-! ### Filtering of the request -/

omit h in
/-- The context before the answer of the filter. -/
theorem folded_with_exchanges (d : DnsContext) (exchanges : List Exchange) :
    ({ d.folded with exchanges := d.folded.exchanges ++ exchanges } : DnsContext).folded =
      ({ d with exchanges := d.exchanges ++ exchanges } : DnsContext).folded := by
  simp [DnsContext.folded, Function.comp_def]

omit h in
theorem filterDNSResult_folded (d : DnsContext) (res : Result) :
    (s.filterDNSResult d.folded res).1.folded = (s.filterDNSResult d res).1.folded ∧
      (s.filterDNSResult d.folded res).2.toOption = (s.filterDNSResult d res).2.toOption := by
  have hreq : d.folded.req = d.req.folded := rfl
  unfold filterDNSResult
  dsimp only
  split
  · exact ⟨by simp [DnsContext.folded, Request.folded, Function.comp_def], rfl⟩
  · split
    · obtain ⟨hm, hexch⟩ := s.genDNSFilterMessage_folded d.req res
      rw [hreq, hexch]
      exact ⟨folded_with_res (folded_with_exchanges d _) hm, rfl⟩
    · split
      · exact ⟨folded_with_res d.folded_folded (s.getCNAMEWithIPs_folded d.req _ _), rfl⟩
      · exact ⟨folded_with_res d.folded_folded (s.getCNAMEWithIPs_folded d.req _ _), rfl⟩
      -- the two reasons for a rewrite rule
      iterate 2
        rw [hreq]
        obtain ⟨err, hx, hy⟩ | ⟨m, m', hx, hy, hm⟩ := cases_of_map_eq (s.filterDNSRewrite_folded d.req res)
        · rw [hx, hy]
          exact ⟨d.folded_folded, rfl⟩
        · rw [hx, hy]
          exact ⟨folded_with_res d.folded_folded hm, rfl⟩
      · exact ⟨d.folded_folded, rfl⟩

theorem CaseBlind.filterDNSRequest (d : DnsContext) :
    (s.filterDNSRequest d.folded).1.folded = (s.filterDNSRequest d).1.folded ∧
      (s.filterDNSRequest d.folded).2.toOption = (s.filterDNSRequest d).2.toOption := by
  have hcheck : (s.checkHost (trimDot d.folded.req.question.name) d.req.question.qtype d.setts).toOption =
      (s.checkHost (trimDot d.req.question.name) d.req.question.qtype d.setts).toOption := by
    refine h.checkHost _ _ _ _ ?_
    show (trimDot d.req.question.name.toLower).toLower = _
    rw [trimDot_toLower, toLower_toLower]
  unfold Handler.filterDNSRequest
  dsimp only
  rw [show d.folded.req.question.qtype = d.req.question.qtype from rfl, show d.folded.setts = d.setts from rfl]
  cases hx : s.checkHost (trimDot d.folded.req.question.name) d.req.question.qtype d.setts with
  | error err =>
    rw [hx] at hcheck
    cases hy : s.checkHost (trimDot d.req.question.name) d.req.question.qtype d.setts with
    | error err' => exact ⟨d.folded_folded, rfl⟩
    | ok res' =>
      rw [hy] at hcheck
      cases hcheck
  | ok res =>
    rw [hx] at hcheck
    cases hy : s.checkHost (trimDot d.req.question.name) d.req.question.qtype d.setts with
    | error err' =>
      rw [hy] at hcheck
      cases hcheck
    | ok res' =>
      rw [hy] at hcheck
      cases hcheck
      exact filterDNSResult_folded { d with checked := some res } res

/-- The end of `processFilteringBeforeRequest`. -/
def filtered : DnsContext × Except String Result → DnsContext × ResultCode
  | (dctx, .error err) => ({ dctx with err := err }, .error)
  | (dctx, .ok res) => ({ dctx with result := res }, .success)

omit h in
theorem filtered_folded {x y : DnsContext × Except String Result} (hd : x.1.folded = y.1.folded)
    (hres : x.2.toOption = y.2.toOption) :
    (filtered x).1.folded = (filtered y).1.folded ∧ (filtered x).2 = (filtered y).2 := by
  obtain ⟨d, r⟩ := x
  obtain ⟨d', r'⟩ := y
  cases r with
  | error err =>
    cases r' with
    | error err' => exact ⟨hd, rfl⟩
    | ok res' => cases hres
  | ok res =>
    cases r' with
    | error err' => cases hres
    | ok res' =>
      cases hres
      exact ⟨congrArg (fun d : DnsContext => { d with result := res }) hd, rfl⟩

theorem CaseBlind.processFilteringBeforeRequest : Blind s.processFilteringBeforeRequest := by
  have heq : ∀ d, s.processFilteringBeforeRequest d =
      if d.res.isSome then ({ d with setts := settsFor d }, .success)
      else filtered (s.filterDNSRequest { d with setts := settsFor d }) := by
    intro d
    unfold Handler.processFilteringBeforeRequest
    dsimp only
    generalize s.filterDNSRequest _ = r
    obtain ⟨d', err | res⟩ := r <;> rfl
  intro d
  have hres : d.folded.res.isSome = d.res.isSome := Option.isSome_map
  have hd : ({ d.folded with setts := settsFor d.folded } : DnsContext) = ({ d with setts := settsFor d } :
    DnsContext).folded := rfl
  rw [heq, heq, hres, hd]
  split
  · exact ⟨DnsContext.folded_folded _, rfl⟩
  · obtain ⟨hctx, hopt⟩ := h.filterDNSRequest { d with setts := settsFor d }
    exact filtered_folded hctx hopt

/-! ### Upstreams -/

/-- The end of `processUpstream`. -/
def answered (dctx : DnsContext) : Except String (Option Msg) → DnsContext × ResultCode
  | .error err => ({ dctx with err := err }, .error)
  | .ok none => ({ dctx with responseFromUpstream := true }, .panic)
  | .ok (some resp) =>
    ({ dctx with
      res := some resp
      upstreamRes := some resp
      responseFromUpstream := true
      responseAD := resp.authenticatedData }, .success)

omit h in
theorem answered_folded {d d' : DnsContext} {r r' : Except String (Option Msg)} (hd : d.folded = d'.folded)
    (hr : r.toOption.map (Option.map Msg.folded) = r'.toOption.map (Option.map Msg.folded)) :
    (answered d r).1.folded = (answered d' r').1.folded ∧ (answered d r).2 = (answered d' r').2 := by
  rcases r with err | _ | m <;> rcases r' with err' | _ | m' <;> try cases hr
  · exact ⟨hd, rfl⟩
  · exact ⟨congrArg (fun d : DnsContext => { d with responseFromUpstream := true }) hd, rfl⟩
  · have hm : m.folded = m'.folded := Option.some.inj (Option.some.inj hr)
    have had : m.authenticatedData = m'.authenticatedData := congrArg (·.authenticatedData) hm
    refine ⟨?_, rfl⟩
    show ({ d.folded with res := some m.folded, upstreamRes := some m.folded, responseFromUpstream := true,
                          responseAD := m.authenticatedData } : DnsContext) = _
    rw [hd, hm, had]
    rfl

omit h in
theorem setCustomUpstream_folded (d : DnsContext) : s.setCustomUpstream d.folded = (s.setCustomUpstream d).folded := by
  have haddr : d.folded.addr = d.addr := rfl
  have hid : d.folded.clientID = d.clientID := rfl
  unfold setCustomUpstream
  rw [haddr, hid]
  split
  · rfl
  · cases s.customUpstreamConfig d.clientID d.addr <;> rfl

theorem CaseBlind.processUpstream : Blind s.processUpstream := by
  intro d
  have hres : d.folded.res.isSome = d.res.isSome := Option.isSome_map
  have hdhcp : d.folded.isDHCPHost = d.isDHCPHost := rfl
  unfold Handler.processUpstream
  rw [hres, hdhcp]
  split
  · exact ⟨d.folded_folded, rfl⟩
  · split
    · exact ⟨folded_with_res d.folded_folded (s.newMsgNXDOMAIN_folded d.req), rfl⟩
    · rw [s.setCustomUpstream_folded]
      generalize s.setCustomUpstream d = d
      cases hproxy : s.proxy with
      | none => exact ⟨congrArg (fun d : DnsContext => { d with err := "" }) d.folded_folded, rfl⟩
      | some resolve =>
        have hanswer := h.resolve resolve hproxy d.req.folded d.req d.customUpstreamConfig (Request.folded_folded _)
        have hd := folded_with_exchanges d [.client d.req.question]
        have hclient : ({ d.folded with exchanges := d.folded.exchanges ++ [.client d.folded.req.question] } :
            DnsContext).folded = ({ d with exchanges := d.exchanges ++ [.client d.req.question] } : DnsContext).folded := by
          rw [← hd]
          simp [DnsContext.folded, Exchange.folded, Function.comp_def]
        exact answered_folded hclient hanswer

/-! ### Filtering of the response -/

omit h

theorem stripRR_folded (rr : RR) : s.stripRR rr.folded = (s.stripRR rr).folded := by
  obtain ⟨name, rrclass, ttl, data⟩ := rr
  cases data with
  | https priority target value =>
    unfold stripRR RR.folded
    dsimp only [RData.folded]
    split <;> rfl
  | _ => rfl

/-- The checks look at the data of a record. -/
theorem checkRR_folded (setts : Settings) (rr : RR) : s.checkRR setts rr.folded = s.checkRR setts rr := by
  obtain ⟨name, rrclass, ttl, data⟩ := rr
  cases data <;> rfl

theorem filterAnswer_folded (setts : Settings) (i : ℕ) (answer : List RR) :
    s.filterAnswer setts i (answer.map RR.folded) =
      ((s.filterAnswer setts i answer).1.map RR.folded, (s.filterAnswer setts i answer).2) := by
  induction answer generalizing i with
  | nil => rfl
  | cons rr answer ih =>
    rw [List.map_cons]
    unfold filterAnswer
    dsimp only
    rw [stripRR_folded, checkRR_folded, ih]
    cases s.checkRR setts (s.stripRR rr) with
    | error err => rfl
    | ok res =>
      dsimp only
      split <;> rfl

theorem filterDNSResponse_folded (d : DnsContext) (resp : Msg) :
    (s.filterDNSResponse d.folded resp.folded).1.folded = (s.filterDNSResponse d resp).1.folded ∧
      (s.filterDNSResponse d.folded resp.folded).2 = (s.filterDNSResponse d resp).2 := by
  have hsetts : d.folded.setts = d.setts := rfl
  have hreq : d.folded.req = d.req.folded := rfl
  have hanswer : resp.folded.answer = resp.answer.map RR.folded := rfl
  unfold filterDNSResponse
  rw [hsetts, hanswer, hreq, filterAnswer_folded]
  split
  · exact ⟨d.folded_folded, rfl⟩
  · obtain ⟨answer, outcome⟩ := s.filterAnswer d.setts 0 resp.answer
    have hm : ({ resp.folded with answer := answer.map RR.folded } : Msg).folded =
        ({ resp with answer := answer } : Msg).folded := by
      simp [Msg.folded, Function.comp_def]
    rcases outcome with err | _ | res
    · exact ⟨folded_with_res d.folded_folded hm, rfl⟩
    · exact ⟨folded_with_res d.folded_folded hm, rfl⟩
    · obtain ⟨hfiltered, hexch⟩ := s.genDNSFilterMessage_folded d.req res
      dsimp only
      rw [hexch]
      refine ⟨?_, rfl⟩
      have hd := folded_with_exchanges d (s.genDNSFilterMessage d.req res).2
      exact folded_with_res (folded_with_blocked (folded_with_exchanges d _) hm) hfiltered

theorem filterAfterResponse_blind : Blind s.filterAfterResponse := by
  intro d
  have hprotection : d.folded.protectionEnabled = d.protectionEnabled := rfl
  have hupstream : d.folded.responseFromUpstream = d.responseFromUpstream := rfl
  have hres : d.folded.res = d.res.map Msg.folded := rfl
  unfold filterAfterResponse
  rw [hprotection, hupstream, hres]
  split
  · exact ⟨d.folded_folded, rfl⟩
  · cases d.res with
    | none => exact ⟨d.folded_folded, rfl⟩
    | some resp =>
      obtain ⟨hd, hout⟩ := s.filterDNSResponse_folded d resp
      dsimp only [Option.map_some]
      generalize s.filterDNSResponse d.folded resp.folded = x at hd hout ⊢
      generalize s.filterDNSResponse d resp = y at hd hout ⊢
      obtain ⟨d₁, r₁⟩ := x
      obtain ⟨d₂, r₂⟩ := y
      cases hout
      cases r₁ <;> exact ⟨hd, rfl⟩

/-- The answer with the original question put back. -/
theorem restored_folded (req : Request) (resp : Msg) (cname : String) (qs : List Question) :
    ({ resp.folded with
      question := req.folded.question :: qs.map Question.folded
      answer := s.genAnswerCNAME req.folded cname :: resp.folded.answer } : Msg).folded =
    ({ resp with question := req.question :: qs, answer := s.genAnswerCNAME req cname :: resp.answer } : Msg).folded := by
  have hcname : (s.genAnswerCNAME req.folded cname).folded = (s.genAnswerCNAME req cname).folded := s.rr_folded req _
  simp [Msg.folded, Function.comp_def, hcname]

theorem restoreQuestion_blind : Blind s.restoreQuestion := by
  intro d
  have hres : d.folded.res = d.res.map Msg.folded := rfl
  unfold restoreQuestion
  rw [hres]
  cases d.res with
  | none => exact ⟨d.folded_folded, rfl⟩
  | some resp =>
    have hquestion : resp.folded.question = resp.question.map Question.folded := rfl
    dsimp only [Option.map_some]
    rw [hquestion]
    cases hqs : resp.question with
    | nil => exact ⟨d.folded_folded, rfl⟩
    | cons q qs =>
      have hd : ({ d.folded with req := ({ d.req with question := d.origQuestion } : Request).folded } :
          DnsContext).folded = ({ d with req := { d.req with question := d.origQuestion } } : DnsContext).folded := by
        simp [DnsContext.folded, Function.comp_def]
      exact ⟨folded_with_res hd (restored_folded { d.req with question := d.origQuestion } resp _ qs), rfl⟩

theorem processFilteringAfterResponse_blind : Blind s.processFilteringAfterResponse := by
  intro d
  have hreason : d.folded.result = d.result := rfl
  have hname : d.folded.origQuestion.name = "" ↔ d.origQuestion.name = "" := toLower_eq_empty
  unfold processFilteringAfterResponse
  rw [hreason]
  split
  · exact ⟨d.folded_folded, rfl⟩
  iterate 3
    by_cases hempty : d.origQuestion.name = ""
    · rw [if_pos hempty, if_pos (hname.2 hempty)]
      exact ⟨d.folded_folded, rfl⟩
    · rw [if_neg hempty, if_neg (hempty ∘ hname.1)]
      exact restoreQuestion_blind d
  · exact filterAfterResponse_blind d

end Handler

end AdGuardHome.Dnsforward
