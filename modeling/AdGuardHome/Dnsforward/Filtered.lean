import AdGuardHome.Dnsforward.Answers

/-!
# No way around the filters

A request that `CheckHost` blocks is answered with the generated message and is not passed to the upstreams.  An answer
of the upstreams to a request that is neither allowed nor rewritten is passed on only if no name, address or hint in it
is blocked.  The hints are those that are left when IPv6 is disabled.
-/

namespace AdGuardHome.Dnsforward

open AdGuardHome.Net AdGuardHome.Filtering AdGuardHome.Aghnet AdGuardHome.Lib.Stages

namespace Handler

variable (s : Handler) (setts : Settings)

/-! ## The checks of an answer -/

/-- What `CheckHostRules` is asked about a record: the CNAME target, the address, or the addresses of the hints. -/
def rrChecks (rr : RR) : List (String × UInt16) :=
  match rr.data with
  | .cname target => [(trimDot target, RRType.cname)]
  | .a ip => [(s.ipString ip, RRType.a)]
  | .aaaa ip => [(s.ipString ip, RRType.aaaa)]
  | .https _ _ value => (value.flatMap hintIPs).map fun h => (s.ipString h, RRType.https)
  | _ => []

/-- A check that blocks or fails, `none` for one that passes. -/
def decisive (c : String × UInt16) : Option (Except String Result) :=
  match s.checkHostRules c.1 c.2 setts with
  | .error err => some (.error err)
  | .ok res => if res.isFiltered then some (.ok res) else none

/-- The first check of the records that blocks or fails. -/
def verdict (answer : List RR) : Option (Except String Result) :=
  (answer.flatMap s.rrChecks).findSome? (s.decisive setts)

/-- The result of a scan agrees with the first decisive check. -/
inductive Agrees : Option (Except String Result) → Except String (Option Result) → Prop
  | passes {r : Option Result} (h : (r.map Result.isFiltered).getD false = false) : Agrees none (.ok r)
  | blocks {res : Result} (h : res.isFiltered = true) : Agrees (some (.ok res)) (.ok (some res))
  | fails {err err' : String} : Agrees (some (.error err)) (.error err')

variable {s}

theorem filterSVCBHint_agrees (hint : List Addr) :
    Agrees ((hint.map fun h => (s.ipString h, RRType.https)).findSome? (s.decisive setts))
      (s.filterSVCBHint setts hint) := by
  induction hint with
  | nil => exact .passes rfl
  | cons h hint ih =>
    rw [List.map_cons, List.findSome?_cons]
    unfold filterSVCBHint decisive
    dsimp only
    cases s.checkHostRules (s.ipString h) RRType.https setts with
    | error err => exact .fails
    | ok res =>
      dsimp only
      by_cases hf : res.isFiltered = true
      · rw [if_pos hf, if_pos hf]
        exact .blocks hf
      · rw [if_neg hf, if_neg hf]
        exact ih

theorem filterSVCBHint_ok_isFiltered {setts : Settings} {hint : List Addr} {res : Result}
    (h : s.filterSVCBHint setts hint = .ok (some res)) : res.isFiltered = true := by
  induction hint with
  | nil => cases h
  | cons a hint ih =>
    unfold filterSVCBHint at h
    split at h
    · cases h
    · split at h
      · rename_i hf
        cases h
        exact hf
      · exact ih h

theorem filterHTTPSValues_agrees (value : List SVCBKeyValue) :
    Agrees (((value.flatMap hintIPs).map fun h => (s.ipString h, RRType.https)).findSome? (s.decisive setts))
      (s.filterHTTPSValues setts value) := by
  induction value with
  | nil => exact .passes rfl
  | cons kv value ih =>
    rw [List.flatMap_cons, List.map_append, List.findSome?_append]
    have hhint := filterSVCBHint_agrees (s := s) setts (hintIPs kv)
    unfold filterHTTPSValues
    generalize ((hintIPs kv).map fun h => (s.ipString h, RRType.https)).findSome? (s.decisive setts) = v at hhint
    cases hscan : s.filterSVCBHint setts (hintIPs kv) with
    | error err =>
      rw [hscan] at hhint
      cases hhint
      exact .fails
    | ok r =>
      rw [hscan] at hhint
      cases r with
      | some res =>
        have hf := filterSVCBHint_ok_isFiltered hscan
        cases hhint with
        | passes h => exact absurd hf (by simpa using h)
        | blocks h => exact .blocks h
      | none =>
        cases hhint
        exact ih

theorem checkRR_agrees (rr : RR) : Agrees ((s.rrChecks rr).findSome? (s.decisive setts)) (s.checkRR setts rr) := by
  have hsingle : ∀ host rrtype, Agrees ([(host, rrtype)].findSome? (s.decisive setts))
      ((s.checkHostRules host rrtype setts).map some) := by
    intro host rrtype
    rw [List.findSome?_cons, List.findSome?_nil]
    unfold decisive
    dsimp only
    cases s.checkHostRules host rrtype setts with
    | error err => exact .fails
    | ok res =>
      dsimp only
      by_cases hf : res.isFiltered = true
      · rw [if_pos hf]
        exact .blocks hf
      · rw [if_neg hf]
        exact .passes (by simpa using hf)
  unfold rrChecks checkRR
  cases rr.data with
  | cname target => exact hsingle ..
  | a ip => exact hsingle ..
  | aaaa ip => exact hsingle ..
  | https priority target value => exact filterHTTPSValues_agrees setts value
  | _ => exact .passes rfl

/-- The records after the loop has gone through the first `n` of them. -/
def scanned (s : Handler) (n : ℕ) (answer : List RR) : List RR := (answer.take n).map s.stripRR ++ answer.drop n

theorem filterAnswer_spec (i : ℕ) (answer : List RR) :
    match s.verdict setts (answer.map s.stripRR) with
    | none => s.filterAnswer setts i answer = (answer.map s.stripRR, .ok none)
    | some (.ok res) => ∃ n, s.filterAnswer setts i answer = (s.scanned n answer, .ok (some res))
    | some (.error _) => ∃ n err, s.filterAnswer setts i answer = (s.scanned n answer, .error err) := by
  induction answer generalizing i with
  | nil => rfl
  | cons a answer ih =>
    have hcheck := checkRR_agrees (s := s) setts (s.stripRR a)
    unfold verdict
    rw [List.map_cons, List.flatMap_cons, List.findSome?_append]
    unfold filterAnswer
    dsimp only
    generalize (s.rrChecks (s.stripRR a)).findSome? (s.decisive setts) = v at hcheck ⊢
    generalize s.checkRR setts (s.stripRR a) = r at hcheck ⊢
    cases hcheck with
    | fails => exact ⟨1, _, rfl⟩
    | blocks hf =>
      refine ⟨1, ?_⟩
      dsimp only [Option.map_some, Option.getD_some]
      rw [if_pos hf]
      rfl
    | passes hf =>
      dsimp only
      rw [if_neg (by simpa using hf)]
      have hrest := ih (i + 1)
      unfold verdict at hrest
      rw [Option.none_or]
      split at hrest
      · rw [hrest]
      · obtain ⟨n, hn⟩ := hrest
        rw [hn]
        exact ⟨n + 1, rfl⟩
      · obtain ⟨n, err, hn⟩ := hrest
        rw [hn]
        exact ⟨n + 1, err, rfl⟩

/-! ## What the filters guarantee -/

/-- A request that `CheckHost` has blocked is answered with the generated message.  The only exchanges are those for
the replacement of the host. -/
def BlocksRequest (s : Handler) (pctx : ProxyContext) (d : DnsContext) (o : Served) : Prop :=
  ∀ res, d.checked = some res → res.isFiltered = true → isRewrittenCNAME res = false →
    o = .nil ∧ (∀ q, Exchange.client q ∉ d.exchanges) ∧
      d.res = some { (s.genDNSFilterMessage pctx.req res).1 with compress := true }

/-- The reasons that let an answer of the upstreams through unchecked. -/
def Unchecked (res : Result) : Prop :=
  res.reason = .notFilteredAllowList ∨ res.reason = .rewritten ∨ res.reason = .rewrittenRule ∨
    res.reason = .filteredSafeSearch

/-- The answer `m` of the upstreams is passed on if every check of it passes, and blocked by the first check that does
not.  If that check fails, so does the request. -/
def AnswerChecked (s : Handler) (pctx : ProxyContext) (d : DnsContext) (o : Served) (res : Result) (m : Msg) : Prop :=
  match s.verdict d.setts (m.answer.map s.stripRR) with
  | none => o = .nil ∧ d.res = some { m with answer := m.answer.map s.stripRR, compress := true } ∧
      d.origResp = none ∧ d.result = res
  | some (.ok blocked) => o = .nil ∧ d.result = blocked ∧
      d.res = some { (s.genDNSFilterMessage pctx.req blocked).1 with compress := true } ∧
      ∃ n, d.origResp = some { m with answer := s.scanned n m.answer }
  | some (.error _) => ∃ err, o = .err err

/-- With protection and filtering enabled, an answer is checked unless the request was allowed or rewritten. -/
def ChecksAnswer (s : Handler) (pctx : ProxyContext) (d : DnsContext) (o : Served) : Prop :=
  ∀ res m, d.checked = some res → d.upstreamRes = some m → ¬Unchecked res → d.protectionEnabled = true →
    d.setts.filteringEnabled = true → s.AnswerChecked pctx d o res m

/-- Both at the end of a run. -/
def Guarded (s : Handler) (pctx : ProxyContext) (d : DnsContext) (o : Served) : Prop :=
  s.BlocksRequest pctx d o ∧ s.ChecksAnswer pctx d o

/-! ## The stages -/

variable {pctx : ProxyContext}

/-- A context with nothing of the filters and of the upstreams yet. -/
structure Fresh (pctx : ProxyContext) (d : DnsContext) : Prop where
  req : d.req = pctx.req
  checked : d.checked = none
  exchanges : d.exchanges = []
  upstreamRes : d.upstreamRes = none
  origResp : d.origResp = none
  orig : d.origQuestion.name = ""
  notFromUpstream : d.responseFromUpstream = false

/-- The context of a request that neither is blocked nor gets an answer of the upstreams. -/
structure Idle (d : DnsContext) : Prop where
  checked : ∀ res, d.checked = some res → res.isFiltered = true → isRewrittenCNAME res = true
  upstreamRes : d.upstreamRes = none

theorem Idle.guarded {d : DnsContext} (h : Idle d) (o : Served) : s.Guarded pctx d o := by
  refine ⟨fun res hres hf hcname => ?_, fun res m _ hm => ?_⟩
  · exact absurd (h.checked res hres hf) (by simp [hcname])
  · exact nomatch h.upstreamRes.symm.trans hm

theorem Fresh.idle {d : DnsContext} (h : Fresh pctx d) : Idle d :=
  ⟨fun _ hres => (nomatch h.checked.symm.trans hres), h.upstreamRes⟩

/-- The context of a blocked request. -/
structure Stopped (s : Handler) (pctx : ProxyContext) (d : DnsContext) : Prop where
  checked : d.checked = some d.result
  isFiltered : d.result.isFiltered = true
  notCNAME : isRewrittenCNAME d.result = false
  res : d.res = some (s.genDNSFilterMessage pctx.req d.result).1
  exchanges : ∀ q, Exchange.client q ∉ d.exchanges
  upstreamRes : d.upstreamRes = none
  orig : d.origQuestion.name = ""
  notFromUpstream : d.responseFromUpstream = false

/-- The context of a request that may go to the upstreams. -/
structure Open (pctx : ProxyContext) (d : DnsContext) : Prop where
  checked : d.checked = some d.result
  notBlocked : d.result.isFiltered = true → isRewrittenCNAME d.result = true
  req : isRewrittenCNAME d.result = false → d.req = pctx.req
  origResp : d.origResp = none

/-- The context with the answer of the upstreams. -/
structure Exchanged (pctx : ProxyContext) (d : DnsContext) : Prop extends Open pctx d where
  res : d.res = d.upstreamRes
  answered : ∃ m, d.upstreamRes = some m
  fromUpstream : d.responseFromUpstream = true

theorem genBlockedHost_exchanges (req : Request) (newAddr : String) (q : Question) :
    Exchange.client q ∉ (s.genBlockedHost req newAddr).2 := by
  unfold genBlockedHost
  split
  · exact List.not_mem_nil
  · split
    · exact List.not_mem_nil
    · split
      · exact List.not_mem_nil
      · simp

theorem genDNSFilterMessage_exchanges (req : Request) (res : Result) (q : Question) :
    Exchange.client q ∉ (s.genDNSFilterMessage req res).2 := by
  unfold genDNSFilterMessage
  dsimp only
  split
  · split <;> exact List.not_mem_nil
  · split
    · exact genBlockedHost_exchanges _ _ _
    · exact genBlockedHost_exchanges _ _ _
    · exact List.not_mem_nil
    · exact List.not_mem_nil

theorem processInitial_fresh {d : DnsContext} (h : Fresh pctx d) : Fresh pctx (s.processInitial d).1 := by
  obtain ⟨h₁, h₂, h₃, h₄, h₅, h₆, h₇⟩ := h
  unfold processInitial
  dsimp only
  repeat' split
  all_goals exact ⟨h₁, h₂, h₃, h₄, h₅, h₆, h₇⟩

theorem processDDRQuery_fresh {d : DnsContext} (h : Fresh pctx d) : Fresh pctx (s.processDDRQuery d).1 := by
  obtain ⟨h₁, h₂, h₃, h₄, h₅, h₆, h₇⟩ := h
  unfold processDDRQuery
  split
  all_goals exact ⟨h₁, h₂, h₃, h₄, h₅, h₆, h₇⟩

theorem processDHCPHosts_fresh {d : DnsContext} (h : Fresh pctx d) : Fresh pctx (s.processDHCPHosts d).1 := by
  obtain ⟨h₁, h₂, h₃, h₄, h₅, h₆, h₇⟩ := h
  unfold processDHCPHosts
  dsimp only
  repeat' split
  all_goals exact ⟨h₁, h₂, h₃, h₄, h₅, h₆, h₇⟩

theorem processDHCPAddrs_fresh {d : DnsContext} (h : Fresh pctx d) : Fresh pctx (s.processDHCPAddrs d).1 := by
  obtain ⟨h₁, h₂, h₃, h₄, h₅, h₆, h₇⟩ := h
  unfold processDHCPAddrs
  dsimp only
  repeat' split
  all_goals exact ⟨h₁, h₂, h₃, h₄, h₅, h₆, h₇⟩

/-- A stage before the filtering. -/
theorem fresh_leads {f : DnsContext → DnsContext × ResultCode} (h : ∀ d, Fresh pctx d → Fresh pctx (f d).1) :
    Leads ends f (Fresh pctx) (Fresh pctx) (s.Guarded pctx) := fun d hd =>
  Post.of_forall (h d hd) fun o => (h d hd).idle.guarded o

/-- What `processFilteringBeforeRequest` makes of a fresh context. -/
def Decided (s : Handler) (pctx : ProxyContext) (d : DnsContext) : Prop :=
  (Idle d ∧ d.res.isSome = true) ∨ Stopped s pctx d ∨ (Open pctx d ∧ d.res = none ∧ d.upstreamRes = none)

/-- The same for the result of `filterDNSRequest`. -/
def Decides (s : Handler) (pctx : ProxyContext) : DnsContext × Except String Result → Prop
  | (d, .error _) => Idle d
  | (d, .ok res) => Decided s pctx { d with result := res }

theorem filterDNSResult_decides {d : DnsContext} {res : Result} (h : Fresh pctx { d with checked := none })
    (hchecked : d.checked = some res) (hnone : d.res = none) : Decides s pctx (s.filterDNSResult d res) := by
  have hidle : res.isFiltered = false → ∀ res', d.checked = some res' → res'.isFiltered = true →
      isRewrittenCNAME res' = true := by
    intro hf res' hres' hf'
    cases hchecked.symm.trans hres'
    exact Bool.noConfusion (hf.symm.trans hf')
  unfold filterDNSResult
  dsimp only
  split
  · rename_i hcname
    refine Or.inr (Or.inr ⟨⟨hchecked, fun _ => hcname, fun hf => ?_, h.origResp⟩, hnone, h.upstreamRes⟩)
    exact Bool.noConfusion (hcname.symm.trans hf)
  · rename_i hcname
    have hcname : isRewrittenCNAME res = false := by simpa using hcname
    split
    · rename_i hf
      refine Or.inr (Or.inl ⟨hchecked, hf, hcname, ?_, ?_, h.upstreamRes, h.orig, h.notFromUpstream⟩)
      · rw [← h.req]
      · intro q
        have hex : d.exchanges = [] := h.exchanges
        simpa [hex] using genDNSFilterMessage_exchanges d.req res q
    · rename_i hf
      have hidle := hidle (by simpa using hf)
      split
      · exact Or.inl ⟨⟨hidle, h.upstreamRes⟩, rfl⟩
      · exact Or.inl ⟨⟨hidle, h.upstreamRes⟩, rfl⟩
      · split
        · exact ⟨hidle, h.upstreamRes⟩
        · exact Or.inl ⟨⟨hidle, h.upstreamRes⟩, rfl⟩
      · split
        · exact ⟨hidle, h.upstreamRes⟩
        · exact Or.inl ⟨⟨hidle, h.upstreamRes⟩, rfl⟩
      · exact Or.inr (Or.inr ⟨⟨hchecked, fun hf' => absurd hf' hf, fun _ => h.req, h.origResp⟩, hnone,
          h.upstreamRes⟩)

theorem processFilteringBeforeRequest_decides :
    Leads ends s.processFilteringBeforeRequest (Fresh pctx) (Decided s pctx) (s.Guarded pctx) := by
  intro d h
  have hidle := h.idle
  unfold processFilteringBeforeRequest
  dsimp only
  split
  · rename_i hres
    exact Or.inl ⟨⟨hidle.checked, hidle.upstreamRes⟩, hres⟩
  · rename_i hres
    unfold filterDNSRequest
    dsimp only
    cases s.checkHost (trimDot d.req.question.name) d.req.question.qtype (settsFor d) with
    | error err =>
      refine Idle.guarded ⟨?_, ?_⟩ _
      · exact hidle.checked
      · exact hidle.upstreamRes
    | ok res =>
      have hdecides : Decides s pctx (s.filterDNSResult { d with setts := settsFor d, checked := some res } res) :=
        filterDNSResult_decides ⟨h.req, rfl, h.exchanges, h.upstreamRes, h.origResp, h.orig, h.notFromUpstream⟩ rfl
          (by simpa using hres)
      dsimp only
      split
      · rename_i d' err heq
        rw [heq] at hdecides
        exact Idle.guarded (d := { d' with err := err }) ⟨hdecides.checked, hdecides.upstreamRes⟩ _
      · rename_i d' res' heq
        rw [heq] at hdecides
        exact hdecides

/-- What `processUpstream` makes of a decided context. -/
def Tried (s : Handler) (pctx : ProxyContext) (d : DnsContext) : Prop := Idle d ∨ Stopped s pctx d ∨ Exchanged pctx d

theorem processUpstream_tries :
    Leads ends s.processUpstream (Decided s pctx) (Tried s pctx) (s.Guarded pctx) := by
  rintro d (⟨hidle, hres⟩ | hstopped | ⟨hopen, hres, hup⟩)
  · unfold processUpstream
    rw [if_pos hres]
    exact Or.inl hidle
  · unfold processUpstream
    rw [if_pos (by rw [hstopped.res]; rfl)]
    exact Or.inr (Or.inl hstopped)
  · have hguarded : ∀ d' : DnsContext, d'.checked = d.checked → d'.upstreamRes = none → ∀ o, s.Guarded pctx d' o := by
      intro d' hchecked hup'
      refine Idle.guarded ⟨fun res hres => ?_, hup'⟩
      cases hopen.checked.symm.trans (hchecked.symm.trans hres)
      exact hopen.notBlocked
    have hcustom : ∃ ups, s.setCustomUpstream d = { d with customUpstreamConfig := ups } := by
      unfold setCustomUpstream
      split
      · exact ⟨_, rfl⟩
      · split <;> exact ⟨_, rfl⟩
    obtain ⟨ups, hcustom⟩ := hcustom
    unfold processUpstream
    rw [if_neg (by simp [hres]), hcustom]
    split
    · exact hguarded _ (by rfl) (by exact hup) _
    · dsimp only
      split
      · exact hguarded _ (by rfl) (by exact hup) _
      · split
        · exact hguarded _ (by rfl) (by exact hup) _
        · exact hguarded _ (by rfl) (by exact hup) _
        · rename_i resp hresp
          exact Or.inr (Or.inr ⟨⟨hopen.checked, hopen.notBlocked, hopen.req, hopen.origResp⟩, rfl, ⟨resp, rfl⟩, rfl⟩)

theorem filterDNSResponse_frame (d : DnsContext) (resp : Msg) :
    (s.filterDNSResponse d resp).1.checked = d.checked ∧
      (s.filterDNSResponse d resp).1.upstreamRes = d.upstreamRes := by
  unfold filterDNSResponse
  split
  · exact ⟨rfl, rfl⟩
  · dsimp only
    split <;> exact ⟨rfl, rfl⟩

/-- The stage keeps what the earlier ones have recorded. -/
theorem processFilteringAfterResponse_frame (d : DnsContext) :
    (s.processFilteringAfterResponse d).1.checked = d.checked ∧
      (s.processFilteringAfterResponse d).1.upstreamRes = d.upstreamRes := by
  have hafter : (s.filterAfterResponse d).1.checked = d.checked ∧
      (s.filterAfterResponse d).1.upstreamRes = d.upstreamRes := by
    unfold filterAfterResponse
    split
    · exact ⟨rfl, rfl⟩
    · split
      · exact ⟨rfl, rfl⟩
      · rename_i resp _
        have hframe := filterDNSResponse_frame (s := s) d resp
        split
        all_goals
          rename_i heq
          rw [heq] at hframe
          exact hframe
  have hrestore : (s.restoreQuestion d).1.checked = d.checked ∧
      (s.restoreQuestion d).1.upstreamRes = d.upstreamRes := by
    unfold restoreQuestion
    dsimp only
    repeat' split
    all_goals exact ⟨rfl, rfl⟩
  unfold processFilteringAfterResponse
  split
  · exact ⟨rfl, rfl⟩
  · split
    · exact ⟨rfl, rfl⟩
    · exact hrestore
  · split
    · exact ⟨rfl, rfl⟩
    · exact hrestore
  · split
    · exact ⟨rfl, rfl⟩
    · exact hrestore
  · exact hafter

theorem Idle.afterResponse {d : DnsContext} (h : Idle d) :
    Post ends (fun d => s.Guarded pctx (compressed d).1 .nil) (s.Guarded pctx) (s.processFilteringAfterResponse d) := by
  obtain ⟨hchecked, hup⟩ := processFilteringAfterResponse_frame (s := s) d
  have hidle : Idle (s.processFilteringAfterResponse d).1 := by
    refine ⟨?_, hup.trans h.upstreamRes⟩
    rw [hchecked]
    exact h.checked
  exact Post.of_forall (Idle.guarded (d := (compressed _).1) ⟨hidle.checked, hidle.upstreamRes⟩ _) hidle.guarded

theorem Stopped.afterResponse {d : DnsContext} (h : Stopped s pctx d) :
    Post ends (fun d => s.Guarded pctx (compressed d).1 .nil) (s.Guarded pctx) (s.processFilteringAfterResponse d) := by
  have hsame : s.processFilteringAfterResponse d = (d, .success) := by
    unfold processFilteringAfterResponse filterAfterResponse
    have hfrom : ¬d.protectionEnabled = true ∨ ¬d.responseFromUpstream = true := Or.inr (by simp [h.notFromUpstream])
    rw [if_pos h.orig]
    split
    · rfl
    · rfl
    · rfl
    · rfl
    · exact if_pos (by simpa using hfrom)
  rw [hsame]
  refine ⟨fun res hres _ _ => ?_, fun res m _ hm => nomatch h.upstreamRes.symm.trans hm⟩
  cases h.checked.symm.trans hres
  refine ⟨rfl, h.exchanges, ?_⟩
  dsimp only [compressed]
  rw [h.res]
  rfl

theorem Exchanged.guarded_of_unchecked {d d' : DnsContext} (h : Exchanged pctx d) (hunchecked : Unchecked d.result)
    (hchecked : d'.checked = d.checked) (o : Served) : s.Guarded pctx d' o := by
  refine ⟨fun res hres hf hcname => ?_, fun res m hres _ hnot => ?_⟩
  · cases h.checked.symm.trans (hchecked.symm.trans hres)
    exact Bool.noConfusion ((h.notBlocked hf).symm.trans hcname)
  · cases h.checked.symm.trans (hchecked.symm.trans hres)
    exact absurd hunchecked hnot

/-- A rewrite to a canonical name is among the reasons that skip the checks. -/
theorem unchecked_of_isRewrittenCNAME {res : Result} (h : isRewrittenCNAME res = true) : Unchecked res := by
  unfold isRewrittenCNAME at h
  unfold Unchecked
  split at h
  · rename_i hreason
    exact Or.inr (Or.inr (Or.inr hreason))
  · rename_i hreason
    exact Or.inr (Or.inl hreason)
  · rename_i hreason
    exact Or.inr (Or.inr (Or.inl hreason))
  · cases h

theorem processFilteringAfterResponse_of_checked {d : DnsContext} (h : ¬Unchecked d.result) :
    s.processFilteringAfterResponse d = s.filterAfterResponse d := by
  unfold Unchecked at h
  unfold processFilteringAfterResponse
  split
  · rename_i hreason
    exact absurd (Or.inl hreason) h
  · rename_i hreason
    exact absurd (Or.inr (Or.inl hreason)) h
  · rename_i hreason
    exact absurd (Or.inr (Or.inr (Or.inl hreason))) h
  · rename_i hreason
    exact absurd (Or.inr (Or.inr (Or.inr hreason))) h
  · rfl

/-- A request with an answer of the upstreams was not blocked, so only the checks of the answer matter. -/
theorem Exchanged.guarded {d d' : DnsContext} {m : Msg} {o : Served} (h : Exchanged pctx d)
    (hcname : isRewrittenCNAME d.result = false) (hm : d.upstreamRes = some m) (hchecked : d'.checked = d.checked)
    (hup : d'.upstreamRes = d.upstreamRes)
    (hanswer : d'.protectionEnabled = true → d'.setts.filteringEnabled = true →
      s.AnswerChecked pctx d' o d.result m) : s.Guarded pctx d' o := by
  refine ⟨fun res hres hf _ => ?_, fun res m' hres hm' _ hprot hfilt => ?_⟩
  · cases h.checked.symm.trans (hchecked.symm.trans hres)
    exact Bool.noConfusion ((h.notBlocked hf).symm.trans hcname)
  · cases h.checked.symm.trans (hchecked.symm.trans hres)
    cases hm.symm.trans (hup.symm.trans hm')
    exact hanswer hprot hfilt

theorem Exchanged.filterAfterResponse {d : DnsContext} (h : Exchanged pctx d)
    (hcname : isRewrittenCNAME d.result = false) :
    Post ends (fun d => s.Guarded pctx (compressed d).1 .nil) (s.Guarded pctx) (s.filterAfterResponse d) := by
  obtain ⟨m, hm⟩ := h.answered
  have hres : d.res = some m := h.res.trans hm
  have hreq : d.req = pctx.req := h.req hcname
  unfold Handler.filterAfterResponse
  by_cases hprot : d.protectionEnabled = true
  · rw [if_neg (by simp [hprot, h.fromUpstream]), hres]
    dsimp only
    unfold filterDNSResponse
    by_cases hfilt : d.setts.filteringEnabled = true
    · rw [if_neg (by simp [hfilt])]
      dsimp only
      have hspec := filterAnswer_spec (s := s) d.setts 0 m.answer
      split at hspec
      · rename_i hverdict
        rw [hspec]
        refine h.guarded hcname hm rfl rfl fun _ _ => ?_
        dsimp only [AnswerChecked, compressed]
        rw [hverdict]
        exact ⟨rfl, rfl, h.origResp, rfl⟩
      · rename_i res hverdict
        obtain ⟨n, hn⟩ := hspec
        rw [hn]
        refine h.guarded hcname hm rfl rfl fun _ _ => ?_
        dsimp only [AnswerChecked, compressed]
        rw [hverdict, hreq]
        exact ⟨rfl, rfl, rfl, n, rfl⟩
      · rename_i err hverdict
        obtain ⟨n, err', hn⟩ := hspec
        rw [hn]
        refine h.guarded hcname hm rfl rfl fun _ _ => ?_
        dsimp only [AnswerChecked]
        rw [hverdict]
        exact ⟨err', rfl⟩
    · rw [if_pos (by simpa using hfilt)]
      exact h.guarded hcname hm rfl rfl fun _ hf => absurd hf hfilt
  · rw [if_pos (by simp [hprot])]
    exact h.guarded hcname hm rfl rfl fun hp => absurd hp hprot

theorem Exchanged.afterResponse {d : DnsContext} (h : Exchanged pctx d) :
    Post ends (fun d => s.Guarded pctx (compressed d).1 .nil) (s.Guarded pctx) (s.processFilteringAfterResponse d) := by
  by_cases hunchecked : Unchecked d.result
  · have hchecked := (processFilteringAfterResponse_frame (s := s) d).1
    refine Post.of_forall ?_ (h.guarded_of_unchecked hunchecked hchecked)
    exact h.guarded_of_unchecked hunchecked (by exact hchecked) _
  · rw [processFilteringAfterResponse_of_checked hunchecked]
    have hcname : isRewrittenCNAME d.result = false := by
      rw [← Bool.not_eq_true]
      exact fun hc => hunchecked (unchecked_of_isRewrittenCNAME hc)
    exact h.filterAfterResponse hcname

theorem processFilteringAfterResponse_guards :
    Leads ends s.processFilteringAfterResponse (Tried s pctx) (fun d => s.Guarded pctx (compressed d).1 .nil)
      (s.Guarded pctx) := by
  rintro d (h | h | h)
  · exact h.afterResponse
  · exact h.afterResponse
  · exact h.afterResponse

/-- Whatever the filters, the upstreams and the leases are, no request and no answer gets around the filters. -/
theorem serveDNS_guarded (s : Handler) (pctx : ProxyContext) :
    s.Guarded pctx (s.serveDNS pctx).1 (s.serveDNS pctx).2 := by
  have hends : Ends ends compressed s.mods (Fresh pctx) (s.Guarded pctx) :=
    Ends.cons (fresh_leads fun _ => processInitial_fresh) (Ends.cons (fresh_leads fun _ => processDDRQuery_fresh)
      (Ends.cons (fresh_leads fun _ => processDHCPHosts_fresh) (Ends.cons (fresh_leads fun _ => processDHCPAddrs_fresh)
      (Ends.cons processFilteringBeforeRequest_decides (Ends.cons processUpstream_tries
      (Ends.cons processFilteringAfterResponse_guards (Ends.nil fun _ h => h)))))))
  exact hends _ ⟨rfl, rfl, rfl, rfl, rfl, rfl, rfl⟩

end Handler

/-- An answer with an IPv6 hint. -/
def hintedAnswer (q : Question) : Msg :=
  { question := [q]
    answer := [⟨q.name, 1, 300, .https 1 "." [.ipv6Hint [.v6 0x20010db8000000000000000000000001 ""]]⟩] }

/-- A server with IPv6 disabled and a rule that blocks the address of that hint. -/
def hintHandler : Handler :=
  { lanHandler with
    aaaaDisabled := true
    checkHostRules := fun host _ _ =>
      .ok (if host = "2001:db8::1" then { reason := .filteredBlockList, isFiltered := true } else {})
    ipString := fun ip => if ip = .v6 0x20010db8000000000000000000000001 "" then "2001:db8::1" else ""
    proxy := some fun req _ => .ok (some (hintedAnswer req.question)) }

def httpsRequest : ProxyContext :=
  { req := { id := 1, question := ⟨"example.org.", RRType.https, 1⟩ }, addr := .v4 0xc0a80002 }

/-- With IPv6 disabled a blocked IPv6 hint is dropped and the rest of the answer is passed on. -/
theorem hintHandler_passes_blocked_hint :
    (hintHandler.serveDNS httpsRequest).2 = .nil ∧
      (hintHandler.serveDNS httpsRequest).1.checked = some {} ∧
      (hintHandler.serveDNS httpsRequest).1.protectionEnabled = true ∧
      (hintHandler.serveDNS httpsRequest).1.setts.filteringEnabled = true ∧
      (hintHandler.serveDNS httpsRequest).1.upstreamRes = some (hintedAnswer httpsRequest.req.question) ∧
      (∃ c ∈ (hintedAnswer httpsRequest.req.question).answer.flatMap hintHandler.rrChecks,
        ∃ res, hintHandler.checkHostRules c.1 c.2 (hintHandler.serveDNS httpsRequest).1.setts = .ok res ∧
          res.isFiltered = true) ∧
      (hintHandler.serveDNS httpsRequest).1.origResp = none ∧
      (hintHandler.serveDNS httpsRequest).1.result.isFiltered = false := by
  refine ⟨by decide, by decide, by decide, by decide, by decide, ?_, by decide, by decide⟩
  exact ⟨("2001:db8::1", RRType.https), by decide, _, rfl, by decide⟩

end AdGuardHome.Dnsforward
