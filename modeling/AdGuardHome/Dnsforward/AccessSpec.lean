import AdGuardHome.Dnsforward.Middleware
import AdGuardHome.Lib.Lower

/-!
# What the access lists mean

A client matches a list if its address equals an entry up to the zone, or lies in a CIDR, or its ClientID equals an
entry up to the case of letters.  The code compares addresses with their zones, and compares entries as they are
written with ClientIDs in lower case, so it agrees with this meaning exactly when no client matches by such a
difference alone.
-/

namespace AdGuardHome.Dnsforward

open AdGuardHome.Net AdGuardHome.Lib

/-! ## Entries -/

/-- The address is an entry of the list. -/
def IsIP (list : List String) (ip : Addr) : Prop := ∃ s ∈ list, parseAddr s = some ip

/-- The CIDR is an entry of the list. -/
def IsNet (list : List String) (p : Prefix) : Prop := ∃ s ∈ list, parseAddr s = none ∧ parsePrefix s = some p

/-- The ClientID is an entry of the list. -/
def IsClientID (list : List String) (id : String) : Prop := id ∈ list ∧ parseAddr id = none ∧ parsePrefix id = none

variable {env : AccessEnv}

theorem mem_processAccessClients {i : ℕ} {list : List String} {c c' : AccessClients}
    (h : processAccessClients env i list c = .ok c') :
    (∀ ip, ip ∈ c'.ips ↔ ip ∈ c.ips ∨ IsIP list ip) ∧ (∀ p, p ∈ c'.nets ↔ p ∈ c.nets ∨ IsNet list p) ∧
      ∀ id, id ∈ c'.clientIDs ↔ id ∈ c.clientIDs ∨ IsClientID list id := by
  induction list generalizing i c with
  | nil =>
    cases h
    simp [IsIP, IsNet, IsClientID]
  | cons s list ih =>
    simp only [processAccessClients] at h
    split at h
    next ip₀ hip =>
      obtain ⟨h₁, h₂, h₃⟩ := ih h
      refine ⟨fun ip => ?_, fun p => ?_, fun id => ?_⟩
      · simp [h₁, IsIP, hip]
        grind
      · simp [h₂, IsNet, hip]
      · simp [h₃, IsClientID]
        grind
    next hip =>
      split at h
      next p₀ hp =>
        obtain ⟨h₁, h₂, h₃⟩ := ih h
        refine ⟨fun ip => ?_, fun p => ?_, fun id => ?_⟩
        · simp [h₁, IsIP, hip]
        · simp [h₂, IsNet, hip, hp]
          grind
        · simp [h₃, IsClientID]
          grind
      next hp =>
        split at h
        · obtain ⟨h₁, h₂, h₃⟩ := ih h
          refine ⟨fun ip => ?_, fun p => ?_, fun id => ?_⟩
          · simp [h₁, IsIP, hip]
          · simp [h₂, IsNet, hip, hp]
          · simp [h₃, IsClientID]
            grind
        · cases h

/-- The client matches an entry exactly: its address with the zone, a CIDR, or the ClientID as it is written. -/
def MatchesExactly (list : List String) (ip : Addr) (id : String) : Prop :=
  IsIP list ip ∨ (∃ p, IsNet list p ∧ p.contains ip.withoutZone) ∨ id ≠ "" ∧ IsClientID list id

/-- The client matches an entry: zones are ignored, and so is the case of letters in ClientIDs. -/
def Matches (list : List String) (ip : Addr) (id : String) : Prop :=
  (∃ a, IsIP list a ∧ a.withoutZone = ip.withoutZone) ∨ (∃ p, IsNet list p ∧ p.contains ip.withoutZone) ∨
    id ≠ "" ∧ ∃ id', IsClientID list id' ∧ id'.toLower = id.toLower

theorem Matches.of_matchesExactly {list : List String} {ip : Addr} {id : String}
    (h : MatchesExactly list ip id.toLower) : Matches list ip id := by
  rcases h with h | h | ⟨hid, h⟩
  · exact .inl ⟨ip, h, rfl⟩
  · exact .inr (.inl h)
  · exact .inr (.inr ⟨mt toLower_eq_empty.2 hid, _, h, toLower_toLower id⟩)

/-- The sets of an access manager are those of its lists. -/
structure HasLists (a : AccessManager) (allowed blocked : List String) : Prop where
  allowedIPs : ∀ ip, ip ∈ a.allowedIPs ↔ IsIP allowed ip
  allowedNets : ∀ p, p ∈ a.allowedNets ↔ IsNet allowed p
  allowedClientIDs : ∀ id, id ∈ a.allowedClientIDs ↔ IsClientID allowed id
  blockedIPs : ∀ ip, ip ∈ a.blockedIPs ↔ IsIP blocked ip
  blockedNets : ∀ p, p ∈ a.blockedNets ↔ IsNet blocked p
  blockedClientIDs : ∀ id, id ∈ a.blockedClientIDs ↔ IsClientID blocked id

theorem hasLists_newAccessCtx {allowed blocked blockedHosts : List String} {a : AccessManager}
    (h : newAccessCtx env allowed blocked blockedHosts = .ok a) : HasLists a allowed blocked := by
  unfold newAccessCtx at h
  split at h
  · cases h
  next ca ha =>
    split at h
    · cases h
    next cb hb =>
      split at h
      · cases h
      · cases h
        obtain ⟨a₁, a₂, a₃⟩ := mem_processAccessClients ha
        obtain ⟨b₁, b₂, b₃⟩ := mem_processAccessClients hb
        exact ⟨by simpa using a₁, by simpa using a₂, by simpa using a₃, by simpa using b₁, by simpa using b₂,
          by simpa using b₃⟩

namespace HasLists

variable {a : AccessManager} {allowed blocked : List String} (h : HasLists a allowed blocked)
include h

/-- Every entry is in one of the three sets. -/
theorem allowlistMode_iff : a.allowlistMode = true ↔ allowed ≠ [] := by
  rw [AccessManager.allowlistMode, decide_eq_true_iff, ne_eq, ne_eq, ne_eq, Finset.card_eq_zero, Finset.card_eq_zero,
    List.length_eq_zero_iff]
  constructor
  · rintro hmode rfl
    rcases hmode with hne | hne | hne
    · obtain ⟨ip, hip⟩ := Finset.nonempty_iff_ne_empty.2 hne
      obtain ⟨s, hs, -⟩ := (h.allowedIPs ip).1 hip
      cases hs
    · obtain ⟨id, hid⟩ := Finset.nonempty_iff_ne_empty.2 hne
      obtain ⟨hs, -⟩ := (h.allowedClientIDs id).1 hid
      cases hs
    · obtain ⟨p, hp⟩ := List.exists_mem_of_ne_nil _ hne
      obtain ⟨s, hs, -⟩ := (h.allowedNets p).1 hp
      cases hs
  · intro hne
    obtain ⟨s, hs⟩ := List.exists_mem_of_ne_nil _ hne
    cases hip : parseAddr s with
    | some ip => exact .inl (Finset.ne_empty_of_mem ((h.allowedIPs ip).2 ⟨s, hs, hip⟩))
    | none =>
      cases hp : parsePrefix s with
      | some p => exact .inr (.inr (List.ne_nil_of_mem ((h.allowedNets p).2 ⟨s, hs, hip, hp⟩)))
      | none => exact .inr (.inl (Finset.ne_empty_of_mem ((h.allowedClientIDs s).2 ⟨hs, hip, hp⟩)))

end HasLists

/-- The address is in the sets of addresses and prefixes. -/
def Listed (ips : Finset Addr) (ipnets : List Prefix) (ip : Addr) : Prop :=
  ip ∈ ips ∨ ∃ p ∈ ipnets, p.contains ip.withoutZone = true

instance (ips : Finset Addr) (ipnets : List Prefix) (ip : Addr) : Decidable (Listed ips ipnets ip) :=
  inferInstanceAs (Decidable (_ ∨ _))

/-- The status of an address is decided by the sets of the mode. -/
theorem isBlockedIP_eq (a : AccessManager) (ip : Addr) :
    (a.isBlockedIP ip).1
      = if a.allowlistMode then !decide (Listed a.allowedIPs a.allowedNets ip)
        else decide (Listed a.blockedIPs a.blockedNets ip) := by
  have hfound : ∀ {ips : Finset Addr} {ipnets : List Prefix} {p : Prefix},
      (ipnets.find? fun ipnet => ipnet.contains ip.withoutZone) = some p → Listed ips ipnets ip := by
    intro ips ipnets p hp
    have hcontains : p.contains ip.withoutZone = true := by simpa using List.find?_some hp
    exact .inr ⟨p, List.mem_of_find?_eq_some hp, hcontains⟩
  have hnone : ∀ {ips : Finset Addr} {ipnets : List Prefix}, ip ∉ ips →
      (ipnets.find? fun ipnet => ipnet.contains ip.withoutZone) = none → ¬ Listed ips ipnets ip := by
    rintro ips ipnets hips hp (hmem | ⟨p, hnet, hcontains⟩)
    · exact hips hmem
    · exact List.find?_eq_none.1 hp p hnet hcontains
  unfold AccessManager.isBlockedIP
  cases a.allowlistMode <;> simp only [if_true, if_false, reduceCtorEq]
  all_goals
    split
    next hmem => simp [Listed, hmem]
    next hmem =>
      split
      next p hp => simp [hfound hp]
      next hp => simp [hnone hmem hp]

theorem isBlockedClient_eq {a : AccessManager} {allowed blocked : List String} (h : HasLists a allowed blocked)
    {ip : Addr} (hip : ip ≠ .invalid) (id : String) :
    (isBlockedClient a ip id).1 = false ↔
      if allowed ≠ [] then MatchesExactly allowed ip id else ¬ MatchesExactly blocked ip id := by
  have hallowed : Listed a.allowedIPs a.allowedNets ip ∨ (id ≠ "" ∧ id ∈ a.allowedClientIDs) ↔
      MatchesExactly allowed ip id := by
    simp only [Listed, MatchesExactly, h.allowedIPs, h.allowedNets, h.allowedClientIDs, or_assoc]
  have hblocked : Listed a.blockedIPs a.blockedNets ip ∨ (id ≠ "" ∧ id ∈ a.blockedClientIDs) ↔
      MatchesExactly blocked ip id := by
    simp only [Listed, MatchesExactly, h.blockedIPs, h.blockedNets, h.blockedClientIDs, or_assoc]
  have hmode := h.allowlistMode_iff
  rw [← hallowed, ← hblocked]
  simp only [isBlockedClient, if_neg hip, isBlockedIP_eq, AccessManager.isBlockedClientID]
  cases hm : a.allowlistMode with
  | true =>
    rw [if_pos (hmode.1 hm)]
    by_cases hl : Listed a.allowedIPs a.allowedNets ip
    · simp [hl]
    · by_cases hid : id = ""
      · simp [hid, hl]
      · by_cases hmem : id ∈ a.allowedClientIDs <;> simp [hid, hl, hmem]
  | false =>
    have hnil : ¬ allowed ≠ [] := fun hne => by simp [hmode.2 hne] at hm
    rw [if_neg hnil]
    by_cases hid : id = "" <;> simp [hid]

/-! ## Requests -/

/-- The ways to send a ClientID: in the path of an HTTPS request, or in front of the name of the server.  The empty
one stands for none. -/
inductive Sends (env : AccessEnv) (s : AccessServer) (pctx : AccessContext) : String → Prop
  | path {r : HTTPRequest} (hproto : pctx.proto = .https) (hr : pctx.httpRequest = some r)
      (hpattern : containsString r.pattern clientIDParamTemplate) (hvalid : env.validateHostnameLabel r.clientID) :
      Sends env s pctx r.clientID
  | serverName {id : String} (hproto : pctx.proto = .https ∨ pctx.proto = .tls ∨ pctx.proto = .quic)
      (hpath : ∀ r ∈ pctx.httpRequest, ¬ containsString r.pattern clientIDParamTemplate)
      (hhost : s.serverName ≠ "")
      (hname : clientServerName env pctx pctx.proto = .ok (id ++ "." ++ s.serverName))
      (hvalid : env.validateHostnameLabel id) : Sends env s pctx id
  | none (hnone : clientIDFromDNSContext env s pctx = .ok "") : Sends env s pctx ""

/-- What the other packages document. -/
structure AccessEnv.Documented (env : AccessEnv) : Prop where
  /-- An empty label is not valid. -/
  empty_label : env.validateHostnameLabel "" = false
  immediate_subdomain : ∀ label host, env.validateHostnameLabel label = true →
    env.isImmediateSubdomain (label ++ "." ++ host) host = true

theorem cutServerName_append (id host : String) : cutServerName (id ++ "." ++ host) host = id := by
  have hlen : (id ++ "." ++ host).length - host.length - 1 = id.toList.length := by
    have hdot : ".".length = 1 := by decide
    simp [hdot, String.length_toList]
  rw [← String.toList_inj, cutServerName, hlen]
  simp

theorem ne_append_host (id host : String) : host ≠ id ++ "." ++ host := by
  intro heq
  have hlen := congrArg String.length heq
  simp at hlen

section Sends

variable {s : AccessServer} {pctx : AccessContext} {id : String}

theorem clientIDFromDNSContextHTTPS_eq {r : HTTPRequest} (hr : pctx.httpRequest = some r)
    (hpattern : containsString r.pattern clientIDParamTemplate = true)
    (hvalid : env.validateHostnameLabel r.clientID = true) :
    clientIDFromDNSContextHTTPS env pctx = .ok r.clientID.toLower := by
  simp [clientIDFromDNSContextHTTPS, hr, hpattern, validateClientID, hvalid]

theorem clientIDFromServerName_eq (henv : env.Documented) (hhost : s.serverName ≠ "")
    (hname : clientServerName env pctx pctx.proto = .ok (id ++ "." ++ s.serverName))
    (hvalid : env.validateHostnameLabel id = true) : clientIDFromServerName env s pctx = .ok id.toLower := by
  have hsub := henv.immediate_subdomain id s.serverName hvalid
  simp only [clientIDFromServerName, if_neg hhost, hname]
  show clientIDFromClientServerName env s.serverName (id ++ "." ++ s.serverName) s.strictSNICheck = _
  simp only [clientIDFromClientServerName, if_neg (ne_append_host id s.serverName), hsub, cutServerName_append,
    validateClientID, hvalid, not_true_eq_false, if_false, if_true]
  rfl

/-- The code finds the ClientID that is sent, in lower case. -/
theorem Sends.clientIDFromDNSContext_eq (henv : env.Documented) (h : Sends env s pctx id) :
    clientIDFromDNSContext env s pctx = .ok id.toLower := by
  cases h with
  | @path r hproto hr hpattern hvalid =>
    have hne : r.clientID.toLower ≠ "" := by
      intro hempty
      rw [toLower_eq_empty.1 hempty, henv.empty_label] at hvalid
      cases hvalid
    simp only [clientIDFromDNSContext, if_pos hproto, clientIDFromDNSContextHTTPS_eq hr hpattern hvalid]
    show (if r.clientID.toLower ≠ "" then _ else _) = _
    rw [if_pos hne]
    rfl
  | serverName hproto hpath hhost hname hvalid =>
    have hserver := clientIDFromServerName_eq henv hhost hname hvalid
    by_cases hhttps : pctx.proto = .https
    · obtain ⟨r, hr⟩ : ∃ r, pctx.httpRequest = some r := by
        cases hr : pctx.httpRequest with
        | none => simp [clientServerName, hhttps, hr] at hname
        | some r => exact ⟨r, rfl⟩
      have hnone : clientIDFromDNSContextHTTPS env pctx = .ok "" := by
        simp [clientIDFromDNSContextHTTPS, hr, hpath r hr]
      simp only [clientIDFromDNSContext, if_pos hhttps, hnone]
      exact hserver
    · have hproto' : ¬ (pctx.proto ≠ .tls ∧ pctx.proto ≠ .quic) := by
        rintro ⟨htls, hquic⟩
        exact hproto.elim hhttps fun h => h.elim htls hquic
      simp only [clientIDFromDNSContext, if_neg hhttps, if_neg hproto']
      exact hserver
  | none hnone => rw [hnone, toLower_eq_empty.2 rfl]

end Sends

/-! ## The middleware -/

/-- The list that is in force. -/
def inForce (allowed blocked : List String) : List String := if allowed ≠ [] then allowed else blocked

/-- What the access lists mean for a client. -/
def Serves (allowed blocked : List String) (ip : Addr) (id : String) : Prop :=
  if allowed ≠ [] then Matches allowed ip id else ¬ Matches blocked ip id

theorem wrap_served_iff {s : AccessServer} {pctx : AccessContext} {clientID : String}
    (hid : clientIDFromDNSContext env s pctx = .ok clientID) (hhost : isBlockedHost s pctx.question = false) :
    (∃ clientID, wrap env s pctx = .served clientID) ↔ (isBlockedClient s.access pctx.addr clientID).1 = false := by
  simp only [wrap, hid, hhost]
  cases (isBlockedClient s.access pctx.addr clientID).1 with
  | true =>
    refine iff_of_false ?_ (by simp)
    rintro ⟨id, h⟩
    unfold serveBlockedResponse at h
    split at h
    · split at h <;> cases h
    · cases ‹¬ _› rfl
  | false => simp

/-- **The middleware serves a client as the lists say** if and only if the list in force has no entry that the client
matches only with the zone or the case of letters ignored. -/
theorem wrap_served_iff_serves_iff (henv : env.Documented) {s : AccessServer}
    {allowed blocked blockedHosts : List String}
    (haccess : newAccessCtx env allowed blocked blockedHosts = .ok s.access) {pctx : AccessContext}
    (hip : pctx.addr ≠ .invalid) {id : String} (hid : Sends env s pctx id)
    (hhost : isBlockedHost s pctx.question = false) :
    ((∃ clientID, wrap env s pctx = .served clientID) ↔ Serves allowed blocked pctx.addr id) ↔
      (Matches (inForce allowed blocked) pctx.addr id →
        MatchesExactly (inForce allowed blocked) pctx.addr id.toLower) := by
  have hlists := hasLists_newAccessCtx haccess
  have hexact : MatchesExactly (inForce allowed blocked) pctx.addr id.toLower →
      Matches (inForce allowed blocked) pctx.addr id := Matches.of_matchesExactly
  rw [wrap_served_iff (hid.clientIDFromDNSContext_eq henv) hhost, isBlockedClient_eq hlists hip, Serves]
  unfold inForce at *
  by_cases hne : allowed ≠ []
  · simp only [if_pos hne] at *
    exact ⟨fun h => h.2, fun h => ⟨hexact, h⟩⟩
  · simp only [if_neg hne] at *
    exact ⟨fun h => (not_iff_not.1 h).2, fun h => not_iff_not.2 ⟨hexact, h⟩⟩

/-- Labels of letters, digits and hyphens, and no blocked hosts. -/
def asciiEnv : AccessEnv where
  validateHostnameLabel := fun s => s ≠ "" ∧ s.toList.all fun c => c.isAlphanum || c = '-'
  isImmediateSubdomain := fun sub host =>
    cutServerName sub host ++ "." ++ host = sub ∧ '.' ∉ (cutServerName sub host).toList
  splitHost := some
  newDNSEngine := fun _ => some fun _ _ => false

theorem asciiEnv_documented : asciiEnv.Documented := by
  refine ⟨by decide, fun label host hvalid => ?_⟩
  obtain ⟨-, hall⟩ := of_decide_eq_true hvalid
  refine decide_eq_true ?_
  rw [cutServerName_append]
  refine ⟨rfl, fun hdot => ?_⟩
  have := List.all_eq_true.1 hall '.' hdot
  exact absurd this (by decide)

/-- A server with one allowed client, and a DNS-over-HTTPS request of a client with an address. -/
def oneAllowed (id : String) : AccessServer :=
  ⟨⟨∅, ∅, insert id ∅, ∅, fun _ _ => false, [], []⟩, "dns.example", false⟩

def dohRequest (id : String) : AccessContext :=
  ⟨.https, .v4 0x01020304, some ⟨"GET /dns-query/\x7bClientID\x7d", id, none, ""⟩, "", none, []⟩

theorem sends_dohRequest : Sends asciiEnv (oneAllowed "phone") (dohRequest "Phone") "Phone" :=
  .path (r := ⟨_, "Phone", _, _⟩) rfl rfl (by decide) (by decide)

/-- The case of letters in the request does not matter. -/
theorem wrap_served_phone :
    (∃ clientID, wrap asciiEnv (oneAllowed "phone") (dohRequest "Phone") = .served clientID) ↔
      Serves ["phone"] [] (.v4 0x01020304) "Phone" := by
  have haccess : newAccessCtx asciiEnv ["phone"] [] [] = .ok (oneAllowed "phone").access := rfl
  have hip : (dohRequest "Phone").addr ≠ .invalid := by decide
  refine (wrap_served_iff_serves_iff asciiEnv_documented haccess hip sends_dohRequest rfl).2 fun _ => ?_
  have hlower : "Phone".toLower = "phone" := toLower_eq_iff.2 (by decide)
  rw [hlower]
  exact .inr (.inr ⟨by decide, by decide, by decide, by decide⟩)

/-- The case of letters in the list does. -/
theorem not_wrap_served_iff_serves :
    ¬ ∀ (env : AccessEnv) (s : AccessServer) (allowed blocked blockedHosts : List String) (pctx : AccessContext)
      (id : String), env.Documented → newAccessCtx env allowed blocked blockedHosts = .ok s.access →
      pctx.addr ≠ .invalid → Sends env s pctx id → isBlockedHost s pctx.question = false →
      ((∃ clientID, wrap env s pctx = .served clientID) ↔ Serves allowed blocked pctx.addr id) := by
  intro h
  have hsends : Sends asciiEnv (oneAllowed "Phone") (dohRequest "phone") "phone" :=
    .path (r := ⟨_, "phone", _, _⟩) rfl rfl (by decide) (by decide)
  have hserved := h asciiEnv (oneAllowed "Phone") ["Phone"] [] [] (dohRequest "phone") "phone" asciiEnv_documented rfl
    (by decide) hsends rfl
  have hlower : ∀ s ∈ ["Phone", "phone"], s.toLower = "phone" := by
    intro s hs
    rw [toLower_eq_iff]
    revert s
    decide
  have hmatch : Matches ["Phone"] (.v4 0x01020304) "phone" :=
    .inr (.inr ⟨by decide, "Phone", ⟨by decide, by decide, by decide⟩,
      (hlower _ (by decide)).trans (hlower _ (by decide)).symm⟩)
  have hfree := (wrap_served_iff (hsends.clientIDFromDNSContext_eq asciiEnv_documented) rfl).1 (hserved.2 hmatch)
  rw [hlower "phone" (by decide)] at hfree
  revert hfree
  decide

end AdGuardHome.Dnsforward
