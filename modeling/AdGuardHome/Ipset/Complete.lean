import AdGuardHome.Ipset.Lookup
import AdGuardHome.Lib.Run

/-!
# No address is forgotten

The addresses that were sent to the kernel are noted with their sets.  A cached address has been sent, because the cache
only gets what a call has sent without an error; so when `Add` returns no error, all the addresses have been sent to the
sets of the host, now or earlier.
-/

namespace AdGuardHome.Ipset

open AdGuardHome.Lib AdGuardHome.Aghnet

/-- A manager and everything that was sent to the kernel, with the names of the sets. -/
structure Observed where
  mgr : Manager
  sent : List (String × IPAddr)

/-- A call of `Add`, with the answers of the connections to it. -/
structure AddCall where
  host : String
  ip4s : List IPAddr
  ip6s : List IPAddr
  conn : ℕ → Option String

/-- The address was sent to the set. -/
def WasSent (sent : List (String × IPAddr)) (name : String) (ip : IP) : Prop :=
  ∃ s ∈ sent, s.1 = name ∧ s.2.to16 = ip

/-- Every cached address was sent to its set. -/
def Recorded (m : Manager) (sent : List (String × IPAddr)) : Prop :=
  ∀ e ∈ m.addedIPs, WasSent sent e.ipsetName e.ipArr

theorem WasSent.append {sent : List (String × IPAddr)} {name : String} {ip : IP} (h : WasSent sent name ip)
    (more : List (String × IPAddr)) : WasSent (sent ++ more) name ip := by
  obtain ⟨s, hs, heq⟩ := h
  exact ⟨s, List.mem_append_left _ hs, heq⟩

/-- Everything is noted that was noted before. -/
theorem WasSent.mono {sent sent' : List (String × IPAddr)} {name : String} {ip : IP} (h : WasSent sent name ip)
    (hsent : sent <+: sent') : WasSent sent' name ip := by
  obtain ⟨more, rfl⟩ := hsent
  exact h.append more

namespace Manager

variable (env : IpsetEnv) {sets : String → List Props} {sent : List (String × IPAddr)}

/-- What a call of `addIPs` leaves. -/
structure Added (m : Manager) (sent : List (String × IPAddr)) (set : Props) (ips : List IPAddr) (o : Outcome) :
    Prop where
  domains : o.mgr.domainToIpsets = m.domainToIpsets
  recorded : Recorded o.mgr (sent ++ o.sent)
  complete : ∀ n, o.result = .ok n → ∀ ip ∈ ips, WasSent (sent ++ o.sent) set.name ip.to16

/-- An address that is not among the new ones was sent. -/
theorem wasSent_of_not_new {m : Manager} (h : Recorded m sent) (set : Props) {ips : List IPAddr} {ip : IPAddr}
    (hip : ip ∈ ips) (hnew : ip ∉ m.newEntries set ips) : WasSent sent set.name ip.to16 := by
  have hcached : (⟨set.name, ip.to16⟩ : IPInIpsetEntry) ∈ m.addedIPs := by
    by_contra hnot
    exact hnew (List.mem_filter.2 ⟨hip, by simpa using hnot⟩)
  exact h _ hcached

theorem added_addIPs (connErr : Option String) {m : Manager} (h : Recorded m sent) (host : String) (set : Props)
    (ips : List IPAddr) : m.Added sent set ips (addIPs env connErr m host set ips) := by
  have hfailed : ∀ err, m.Added sent set ips ⟨m, [], .error err⟩ := by
    intro err
    exact ⟨rfl, by simpa using h, fun n hn => by cases hn⟩
  unfold addIPs
  split
  · rename_i hlen
    rw [List.length_eq_zero_iff] at hlen
    subst hlen
    exact ⟨rfl, by simpa using h, fun n _ ip hip => absurd hip List.not_mem_nil⟩
  · simp only
    split
    · -- Every address is cached.
      rename_i hnone
      rw [List.length_eq_zero_iff] at hnone
      refine ⟨rfl, by simpa using h, fun n _ ip hip => ?_⟩
      have hsent := wasSent_of_not_new h set hip (by rw [hnone]; exact List.not_mem_nil)
      exact hsent.append _
    · split
      · exact hfailed _
      · cases connErr with
        | some err => exact hfailed _
        | none =>
          -- What the cache gets has just been sent.
          have hnew : ∀ ip ∈ m.newEntries set ips,
              WasSent (sent ++ (m.newEntries set ips).map fun ip => (set.name, ip)) set.name ip.to16 := by
            intro ip hip
            exact ⟨(set.name, ip), List.mem_append_right _ (List.mem_map_of_mem hip), rfl, rfl⟩
          refine ⟨rfl, fun e he => ?_, fun n _ ip hip => ?_⟩
          · rcases List.mem_append.1 he with he | he
            · exact (h e he).append _
            · split at he
              · obtain ⟨ip, hip, rfl⟩ := List.mem_map.1 he
                exact hnew ip hip
              · cases he
          · by_cases hin : ip ∈ m.newEntries set ips
            · exact hnew ip hin
            · exact (wasSent_of_not_new h set hip hin).append _

/-- The addresses that a set gets. -/
def ipsFor (set : Props) (ip4s ip6s : List IPAddr) : List IPAddr :=
  if set.family = protoIPv4 then ip4s else if set.family = protoIPv6 then ip6s else []

/-- What the loop over sets leaves of an outcome. -/
structure AddedToSets (sent : List (String × IPAddr)) (ip4s ip6s : List IPAddr) (chosen : List Props)
    (o o' : Outcome) : Prop where
  domains : o'.mgr.domainToIpsets = o.mgr.domainToIpsets
  grows : o.sent <+: o'.sent
  recorded : Recorded o'.mgr (sent ++ o'.sent)
  complete : ∀ n, o'.result = .ok n → ∀ set ∈ chosen, ∀ ip ∈ ipsFor set ip4s ip6s,
    WasSent (sent ++ o'.sent) set.name ip.to16

theorem addToSets_error {conn : ℕ → Option String} {host : String} {ip4s ip6s : List IPAddr} {o : Outcome}
    {err : String} (ho : o.result = .error err) (k : ℕ) (chosen : List Props) :
    addToSets env conn host ip4s ip6s k chosen o = o := by
  cases chosen with
  | nil => rfl
  | cons set chosen =>
    unfold addToSets
    rw [ho]

/-- The loop adds the addresses of its family to a set and goes on with the next one. -/
theorem addToSets_cons {conn : ℕ → Option String} {host : String} {ip4s ip6s : List IPAddr} {o : Outcome} {n : ℕ}
    (ho : o.result = .ok n) {set : Props} (hfamily : set.family = protoIPv4 ∨ set.family = protoIPv6) (k : ℕ)
    (chosen : List Props) :
    addToSets env conn host ip4s ip6s k (set :: chosen) o =
      let step := addIPs env (conn k) o.mgr host set (ipsFor set ip4s ip6s)
      addToSets env conn host ip4s ip6s (k + 1) chosen
        ⟨step.mgr, o.sent ++ step.sent, step.result.map fun nn => n + nn⟩ := by
  rw [addToSets, ho]
  rcases hfamily with h | h
  · simp only [ipsFor, h, if_true]
  · have hne : protoIPv6 ≠ protoIPv4 := by decide
    simp only [ipsFor, h, if_neg hne, if_true]

theorem added_addToSets (conn : ℕ → Option String) (host : String) (ip4s ip6s : List IPAddr) (chosen : List Props) :
    (∀ set ∈ chosen, set.family = protoIPv4 ∨ set.family = protoIPv6) → ∀ (k : ℕ) (o : Outcome),
      Recorded o.mgr (sent ++ o.sent) →
        AddedToSets sent ip4s ip6s chosen o (addToSets env conn host ip4s ip6s k chosen o) := by
  induction chosen with
  | nil =>
    intro _ k o h
    exact ⟨rfl, List.prefix_rfl, h, fun n _ set hset => absurd hset List.not_mem_nil⟩
  | cons set chosen ih =>
    intro hfamily k o h
    cases ho : o.result with
    | error err =>
      rw [addToSets_error env ho]
      exact ⟨rfl, List.prefix_rfl, h, fun n hn => by rw [ho] at hn; cases hn⟩
    | ok n =>
      obtain ⟨hset, hrest⟩ := List.forall_mem_cons.1 hfamily
      rw [addToSets_cons env ho hset]
      have hstep := added_addIPs env (conn k) h host set (ipsFor set ip4s ip6s)
      generalize addIPs env (conn k) o.mgr host set (ipsFor set ip4s ip6s) = step at hstep
      have hrecorded := hstep.recorded
      rw [List.append_assoc] at hrecorded
      have hloop := ih hrest (k + 1) ⟨step.mgr, o.sent ++ step.sent, step.result.map fun nn => n + nn⟩ hrecorded
      refine ⟨hloop.domains.trans hstep.domains, (List.prefix_append _ _).trans hloop.grows, hloop.recorded, ?_⟩
      intro n' hn' set' hset' ip hip
      rcases List.mem_cons.1 hset' with rfl | hset'
      · cases hresult : step.result with
        | error err =>
          -- The loop has stopped here.
          rw [addToSets_error env (by rw [hresult]; rfl)] at hn'
          rw [hresult] at hn'
          cases hn'
        | ok nn =>
          have hsent := hstep.complete nn hresult ip hip
          rw [List.append_assoc] at hsent
          exact hsent.mono ((List.prefix_append_right_inj _).2 hloop.grows)
      · exact hloop.complete n' hn' set' hset' ip hip

/-- A call of `Add` keeps the sets of the domains and the meaning of the cache, and sends all addresses unless it
returns an error. -/
theorem added_add {m : Manager} (hm : m.Has sets) (h : Recorded m sent) (conn : ℕ → Option String) (host : String)
    (ip4s ip6s : List IPAddr) :
    AddedToSets sent ip4s ip6s (m.lookupHost host) ⟨m, [], .ok 0⟩ (add env conn m host ip4s ip6s) := by
  have hstart : Recorded (Outcome.mk m [] (.ok 0)).mgr (sent ++ (Outcome.mk m [] (.ok 0)).sent) := by simpa using h
  simp only [add]
  split
  · rename_i hnone
    rw [List.length_eq_zero_iff] at hnone
    rw [hnone]
    exact ⟨rfl, List.prefix_rfl, hstart, fun n _ set hset => absurd hset List.not_mem_nil⟩
  · refine added_addToSets env conn host ip4s ip6s _ (fun set hset => ?_) 0 _ hstart
    rcases lookupHost_chosen hm host with ⟨domain, _, _, heq, _⟩ | ⟨_, heq⟩
    · rw [heq] at hset
      exact hm.family domain set hset
    · rw [heq] at hset
      exact hm.family "" set hset

end Manager

/-! ## Runs -/

namespace Observed

variable (env : IpsetEnv)

def outcome (s : Observed) (call : AddCall) : Manager.Outcome :=
  s.mgr.add env call.conn call.host call.ip4s call.ip6s

def step (s : Observed) (call : AddCall) : Observed :=
  ⟨(s.outcome env call).mgr, s.sent ++ (s.outcome env call).sent⟩

/-- The sets of the domains stay, and the cache only has what was sent. -/
structure Inv (sets : String → List Props) (s : Observed) : Prop where
  has : s.mgr.Has sets
  recorded : Recorded s.mgr s.sent

variable {env}

theorem Inv.step {sets : String → List Props} {s : Observed} (h : Inv sets s) (call : AddCall) :
    Inv sets (s.step env call) := by
  have hadd := Manager.added_add env h.has h.recorded call.conn call.host call.ip4s call.ip6s
  refine ⟨⟨fun d => ?_, h.has.family⟩, hadd.recorded⟩
  have hget := congrArg (fun m => GoMap.get m d) hadd.domains
  exact hget.trans (h.has.get d)

end Observed

/-- After any calls of `Add` on a manager of a configuration, the sets of a host are those of its longest configured
domain or of the root, what is cached was sent, and a next call that returns no error leaves every address sent to the
sets of its family. -/
theorem add_complete (env : IpsetEnv) (conf : List String) (m : Manager)
    (hnew : Manager.newManager env conf = .ok (some m)) (calls : List AddCall) :
    let s := run (Observed.step env) ⟨m, []⟩ calls
    (∀ host, Chosen (configured env conf) host (s.mgr.lookupHost host)) ∧
    (∀ e ∈ s.mgr.addedIPs, WasSent s.sent e.ipsetName e.ipArr) ∧
    ∀ (call : AddCall) (n : ℕ), (s.outcome env call).result = .ok n →
      ∀ set ∈ s.mgr.lookupHost call.host,
        (set.family = protoIPv4 ∨ set.family = protoIPv6) ∧
        (set.family = protoIPv4 → ∀ ip ∈ call.ip4s, WasSent (s.step env call).sent set.name ip.to16) ∧
        (set.family = protoIPv6 → ∀ ip ∈ call.ip6s, WasSent (s.step env call).sent set.name ip.to16) := by
  intro s
  obtain ⟨hhas, hadded⟩ := Manager.newManager_spec hnew
  have hstart : Observed.Inv (configured env conf) ⟨m, []⟩ :=
    ⟨hhas, fun e he => by rw [hadded] at he; cases he⟩
  have hinv : Observed.Inv (configured env conf) s := run_invariant (fun _ call h => h.step call) hstart calls
  refine ⟨fun host => Manager.lookupHost_chosen hinv.has host, hinv.recorded, ?_⟩
  intro call n hresult set hset
  have hadd := Manager.added_add env hinv.has hinv.recorded call.conn call.host call.ip4s call.ip6s
  have hsent := hadd.complete n hresult set hset
  have hfamily : set.family = protoIPv4 ∨ set.family = protoIPv6 := by
    rcases Manager.lookupHost_chosen hinv.has call.host with ⟨domain, _, _, heq, _⟩ | ⟨_, heq⟩
    · exact hinv.has.family domain set (heq ▸ hset)
    · exact hinv.has.family "" set (heq ▸ hset)
  refine ⟨hfamily, fun h4 ip hip => hsent ip ?_, fun h6 ip hip => hsent ip ?_⟩
  · rw [Manager.ipsFor, if_pos h4]
    exact hip
  · have hne : set.family ≠ protoIPv4 := by
      rw [h6]
      decide
    rw [Manager.ipsFor, if_neg hne, if_pos h6]
    exact hip

/-- A kernel with a set of each family. -/
def exampleEnv : IpsetEnv where
  toLower s := String.ofList (s.toList.map Char.toLower)
  quote s := "\"" ++ s ++ "\""
  familyString f := if f = protoIPv4 then "ProtoIPv4" else "ProtoIPv6"
  dial _ := .ok ()
  listAll := .ok [⟨"ipv4set", "hash:ip", protoIPv4, true⟩, ⟨"ipv6set", "hash:ip", protoIPv6, true⟩]
  header _ _ _ := .ok none

/-- The manager of one line. -/
def exampleManager : Manager where
  nameToIpset := (GoMap.empty.set "ipv4set" ⟨"ipv4set", "hash:ip", protoIPv4, true⟩).set "ipv6set"
    ⟨"ipv6set", "hash:ip", protoIPv6, true⟩
  domainToIpsets := GoMap.empty.set "example.org"
    [⟨"ipv4set", "hash:ip", protoIPv4, true⟩, ⟨"ipv6set", "hash:ip", protoIPv6, true⟩]
  addedIPs := []

def exampleAddr : IPAddr := ⟨[192, 0, 2, 1], .inl rfl⟩

/-- A call whose first message to the kernel fails, and one without errors. -/
def failingCall : AddCall := ⟨"www.example.org", [exampleAddr], [], fun k => if k = 0 then some "EPERM" else none⟩

def goodCall : AddCall := ⟨"www.example.org", [exampleAddr], [], fun _ => none⟩

theorem add_complete_example :
    Chosen (configured exampleEnv ["Example.org/ipv4set, ipv6set"]) "www.example.org"
      ((run (Observed.step exampleEnv) ⟨exampleManager, []⟩ [failingCall]).mgr.lookupHost "www.example.org") ∧
    WasSent ((run (Observed.step exampleEnv) ⟨exampleManager, []⟩ [failingCall]).step exampleEnv goodCall).sent
      "ipv4set" exampleAddr.to16 := by
  have h := add_complete exampleEnv ["Example.org/ipv4set, ipv6set"] exampleManager rfl [failingCall]
  refine ⟨h.1 "www.example.org", ?_⟩
  exact (h.2.2 goodCall 1 rfl ⟨"ipv4set", "hash:ip", protoIPv4, true⟩ List.mem_cons_self).2.1 rfl exampleAddr
    List.mem_cons_self

end AdGuardHome.Ipset
