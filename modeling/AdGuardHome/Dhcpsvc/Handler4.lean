import AdGuardHome.Dhcpsvc.Operations

/-!
# The answers to DHCPv4 messages

The handlers of `handler4.go` with what they hand to the device in answer.  The states are those of the handlers
of `DHCPServer`.  An answer that the device fails to write is logged only, so it is an answer all the same.
-/

namespace AdGuardHome.Dhcpsvc.DHCPServer

open AdGuardHome.Net AdGuardHome.Lib AdGuardHome.Dhcp

-- `toLower` is `strings.ToLower`
variable (toLower : GoString → GoString) (conf : ServerConf)

/-- A DHCPOFFER, DHCPACK or DHCPNAK, with the lease that it is made of. -/
inductive Reply4
  | offer (l : Lease)
  | ack (l : Lease)
  | nak
deriving DecidableEq

/-- `updateAndRespond`.  `stored` is whether the database takes the leases. -/
def updateAndRespond (s : DHCPServer) (i r : Ref) (stored : Bool) : DHCPServer × Option Reply4 :=
  match s.indexUpdate toLower i r with
  | .error .fault => (s, none)
  | .error _ => (s, some .nak)
  | .ok s' => (s', some (if stored then .ack (s'.lease r) else .nak))

/-- Whether `ciaddr` is filled in. -/
def Message.hasCiaddr (req : Message) : Bool := (req.clientIP.filter (· ≠ 0)).isSome

/-- `handleSelecting`. -/
def handleSelecting (s : DHCPServer) (i : Ref) (req : Message) (reqIP : Addr) (stored : Bool) :
    DHCPServer × Option Reply4 :=
  if req.hasCiaddr then (s, none)
  else match macToKey req.mac with
    | none => (s, none)
    | some key =>
      match (s.iface i).leases.get key with
      | none => (s, some .nak)
      | some r =>
        if (s.lease r).ip ≠ reqIP then (s, some .nak)
        else
          let s := s.modify r fun l => { l with hostname := if req.hostname ≠ "" then req.hostname else l.hostname }
          s.updateAndRespond toLower i r stored

/-- `handleInitReboot`. -/
def handleInitReboot (s : DHCPServer) (i : Ref) (req : Message) (reqIP : Addr) (stored : Bool) :
    DHCPServer × Option Reply4 :=
  if req.hasCiaddr then (s, none)
  else match macToKey req.mac with
    | none => (s, none)
    | some key =>
      match (s.iface i).leases.get key with
      -- a server without a record of the client remains silent
      | none => (s, none)
      | some r =>
        if (s.lease r).ip ≠ reqIP then (s, some .nak)
        else
          let s := s.modify r fun l => { l with hostname := if req.hostname ≠ "" then req.hostname else l.hostname }
          s.updateAndRespond toLower i r stored

/-- `handleRenew`. -/
def handleRenew (s : DHCPServer) (i : Ref) (req : Message) (ip : Addr) (now : Time) (stored : Bool) :
    DHCPServer × Option Reply4 :=
  match macToKey req.mac with
  | none => (s, none)
  | some key =>
    match (s.iface i).leases.get key with
    | none => (s, none)
    | some r =>
      if (s.lease r).ip ≠ ip then (s, some .nak)
      else
        let s := s.modify r fun l => { l with hostname := if req.hostname ≠ "" then req.hostname else l.hostname }
        let s := s.modify r (setExpiry (now + (conf.iface i).leaseTTL))
        s.updateAndRespond toLower i r stored

/-- `handleRequest`. -/
def handleRequest4 (s : DHCPServer) (i : Ref) (req : Message) (now : Time) (stored : Bool) :
    DHCPServer × Option Reply4 :=
  match req.serverID.filter (· ≠ 0), req.requestedIP.filter (· ≠ 0), req.clientIP with
  | some srvID, _, _ =>
    if req.deviceAddrs.contains (.v4 srvID) then
      s.handleSelecting toLower i req (match req.requestedIP with
        | none => .invalid
        | some reqIP => .v4 reqIP) stored
    else (s, none)
  | none, some reqIP, _ =>
    if (conf.iface i).subnet.contains (.v4 reqIP) then s.handleInitReboot toLower i req (.v4 reqIP) stored
    else (s, some .nak)
  | none, none, some ip =>
    if (conf.iface i).subnet.contains (.v4 ip) then s.handleRenew toLower conf i req (.v4 ip) now stored
    else (s, none)
  | none, none, none => (s, none)

/-- `handleDiscover`. -/
def handleDiscover4 (s : DHCPServer) (i : Ref) (req : Message) (now : Time) (order : List MacKey) :
    DHCPServer × Option Reply4 :=
  match macToKey req.mac with
  | none => (s, none)
  | some key =>
    match (s.iface i).leases.get key with
    | some r =>
      let s := s.modify r (setExpiry (now + (conf.iface i).leaseTTL))
      (s, some (.offer (s.lease r)))
    | none =>
      match s.allocateLease toLower conf i req.mac key now order with
      | .error _ => (s, none)
      | .ok (s', r) => (s', some (.offer (s'.lease r)))

/-! ## The states are those of the handlers -/

variable {toLower conf} {s : DHCPServer} {i : Ref} {req : Message} {now : Time}

theorem modify_modify (s : DHCPServer) (r : Ref) (f g : Lease → Lease) :
    (s.modify r f).modify r g = s.modify r (g ∘ f) := by
  simp [modify, Heap.modify]

theorem updateAndRespond_fst (toLower : GoString → GoString) (s : DHCPServer) (i r : Ref) (stored : Bool) :
    (s.updateAndRespond toLower i r stored).1 = s.orElse (s.indexUpdate toLower i r) := by
  unfold updateAndRespond
  cases s.indexUpdate toLower i r with
  | error e => cases e <;> rfl
  | ok s' => rfl

/-- What a DHCPREQUEST does with the lease of the client that it is about: the lease is rewritten, and the index is
asked to take it. -/
def respondOn (toLower : GoString → GoString) (conf : ServerConf) (s : DHCPServer) (i r : Ref) (req : Message)
    (renew : Bool) (now : Time) (stored : Bool) : DHCPServer × Option Reply4 :=
  (s.modify r (requested (now + (conf.iface i).leaseTTL) req renew)).updateAndRespond toLower i r stored

/-- Nothing is done and no address is sent. -/
def Untouched (s : DHCPServer) (res : DHCPServer × Option Reply4) : Prop := res = (s, none) ∨ res = (s, some .nak)

/-- Without a lease nothing is done, and with one the message ends in `updateAndRespond`. -/
def Answers (toLower : GoString → GoString) (conf : ServerConf) (s : DHCPServer) (i : Ref) (req : Message) (now : Time)
    (stored : Bool) (res : DHCPServer × Option Reply4) : Option (Ref × Bool) → Prop
  | none => s.Untouched res
  | some (r, renew) => res = s.respondOn toLower conf i r req renew now stored

/-- How the search for the client's lease on an address ends. -/
theorem leaseByMacWithIP_cases (s : DHCPServer) (i : Ref) (mac : HardwareAddr) (ip : Addr) :
    (macToKey mac = none ∧ s.leaseByMacWithIP i mac ip = none) ∨
    (∃ key, macToKey mac = some key ∧ (s.iface i).leases.get key = none ∧ s.leaseByMacWithIP i mac ip = none) ∨
    (∃ key r, macToKey mac = some key ∧ (s.iface i).leases.get key = some r ∧ (s.lease r).ip ≠ ip ∧
      s.leaseByMacWithIP i mac ip = none) ∨
    ∃ key r, macToKey mac = some key ∧ (s.iface i).leases.get key = some r ∧ (s.lease r).ip = ip ∧
      s.leaseByMacWithIP i mac ip = some r := by
  unfold leaseByMacWithIP
  cases hkey : macToKey mac with
  | none => exact .inl ⟨rfl, rfl⟩
  | some key =>
    cases hget : (s.iface i).leases.get key with
    | none => exact .inr (.inl ⟨key, rfl, hget, by simp [hget]⟩)
    | some r =>
      by_cases hip : (s.lease r).ip = ip
      · exact .inr (.inr (.inr ⟨key, r, rfl, hget, hip, by simp [hget, Option.filter_some, hip]⟩))
      · exact .inr (.inr (.inl ⟨key, r, rfl, hget, hip, by simp [hget, Option.filter_some, hip]⟩))

theorem handleSelecting_spec (hc : req.hasCiaddr = false) (ip : Addr) (stored : Bool) :
    Answers toLower conf s i req now stored (s.handleSelecting toLower i req ip stored)
      ((s.leaseByMacWithIP i req.mac ip).map (·, false)) := by
  unfold handleSelecting
  rcases s.leaseByMacWithIP_cases i req.mac ip with ⟨hkey, hby⟩ | ⟨key, hkey, hget, hby⟩ |
    ⟨key, r, hkey, hget, hip, hby⟩ | ⟨key, r, hkey, hget, hip, hby⟩
  · simp [hc, hby, hkey, Answers, Untouched]
  · simp [hc, hby, hkey, hget, Answers, Untouched]
  · simp [hc, hby, hkey, hget, hip, Answers, Untouched]
  · simp only [hc, hby, hkey, hget, hip, ne_eq, not_true_eq_false, Bool.false_eq_true, if_false]
    rfl

theorem handleInitReboot_spec (hc : req.hasCiaddr = false) (ip : Addr) (stored : Bool) :
    Answers toLower conf s i req now stored (s.handleInitReboot toLower i req ip stored)
      ((s.leaseByMacWithIP i req.mac ip).map (·, false)) := by
  unfold handleInitReboot
  rcases s.leaseByMacWithIP_cases i req.mac ip with ⟨hkey, hby⟩ | ⟨key, hkey, hget, hby⟩ |
    ⟨key, r, hkey, hget, hip, hby⟩ | ⟨key, r, hkey, hget, hip, hby⟩
  · simp [hc, hby, hkey, Answers, Untouched]
  · simp [hc, hby, hkey, hget, Answers, Untouched]
  · simp [hc, hby, hkey, hget, hip, Answers, Untouched]
  · simp only [hc, hby, hkey, hget, hip, ne_eq, not_true_eq_false, Bool.false_eq_true, if_false]
    rfl

theorem handleRenew_spec (ip : Addr) (stored : Bool) :
    Answers toLower conf s i req now stored (s.handleRenew toLower conf i req ip now stored)
      ((s.leaseByMacWithIP i req.mac ip).map (·, true)) := by
  unfold handleRenew
  rcases s.leaseByMacWithIP_cases i req.mac ip with ⟨hkey, hby⟩ | ⟨key, hkey, hget, hby⟩ |
    ⟨key, r, hkey, hget, hip, hby⟩ | ⟨key, r, hkey, hget, hip, hby⟩
  · simp [hby, hkey, Answers, Untouched]
  · simp [hby, hkey, hget, Answers, Untouched]
  · simp [hby, hkey, hget, hip, Answers, Untouched]
  · simp only [hby, hkey, hget, hip, ne_eq, not_true_eq_false, if_false, modify_modify]
    rfl

theorem handleSelecting_of_ciaddr (hc : req.hasCiaddr = true) (ip : Addr) (stored : Bool) :
    s.handleSelecting toLower i req ip stored = (s, none) := by
  unfold handleSelecting
  rw [if_pos hc]

theorem handleInitReboot_of_ciaddr (hc : req.hasCiaddr = true) (ip : Addr) (stored : Bool) :
    s.handleInitReboot toLower i req ip stored = (s, none) := by
  unfold handleInitReboot
  rw [if_pos hc]

/-- The lease of the client that a DHCPREQUEST is about, and whether it is to be renewed. -/
def requestMatch (conf : ServerConf) (s : DHCPServer) (i : Ref) (req : Message) : Option (Ref × Bool) :=
  (requestTarget conf i req).bind fun t => (s.leaseByMacWithIP i req.mac t.1).map (·, t.2)

/-- A DHCPREQUEST is answered according to the lease that it is about. -/
theorem handleRequest4_spec (toLower : GoString → GoString) (conf : ServerConf) (s : DHCPServer) (i : Ref)
    (req : Message) (now : Time) (stored : Bool) :
    Answers toLower conf s i req now stored (s.handleRequest4 toLower conf i req now stored)
      (requestMatch conf s i req) := by
  unfold handleRequest4 requestMatch requestTarget
  have hnone : (req.clientIP.filter (· ≠ 0)).isNone = !req.hasCiaddr := by
    rw [Message.hasCiaddr, Option.not_isSome]
  dsimp only
  rw [hnone]
  cases req.serverID.filter (· ≠ 0) with
  | some srvID =>
    dsimp only
    -- a message that chooses a server
    by_cases hdev : req.deviceAddrs.contains (.v4 srvID) = true
    · rw [if_pos hdev, hdev]
      cases hc : req.hasCiaddr with
      | true =>
        rw [handleSelecting_of_ciaddr hc]
        exact .inl rfl
      | false => exact handleSelecting_spec hc _ stored
    · rw [if_neg hdev, if_neg fun h => hdev (Bool.and_eq_true_iff.1 h).1]
      exact .inl rfl
  | none =>
    cases req.requestedIP.filter (· ≠ 0) with
    | some reqIP =>
      dsimp only
      by_cases hsub : (conf.iface i).subnet.contains (.v4 reqIP) = true
      · rw [if_pos hsub, hsub]
        cases hc : req.hasCiaddr with
        | true =>
          rw [handleInitReboot_of_ciaddr hc]
          exact .inl rfl
        | false => exact handleInitReboot_spec hc _ stored
      · rw [if_neg hsub, if_neg fun h => hsub (Bool.and_eq_true_iff.1 h).1]
        exact .inr rfl
    | none =>
      cases req.clientIP with
      | none => exact .inl rfl
      | some ip =>
        dsimp only
        by_cases hsub : (conf.iface i).subnet.contains (.v4 ip) = true
        · rw [if_pos hsub, if_pos hsub]
          exact handleRenew_spec _ stored
        · rw [if_neg hsub, if_neg hsub]
          exact .inl rfl

theorem handleRequest_eq (s : DHCPServer) (i : Ref) (req : Message) (now : Time) :
    s.handleRequest toLower conf i req now =
      match requestMatch conf s i req with
      | none => s
      | some (r, renew) =>
        let s' := s.modify r (requested (now + (conf.iface i).leaseTTL) req renew)
        s'.orElse (s'.indexUpdate toLower i r) := by
  unfold handleRequest requestMatch
  cases requestTarget conf i req with
  | none => rfl
  | some t =>
    obtain ⟨ip, renew⟩ := t
    dsimp only [Option.bind_some]
    cases s.leaseByMacWithIP i req.mac ip <;> rfl

/-- The state after a DHCPREQUEST, however it is answered. -/
theorem handleRequest4_fst (s : DHCPServer) (i : Ref) (req : Message) (now : Time) (stored : Bool) :
    (s.handleRequest4 toLower conf i req now stored).1 = s.handleRequest toLower conf i req now := by
  have hspec := s.handleRequest4_spec toLower conf i req now stored
  rw [handleRequest_eq]
  cases hm : requestMatch conf s i req with
  | none =>
    rw [hm] at hspec
    rcases hspec with h | h <;> rw [h]
  | some m =>
    obtain ⟨r, renew⟩ := m
    rw [hm] at hspec
    rw [show s.handleRequest4 toLower conf i req now stored = _ from hspec]
    exact updateAndRespond_fst toLower _ i r stored

/-- The state after a DHCPDISCOVER, however it is answered. -/
theorem handleDiscover4_fst (s : DHCPServer) (i : Ref) (req : Message) (now : Time) (order : List MacKey) :
    (s.handleDiscover4 toLower conf i req now order).1 = s.handleDiscover toLower conf i req now order := by
  unfold handleDiscover4 handleDiscover
  cases macToKey req.mac with
  | none => rfl
  | some key =>
    dsimp only
    cases (s.iface i).leases.get key with
    | some r => rfl
    | none =>
      dsimp only
      cases s.allocateLease toLower conf i req.mac key now order <;> rfl

end AdGuardHome.Dhcpsvc.DHCPServer
