import AdGuardHome.Dhcpsvc.Handler6
import AdGuardHome.Dhcpsvc.Placed
import AdGuardHome.Dhcpsvc.Refused

/-!
# Pointers to allocated records

The interfaces and the index point to allocated records only, after every operation and every packet.
-/

namespace AdGuardHome.Dhcpsvc.DHCPServer

open AdGuardHome.Net AdGuardHome.Lib AdGuardHome.Dhcp

variable {toLower : GoString → GoString} {env : Env6} {conf : ServerConf} {s s' : DHCPServer}

/-- Every lease that an interface or the index has is allocated. -/
def OnHeap (s : DHCPServer) : Prop := ∀ r, s.Held r → r < s.heap.next

/-- Records are not freed, and the interfaces and the index get no pointers but those to allocated records. -/
structure Grows (s s' : DHCPServer) : Prop where
  next : s.heap.next ≤ s'.heap.next
  held : ∀ r, s'.Held r → s.Held r ∨ r < s'.heap.next

theorem OnHeap.grow (h : OnHeap s) (hg : Grows s s') : OnHeap s' := by
  intro r hr
  rcases hg.held r hr with hold | hnew
  · exact Nat.lt_of_lt_of_le (h r hold) hg.next
  · exact hnew

namespace Grows

theorem refl (s : DHCPServer) : Grows s s := ⟨le_rfl, fun _ h => .inl h⟩

theorem trans {s'' : DHCPServer} (h : Grows s s') (h' : Grows s' s'') : Grows s s'' where
  next := h.next.trans h'.next
  held := by
    intro r hr
    rcases h'.held r hr with hold | hnew
    · exact (h.held r hold).imp_right fun hlt => Nat.lt_of_lt_of_le hlt h'.next
    · exact .inr hnew

/-- Pointers are taken away. -/
theorem of_held (hnext : s'.heap.next = s.heap.next) (h : ∀ r, s'.Held r → s.Held r) : Grows s s' :=
  ⟨hnext.ge, fun r hr => .inl (h r hr)⟩

theorem modify (s : DHCPServer) (r : Ref) (f : Lease → Lease) : Grows s (s.modify r f) := of_held rfl fun _ h => h

theorem alloc (s : DHCPServer) (l : Lease) : Grows s (s.alloc l) := ⟨Nat.le_succ _, fun _ h => .inl h⟩

theorem dropped (s : DHCPServer) (i : Ref) (key : MacKey) (ip : Addr) : Grows s (s.dropped conf i key ip) := by
  refine of_held rfl fun x hx => ?_
  rcases hx with ⟨j, k, hx⟩ | hx
  · exact .inl ⟨j, k, (stored_dropped.1 hx).1⟩
  · exact .inr hx

/-- A lease is stored that an interface or the index had, or that is allocated. -/
theorem store {t : DHCPServer} (h : Grows s t) {i r : Ref} {key : MacKey} {f : NetInterface → NetInterface}
    (hf : ∀ n, (f n).leases = n.leases.set key r) (hr : s.Held r ∨ r < t.heap.next) :
    Grows s (t.modifyIface i f) := by
  refine ⟨h.next, fun x hx => ?_⟩
  rcases hx with ⟨j, k, hx⟩ | hx
  · rcases (stored_modifyIface_set hf).1 hx with ⟨-, -, rfl⟩ | ⟨hx, -⟩
    · exact hr
    · exact h.held x (.inl ⟨j, k, hx⟩)
  · exact h.held x (.inr hx)

theorem indexRemove (s : DHCPServer) (i : Ref) (l : Lease) :
    Grows s (s.orElse (s.indexRemove toLower conf i l)) := by
  cases hrm : s.indexRemove toLower conf i l with
  | error e => exact refl s
  | ok t =>
    obtain ⟨-, -, key, -, -, rfl⟩ := indexRemove_ok hrm
    refine of_held rfl fun x hx => ?_
    rcases hx with ⟨j, k, hx⟩ | ⟨a, hx⟩ | ⟨n, hx⟩
    · exact .inl ⟨j, k, (stored_dropped.1 hx).1⟩
    · exact .inr (.inl ⟨a, GoMap.get_of_get_del hx⟩)
    · exact .inr (.inr ⟨n, GoMap.get_of_get_del hx⟩)

theorem indexUpdate (toLower : GoString → GoString) (i : Ref) {r : Ref} (hr : s.Held r ∨ r < s.heap.next) :
    Grows s (s.orElse (s.indexUpdate toLower i r)) := by
  cases hup : s.indexUpdate toLower i r with
  | error e => exact refl s
  | ok t =>
    obtain ⟨-, -, key, prev, -, -, rfl⟩ := indexUpdate_ok hup
    have hput : Grows s (s.modifyIface i fun n => { n with leases := n.leases.set key r }) :=
      (refl s).store (fun _ => rfl) hr
    refine ⟨le_rfl, fun x hx => ?_⟩
    rcases hx with hx | ⟨a, hx⟩ | ⟨n, hx⟩
    · exact hput.held x (.inl hx)
    · rcases GoMap.get_or_eq_of_get_set hx with hx | rfl
      · exact .inl (.inr (.inl ⟨a, GoMap.get_of_get_del hx⟩))
      · exact hr
    · rcases GoMap.get_or_eq_of_get_set hx with hx | rfl
      · exact .inl (.inr (.inr ⟨n, GoMap.get_of_get_del hx⟩))
      · exact hr

theorem indexAdd (toLower : GoString → GoString) (conf : ServerConf) (i : Ref) {r : Ref} (hr : s.Held r ∨ r < s.heap.next) :
    Grows s (s.orElse (s.indexAdd toLower conf i r)) := by
  cases hadd : s.indexAdd toLower conf i r with
  | error e => exact refl s
  | ok t =>
    obtain ⟨-, -, key, -, -, rfl⟩ := indexAdd_ok hadd
    have hput : Grows s (s.modifyIface i fun n =>
        { leases := n.leases.set key r, leasedOffsets := n.leasedOffsets.set (bit conf i (s.lease r).ip) true }) :=
      (refl s).store (fun _ => rfl) hr
    refine ⟨le_rfl, fun x hx => ?_⟩
    rcases hx with hx | ⟨a, hx⟩ | ⟨n, hx⟩
    · exact hput.held x (.inl hx)
    · rcases GoMap.get_or_eq_of_get_set hx with hx | rfl
      · exact .inl (.inr (.inl ⟨a, hx⟩))
      · exact hr
    · rcases GoMap.get_or_eq_of_get_set hx with hx | rfl
      · exact .inl (.inr (.inr ⟨n, hx⟩))
      · exact hr

theorem blockLease (s : DHCPServer) (i r : Ref) (now : Time) : Grows s (s.orElse (s.blockLease conf i r now)) := by
  refine orElse_rule (refl s) fun s' hblock => ?_
  obtain ⟨key, -, rfl⟩ := blockLease_ok hblock
  exact (dropped s i key _).trans (modify _ r _)

/-- The leases of a reservation are those from before and the one that is returned. -/
theorem reserveLease {i : Ref} {mac : HardwareAddr} {key : MacKey} {now : Time} {order : List MacKey} {r : Ref}
    (h : s.reserveLease toLower conf i mac key now order = .ok (s', r)) :
    Grows s s' ∧ (s'.Held r ∨ r < s'.heap.next) := by
  rcases reserveLease_cases toLower conf s i mac key now order with ⟨e, herr, -⟩ | ⟨ip, -, hok⟩ | ⟨x, -, hexp, hok⟩
  · rw [herr] at h
    cases h
  · rw [hok] at h
    cases h
    exact ⟨alloc s _, .inr (Nat.lt_succ_self _)⟩
  · rw [hok] at h
    cases h
    obtain ⟨k, hx⟩ := findExpiredLease_stored hexp
    exact ⟨((indexRemove s i (s.lease r)).trans (modify _ r _)).store (fun _ => rfl) (.inl (.inl ⟨i, k, hx⟩)),
      .inl (.inl ⟨i, key, stored_recycled_self⟩)⟩

theorem allocateLease {i : Ref} {mac : HardwareAddr} {key : MacKey} {now : Time} {order : List MacKey} {r : Ref}
    (h : s.allocateLease toLower conf i mac key now order = .ok (s', r)) : Grows s s' := by
  rw [allocateLease_eq] at h
  cases hres : s.reserveLease toLower conf i mac key now order with
  | error e =>
    rw [hres] at h
    cases h
  | ok res =>
    obtain ⟨t, x⟩ := res
    rw [hres] at h
    cases h
    obtain ⟨hg, hr⟩ := reserveLease hres
    exact hg.trans ((refl t).store (fun _ => rfl) hr)

/-! ## Operations -/

theorem discover (s : DHCPServer) (i : Ref) (req : Message) (now : Time) (order : List MacKey) :
    Grows s (s.handleDiscover toLower conf i req now order) := by
  refine discover_rule (refl s) (fun _ r _ _ => modify s r _) ?_
  intro key s' r _ _ hal
  exact allocateLease hal

theorem request (s : DHCPServer) (i : Ref) (req : Message) (now : Time) :
    Grows s (s.handleRequest toLower conf i req now) := by
  rw [handleRequest_eq]
  cases hm : requestMatch conf s i req with
  | none => exact refl s
  | some m =>
    obtain ⟨r, renew⟩ := m
    have hheld : s.Held r := held_of_match hm
    exact (modify s r _).trans (indexUpdate toLower i (.inl hheld))

theorem decline (s : DHCPServer) (i : Ref) (req : Message) (now : Time) :
    Grows s (s.handleDecline conf i req now) := decline_rule (refl s) fun _ r _ _ _ => blockLease s i r now

theorem release (s : DHCPServer) (i : Ref) (req : Message) : Grows s (s.handleRelease toLower conf i req) :=
  release_rule (refl s) fun _ _ _ _ _ => indexRemove s i _

theorem step (s : DHCPServer) (op : Op) : Grows s (s.step toLower conf op) := by
  cases op with
  | discover i req now order =>
    exact iteInduction (motive := Grows s) (fun _ => discover s i req now order) fun _ => refl s
  | request i req now => exact iteInduction (motive := Grows s) (fun _ => request s i req now) fun _ => refl s
  | decline i req now => exact iteInduction (motive := Grows s) (fun _ => decline s i req now) fun _ => refl s
  | release i req => exact iteInduction (motive := Grows s) (fun _ => release s i req) fun _ => refl s
  | addLease l =>
    refine orElse_rule (refl s) fun s' hs' => ?_
    obtain ⟨i, -, hok⟩ := addLease_ok hs'
    have hadd := (alloc s l).trans (indexAdd toLower conf i (.inr (Nat.lt_succ_self s.heap.next)))
    rwa [hok] at hadd
  | updateStaticLease l =>
    refine orElse_rule (refl s) fun s' hs' => ?_
    obtain ⟨i, -, hok⟩ := updateStaticLease_ok hs'
    have hup := (alloc s l).trans (indexUpdate toLower i (.inr (Nat.lt_succ_self s.heap.next)))
    rwa [hok] at hup
  | removeLease l =>
    refine orElse_rule (refl s) fun s' hs' => ?_
    obtain ⟨i, -, hok⟩ := removeLease_ok hs'
    have hrm : Grows s (s.orElse (s.indexRemove toLower conf i l)) := indexRemove s i l
    rwa [hok] at hrm
  | reset =>
    refine of_held rfl fun r hr => ?_
    rcases hr with ⟨i, k, hr⟩ | ⟨a, hr⟩ | ⟨n, hr⟩
    · exact .inl ⟨i, k, stored_reset hr⟩
    · exact absurd ((GoMap.get_empty a).symm.trans hr) (by simp)
    · exact absurd ((GoMap.get_empty n).symm.trans hr) (by simp)

/-! ## Packets -/

theorem uncommit (s : DHCPServer) (i r : Ref) : Grows s (s.uncommit conf i r).1 := by
  unfold DHCPServer.uncommit
  cases hrm : s.ifaceRemoveLease conf i (s.lease r) with
  | error e => cases e <;> exact refl s
  | ok t =>
    obtain ⟨key, -, -, rfl⟩ := ifaceRemoveLease_ok hrm
    exact dropped s i key _

theorem commit {i r : Ref} {req : Message6} {now : Time} {stored : Bool} (hr : s.Held r ∨ r < s.heap.next) :
    Grows s (s.commit env conf i r req now stored).1 := by
  have hmod := modify s r (committedLease env conf i req now)
  have hup : Grows (s.modify r (committedLease env conf i req now)) _ := indexUpdate env.toLower i hr
  unfold DHCPServer.commit
  generalize s.modify r (committedLease env conf i req now) = t at hmod hup ⊢
  dsimp only
  cases hok : t.indexUpdate env.toLower i r with
  | error e => cases e <;> first | exact hmod | exact hmod.trans (uncommit t i r)
  | ok t' =>
    rw [hok] at hup
    cases stored with
    | false => exact (hmod.trans hup).trans (uncommit t' i r)
    | true => exact hmod.trans hup

end Grows

end AdGuardHome.Dhcpsvc.DHCPServer
