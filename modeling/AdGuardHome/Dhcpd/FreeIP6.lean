import AdGuardHome.Dhcpd.V6Server
import Mathlib.Data.Finset.Card
import Mathlib.Data.Multiset.AddSub

/-!
# The free addresses of the DHCPv6 server

The table is exact if a flag is set just when a lease holds the address of the range that ends so.  With an exact
table the search for a free address is right, and it stays so whatever is reserved then; with another one it goes
wrong after some reservations.  The table stays exact in the runs in which

* each added lease is in the prefix, ends below the range, or ends like an address that a lease holds,
* no lease that remains holds the address of the range that ends like a removed one,
* a reload brings leases on all addresses whose flags are set before it or by it.
-/

namespace AdGuardHome.Dhcpd.V6Server

open AdGuardHome.Net AdGuardHome.Lib AdGuardHome.Dhcp

variable {conf : V6ServerConf} {s t : V6Server}

/-! ## The property -/

/-- A lease is on the address of the range that ends with `b`. -/
def Held (conf : V6ServerConf) (leases : List Lease) (b : Fin 256) : Prop := ∃ l ∈ leases, l.ip = conf.withLast b

instance (conf : V6ServerConf) (leases : List Lease) (b : Fin 256) : Decidable (Held conf leases b) :=
  inferInstanceAs (Decidable (∃ l ∈ leases, l.ip = conf.withLast b))

/-- The address that is found is held by no lease, and if none is found all addresses of the range are held. -/
structure FreeIPRight (conf : V6ServerConf) (s : V6Server) : Prop where
  free : ∀ ip, s.findFreeIP conf = some ip → ∀ l ∈ s.leases, l.ip ≠ ip
  full : s.findFreeIP conf = none → ∀ b, conf.first ≤ b → Held conf s.leases b

/-- The search is right now and after any number of reservations. -/
def StaysRight (conf : V6ServerConf) (s : V6Server) : Prop :=
  ∀ mac now n, FreeIPRight conf (run (step conf) s (List.replicate n (.reserveLease mac now)))

/-- The flags tell which addresses of the range are held. -/
def TableExact (conf : V6ServerConf) (s : V6Server) : Prop :=
  ∀ b, conf.first ≤ b → (s.ipAddrs b = true ↔ Held conf s.leases b)

@[simp] theorem lastByte_withLast (conf : V6ServerConf) (b : Fin 256) : lastByte (conf.withLast b) = b := by
  have hb := b.isLt
  have hs := conf.ipStart.isLt
  apply Fin.ext
  show (BitVec.ofNat 128 (conf.ipStart.toNat / 256 * 256 + b)).toNat % 256 = b
  rw [BitVec.toNat_ofNat]
  omega

theorem Held.exists_lastByte {leases : List Lease} {b : Fin 256} (h : Held conf leases b) :
    ∃ l ∈ leases, lastByte l.ip = b := by
  obtain ⟨l, hl, hip⟩ := h
  exact ⟨l, hl, by rw [hip, lastByte_withLast]⟩

theorem held_append {leases leases' : List Lease} {b : Fin 256} :
    Held conf (leases ++ leases') b ↔ Held conf leases b ∨ Held conf leases' b := by
  simp only [Held, List.mem_append, or_and_right, exists_or]

/-! ## The search -/

theorem findFreeIP_some {ip : Addr} (h : s.findFreeIP conf = some ip) :
    ∃ b, conf.first ≤ b ∧ s.ipAddrs b = false ∧ ip = conf.withLast b := by
  obtain ⟨b, hb, rfl⟩ := Option.map_eq_some_iff.1 h
  have hmem := List.mem_filter.1 (List.mem_of_find?_eq_some hb)
  have hfree := List.find?_some hb
  exact ⟨b, of_decide_eq_true hmem.2, by simpa using hfree, rfl⟩

theorem findFreeIP_none (h : s.findFreeIP conf = none) {b : Fin 256} (hb : conf.first ≤ b) : s.ipAddrs b = true := by
  have hnone := List.find?_eq_none.1 (Option.map_eq_none_iff.1 h) b
    (List.mem_filter.2 ⟨List.mem_finRange b, decide_eq_true hb⟩)
  simpa using hnone

theorem TableExact.freeIPRight (h : TableExact conf s) : FreeIPRight conf s where
  free := by
    intro ip hip l hl heq
    obtain ⟨b, hb, hfree, rfl⟩ := findFreeIP_some hip
    rw [(h b hb).2 ⟨l, hl, heq⟩] at hfree
    cases hfree
  full := fun hnone b hb => (h b hb).1 (findFreeIP_none hnone hb)

/-! ## What the operations do to the list and the table -/

/-- Some leases are removed. -/
structure Removes (s t : V6Server) (removed : List Lease) : Prop where
  perm : (removed ++ t.leases).Perm s.leases
  flags : ∀ b, t.ipAddrs b = true ↔ s.ipAddrs b = true ∧ ∀ l ∈ removed, lastByte l.ip ≠ b

theorem Removes.refl (s : V6Server) : Removes s s [] := ⟨List.Perm.refl _, by simp⟩

theorem Removes.trans {u : V6Server} {removed removed' : List Lease} (h : Removes s t removed)
    (h' : Removes t u removed') : Removes s u (removed ++ removed') where
  perm := by
    rw [List.append_assoc]
    exact (h'.perm.append_left removed).trans h.perm
  flags := by
    intro b
    rw [h'.flags, h.flags, List.forall_mem_append, and_assoc]

/-- The last entry takes the place of the removed one. -/
theorem dropLast_set_perm {l : List Lease} {i : ℕ} {a z : Lease} (ha : l[i]? = some a) (hz : l.getLast? = some z) :
    (a :: (l.set i z).dropLast).Perm l := by
  obtain ⟨hi, rfl⟩ := List.getElem?_eq_some_iff.1 ha
  have hset := List.set_perm_cons_eraseIdx hi z
  have hlast : (l.set i z).getLast? = some z := by
    rw [List.getLast?_eq_getElem?, List.length_set, List.getElem?_set]
    split
    · rfl
    · rw [← List.getLast?_eq_getElem?, hz]
  rw [← List.dropLast_append_getLast? z hlast] at hset
  have hdrop : (l.set i z).dropLast.Perm (l.eraseIdx i) :=
    (List.perm_cons z).1 ((List.perm_append_singleton z _).symm.trans hset)
  exact (hdrop.cons _).trans (List.getElem_cons_eraseIdx_perm hi)

theorem removes_swap (s : V6Server) (i : ℕ) : ∃ removed, Removes s (s.leaseRemoveSwapByIndex i) removed := by
  unfold leaseRemoveSwapByIndex
  split
  · rename_i l last hl hlast
    refine ⟨[l], dropLast_set_perm hl hlast, fun b => ?_⟩
    by_cases hb : b = lastByte l.ip
    · simp [hb]
    · have hb' : ¬ lastByte l.ip = b := fun h => hb h.symm
      simp [Function.update_of_ne hb, hb']
  · exact ⟨[], Removes.refl s⟩

theorem removes_rmDynamicLoop (lease : Lease) (k i : ℕ) (s : V6Server) :
    ∃ removed, Removes s (rmDynamicLoop lease k i s).1 removed := by
  induction k generalizing i s with
  | zero => exact ⟨[], Removes.refl s⟩
  | succ k ih =>
    -- the second half of the body, after what the first half has removed
    have hcheck : ∀ (u : V6Server) (l : Lease) (removed : List Lease), Removes s u removed →
        ∃ removed, Removes s
          (if l.ip = lease.ip then
            if l.isStatic then (u, Except.error Err.staticLeaseExists)
            else rmDynamicLoop lease k (i + 1) (u.leaseRemoveSwapByIndex i)
          else rmDynamicLoop lease k (i + 1) u).1 removed := by
      intro u l removed hu
      split
      · split
        · exact ⟨removed, hu⟩
        · obtain ⟨one, hone⟩ := removes_swap u i
          obtain ⟨rest, hrest⟩ := ih (i + 1) (u.leaseRemoveSwapByIndex i)
          exact ⟨_, (hu.trans hone).trans hrest⟩
      · obtain ⟨rest, hrest⟩ := ih (i + 1) u
        exact ⟨_, hu.trans hrest⟩
    rw [rmDynamicLoop]
    split
    · exact ⟨[], Removes.refl s⟩
    · rename_i l hl
      split
      · split
        · exact ⟨[], Removes.refl s⟩
        · obtain ⟨one, hone⟩ := removes_swap s i
          dsimp only
          split
          · exact ⟨one, hone⟩
          · exact hcheck _ _ one hone
      · exact hcheck s l [] (Removes.refl s)

theorem removes_rmLease (s : V6Server) (lease : Lease) : ∃ removed, Removes s (s.rmLease lease).1 removed := by
  unfold rmLease
  split
  · exact ⟨[], Removes.refl s⟩
  · split
    · exact ⟨[], Removes.refl s⟩
    · split
      · exact ⟨[], Removes.refl s⟩
      · exact removes_swap s _

/-- Some leases are added. -/
theorem foldl_addLease (added : List Lease) (s : V6Server) :
    (added.foldl addLease s).leases = s.leases ++ added ∧
      ∀ b, (added.foldl addLease s).ipAddrs b = true ↔ s.ipAddrs b = true ∨ ∃ l ∈ added, lastByte l.ip = b := by
  induction added generalizing s with
  | nil => simp
  | cons l added ih =>
    obtain ⟨hleases, hflags⟩ := ih (s.addLease l)
    refine ⟨by rw [List.foldl_cons, hleases]; simp [addLease], fun b => ?_⟩
    rw [List.foldl_cons, hflags, List.exists_mem_cons_iff, ← or_assoc]
    apply or_congr_left
    by_cases hb : b = lastByte l.ip
    · simp [addLease, hb]
    · have hb' : ¬ lastByte l.ip = b := fun h => hb h.symm
      simp [addLease, Function.update_of_ne hb, hb']

/-- The leases that `ResetLeases` adds. -/
def loaded (conf : V6ServerConf) : List Lease → List Lease
  | [] => []
  | l :: ls =>
    if l.isStatic then l :: loaded conf ls
    else match ip6InRange conf l.ip with
      | none => []
      | some false => loaded conf ls
      | some true => l :: loaded conf ls

theorem resetLoop_eq (ls : List Lease) (s : V6Server) :
    (resetLoop conf ls s).1 = (loaded conf ls).foldl addLease s := by
  induction ls generalizing s with
  | nil => rfl
  | cons l ls ih =>
    rw [resetLoop, loaded]
    split
    · exact ih _
    · cases ip6InRange conf l.ip with
      | none => rfl
      | some inRange =>
        cases inRange with
        | false => exact ih _
        | true => exact ih _

/-! ## The exact table -/

/-- An operation that leaves the leases `rest` and adds others leaves an exact table exact. -/
def Keeps (conf : V6ServerConf) (leases rest added : List Lease) : Prop :=
  (∀ l ∈ added, conf.first ≤ lastByte l.ip → Held conf (rest ++ added) (lastByte l.ip)) ∧
    ∀ l ∈ leases.diff rest, conf.first ≤ lastByte l.ip → (∀ l' ∈ added, lastByte l'.ip ≠ lastByte l.ip) →
      ¬ Held conf rest (lastByte l.ip)

/-- What is left of the list after some leases are removed, and the lease that is added then, unless the removal
failed. -/
def changed (l : Lease) : V6Server × Except Err Unit → List Lease × List Lease
  | (t, .error _) => (t.leases, [])
  | (t, .ok ()) => (t.leases, [l])

def addChanges (s : V6Server) (l : Lease) : List Lease × List Lease :=
  match validateLease l with
  | .error _ => (s.leases, [])
  | .ok () => changed { l with isStatic := true } (s.rmDynamicLease { l with isStatic := true })

def updateChanges (s : V6Server) (l : Lease) : List Lease × List Lease :=
  match s.findLease l.hwAddr with
  | none => (s.leases, [])
  | some found => changed l (s.rmLease found)

/-- The operation leaves an exact table exact. -/
def KeepsTable (conf : V6ServerConf) (s : V6Server) : Op → Prop
  | .resetLeases ls => ∀ b, conf.first ≤ b → (s.ipAddrs b = true ∨ ∃ l ∈ loaded conf ls, lastByte l.ip = b) →
      Held conf (loaded conf ls) b
  | .addStaticLease l => Keeps conf s.leases (addChanges s l).1 (addChanges s l).2
  | .updateStaticLease l => Keeps conf s.leases (updateChanges s l).1 (updateChanges s l).2
  | .removeStaticLease l => Keeps conf s.leases (s.removeStaticLease l).1.leases []
  | .reserveLease _ _ => True

/-- The removed leases are those that are missing. -/
theorem Removes.mem_diff {removed : List Lease} (h : Removes s t removed) (l : Lease) :
    l ∈ s.leases.diff t.leases ↔ l ∈ removed := by
  have hdiff : (s.leases.diff t.leases).Perm removed := by
    rw [← Multiset.coe_eq_coe, ← Multiset.coe_sub, ← Multiset.coe_eq_coe.2 h.perm, ← Multiset.coe_add,
      Multiset.add_sub_cancel_right]
  exact hdiff.mem_iff

theorem Removes.tableExact_iff {removed : List Lease} (h : Removes s t removed) (hs : TableExact conf s)
    (added : List Lease) :
    TableExact conf (added.foldl addLease t) ↔ Keeps conf s.leases t.leases added := by
  obtain ⟨hleases, hflags⟩ := foldl_addLease added t
  have hheld : ∀ b, Held conf s.leases b ↔ Held conf removed b ∨ Held conf t.leases b := by
    intro b
    rw [← held_append]
    exact exists_congr fun l => and_congr_left fun _ => h.perm.mem_iff.symm
  constructor
  · intro ht
    refine ⟨fun l hl hb => ?_, fun l hl hb hnew hrest => ?_⟩
    · rw [← hleases]
      exact (ht _ hb).1 ((hflags _).2 (.inr ⟨l, hl, rfl⟩))
    · rw [h.mem_diff] at hl
      have hset := (ht _ hb).2 (by rw [hleases]; exact held_append.2 (.inl hrest))
      rcases (hflags _).1 hset with hold | ⟨l', hl', heq⟩
      · exact ((h.flags _).1 hold).2 l hl rfl
      · exact hnew l' hl' heq
  · rintro ⟨hadded, hremoved⟩ b hb
    rw [hflags, h.flags, hs b hb, hleases, hheld]
    by_cases hnew : ∃ l ∈ added, lastByte l.ip = b
    · obtain ⟨l, hl, rfl⟩ := hnew
      exact iff_of_true (.inr ⟨l, hl, rfl⟩) (hadded l hl hb)
    have hnotAdded : ¬ Held conf added b := fun hh => hnew hh.exists_lastByte
    rw [held_append]
    by_cases hgone : ∃ l ∈ removed, lastByte l.ip = b
    · obtain ⟨l, hl, rfl⟩ := hgone
      have hrest := hremoved l ((h.mem_diff l).2 hl) hb fun l' hl' heq => hnew ⟨l', hl', heq⟩
      refine iff_of_false ?_ ?_
      · rintro (⟨-, hne⟩ | hnew')
        · exact hne l hl rfl
        · exact hnew hnew'
      · rintro (hh | hh)
        · exact hrest hh
        · exact hnotAdded hh
    · have hnotRemoved : ¬ Held conf removed b := fun hh => hgone hh.exists_lastByte
      have hstay : ∀ l ∈ removed, lastByte l.ip ≠ b := fun l hl heq => hgone ⟨l, hl, heq⟩
      rw [and_iff_left hstay, or_iff_left hnew, or_iff_left hnotAdded, or_iff_right hnotRemoved]

/-- A reservation is on a free address, or changes the hardware address of a lease. -/
theorem reserveLease_cases (conf : V6ServerConf) (s : V6Server) (mac : HardwareAddr) (now : Time) :
    (∃ b, conf.first ≤ b ∧ s.findFreeIP conf = some (conf.withLast b) ∧ s.ipAddrs b = false ∧
        (s.reserveLease conf mac now).1 = s.addLease { (default : Lease) with ip := conf.withLast b, hwAddr := mac }) ∨
      ((s.findFreeIP conf = none) ∧ (s.reserveLease conf mac now).1.ipAddrs = s.ipAddrs ∧
        ∀ b, Held conf (s.reserveLease conf mac now).1.leases b ↔ Held conf s.leases b) := by
  unfold reserveLease
  split
  · rename_i ip hip
    obtain ⟨b, hb, hfree, rfl⟩ := findFreeIP_some hip
    exact .inl ⟨b, hb, hip, hfree, rfl⟩
  · rename_i hnone
    refine .inr ⟨hnone, ?_⟩
    split
    · exact ⟨rfl, fun _ => Iff.rfl⟩
    · rename_i i _
      split
      · exact ⟨rfl, fun _ => Iff.rfl⟩
      · rename_i l hl
        refine ⟨rfl, fun b => ?_⟩
        obtain ⟨hi, rfl⟩ := List.getElem?_eq_some_iff.1 hl
        have hips : (s.leases.set i { s.leases[i] with
            hwAddr := V4Server.copyBytes s.leases[i].hwAddr mac }).map Lease.ip = s.leases.map Lease.ip := by
          rw [List.map_set]
          dsimp only
          rw [← List.getElem_map Lease.ip (h := by simpa using hi), List.set_getElem_self]
        have hiff : ∀ ls : List Lease, Held conf ls b ↔ conf.withLast b ∈ ls.map Lease.ip := fun ls => by
          simp [Held]
        rw [hiff, hiff, hips]

theorem TableExact.reserveLease (h : TableExact conf s) (mac : HardwareAddr) (now : Time) :
    TableExact conf (s.reserveLease conf mac now).1 := by
  rcases reserveLease_cases conf s mac now with ⟨b, hb, -, -, heq⟩ | ⟨-, hflags, hheld⟩
  · rw [heq]
    refine ((Removes.refl s).tableExact_iff h [_]).2 ⟨fun l hl _ => ?_, fun l hl => ?_⟩
    · rw [List.mem_singleton.1 hl, lastByte_withLast]
      exact held_append.2 (.inr ⟨_, List.mem_singleton_self _, rfl⟩)
    · rw [(Removes.refl s).mem_diff] at hl
      cases hl
  · intro b hb
    rw [hflags, hheld]
    exact h b hb

/-- One step from an exact table. -/
theorem tableExact_step_iff (h : TableExact conf s) (op : Op) :
    TableExact conf (s.step conf op) ↔ KeepsTable conf s op := by
  cases op with
  | resetLeases ls =>
    obtain ⟨hleases, hflags⟩ := foldl_addLease (loaded conf ls) { s with leases := [] }
    unfold step resetLeases KeepsTable
    dsimp only
    rw [resetLoop_eq]
    refine forall_congr' fun b => imp_congr_right fun hb => ?_
    rw [hflags, hleases, List.nil_append]
    exact ⟨Iff.mp, fun hk => ⟨hk, fun hh => .inr hh.exists_lastByte⟩⟩
  | addStaticLease l =>
    unfold step addStaticLease KeepsTable addChanges
    dsimp only
    cases validateLease l with
    | error e => exact (Removes.refl s).tableExact_iff h []
    | ok u =>
      dsimp only
      obtain ⟨removed, hrm⟩ := removes_rmDynamicLoop { l with isStatic := true } s.leases.length 0 s
      change Removes s (s.rmDynamicLease { l with isStatic := true }).1 removed at hrm
      generalize s.rmDynamicLease { l with isStatic := true } = res at hrm ⊢
      obtain ⟨t, e | u⟩ := res
      · exact hrm.tableExact_iff h []
      · exact hrm.tableExact_iff h [_]
  | updateStaticLease l =>
    unfold step updateStaticLease KeepsTable updateChanges
    dsimp only
    cases s.findLease l.hwAddr with
    | none => exact (Removes.refl s).tableExact_iff h []
    | some found =>
      dsimp only
      obtain ⟨removed, hrm⟩ := removes_rmLease s found
      generalize s.rmLease found = res at hrm ⊢
      obtain ⟨t, e | u⟩ := res
      · exact hrm.tableExact_iff h []
      · exact hrm.tableExact_iff h [_]
  | removeStaticLease l =>
    unfold step removeStaticLease KeepsTable removeStaticLease
    dsimp only
    cases validateLease l with
    | error e => exact (Removes.refl s).tableExact_iff h []
    | ok u =>
      obtain ⟨removed, hrm⟩ := removes_rmLease s l
      exact hrm.tableExact_iff h []
  | reserveLease mac now => exact iff_of_true (h.reserveLease mac now) trivial

/-! ## The search after reservations -/

theorem TableExact.staysRight (h : TableExact conf s) : StaysRight conf s := by
  intro mac now n
  refine TableExact.freeIPRight ?_
  induction n generalizing s with
  | zero => exact h
  | succ n ih => exact ih (h.reserveLease mac now)

/-- The last bytes that the search may still return. -/
def freeBytes (conf : V6ServerConf) (s : V6Server) : Finset (Fin 256) :=
  Finset.univ.filter fun b => conf.first ≤ b ∧ s.ipAddrs b = false

/-- A flag that is wrong stays wrong while the free addresses before it are reserved, and makes the search wrong at
last. -/
theorem tableExact_of_staysRight (mac : HardwareAddr) (now : Time) (c : ℕ) : ∀ s : V6Server,
    (freeBytes conf s).card = c →
      (∀ n, FreeIPRight conf (run (step conf) s (List.replicate n (.reserveLease mac now)))) → TableExact conf s := by
  induction c using Nat.strongRecOn with
  | ind c ih =>
    intro s hc hright b hb
    have hnow : FreeIPRight conf s := hright 0
    rcases reserveLease_cases conf s mac now with ⟨a, ha, hfound, hfree, heq⟩ | ⟨hnone, -, -⟩
    · have hunheld : ¬ Held conf s.leases a := by
        rintro ⟨l, hl, hip⟩
        exact hnow.free _ hfound l hl hip
      by_cases hba : b = a
      · rw [hba]
        exact iff_of_false (by simp [hfree]) hunheld
      · have hlt : (freeBytes conf (s.reserveLease conf mac now).1).card < c := by
          rw [← hc, heq]
          apply Finset.card_lt_card
          rw [Finset.ssubset_iff_of_subset]
          · refine ⟨a, by simp [freeBytes, ha, hfree], by simp [freeBytes, addLease]⟩
          · intro d hd
            obtain ⟨-, hd, hset⟩ := Finset.mem_filter.1 hd
            refine Finset.mem_filter.2 ⟨Finset.mem_univ _, hd, ?_⟩
            by_cases hda : d = a
            · rw [hda]
              exact hfree
            · simpa [addLease, hda] using hset
        have hlater := ih _ hlt _ rfl (fun n => hright (n + 1)) b hb
        rw [heq] at hlater
        have hiff : Held conf (s.addLease { (default : Lease) with ip := conf.withLast a, hwAddr := mac }).leases b ↔
            Held conf s.leases b := by
          refine held_append.trans (or_iff_left ?_)
          intro hh
          obtain ⟨l, hl, hlast⟩ := hh.exists_lastByte
          rw [List.mem_singleton.1 hl, lastByte_withLast] at hlast
          exact hba hlast.symm
        rw [hiff] at hlater
        simpa [addLease, hba] using hlater
    · exact iff_of_true (findFreeIP_none hnone hb) (hnow.full hnone b hb)

theorem staysRight_iff_tableExact : StaysRight conf s ↔ TableExact conf s :=
  ⟨fun h => tableExact_of_staysRight [] 0 _ s rfl fun n => h [] 0 n, TableExact.staysRight⟩

/-! ## Whole runs -/

/-- From a server that has just been created the search is right in every state of a run, and stays so whatever is
reserved then, just when every operation leaves the table exact. -/
theorem staysRight_iff_keepsTable (conf : V6ServerConf) (ops : List Op) :
    (Meets (step conf) (KeepsTable conf) empty ops → Along (step conf) (FreeIPRight conf) empty ops) ∧
      (Along (step conf) (StaysRight conf) empty ops ↔ Meets (step conf) (KeepsTable conf) empty ops) := by
  have hempty : TableExact conf empty := fun b _ => iff_of_false (by simp [empty]) (by simp [Held, empty])
  have hiff : Along (step conf) (StaysRight conf) empty ops ↔ Meets (step conf) (KeepsTable conf) empty ops :=
    along_iff_meets (I := TableExact conf) (fun s hs => hs.staysRight)
      (fun s op hs hk => (tableExact_step_iff hs op).2 hk)
      (fun s op hs hk hstays => hk ((tableExact_step_iff hs op).1 (staysRight_iff_tableExact.1 hstays))) hempty ops
  exact ⟨fun hkeeps => (hiff.2 hkeeps).mono fun s hs => hs [] 0 0, hiff⟩

instance (conf : V6ServerConf) (leases rest added : List Lease) : Decidable (Keeps conf leases rest added) :=
  inferInstanceAs (Decidable (_ ∧ _))

instance (conf : V6ServerConf) (s : V6Server) : ∀ op, Decidable (KeepsTable conf s op)
  | .resetLeases ls => inferInstanceAs (Decidable (∀ b, _ → _ → Held conf (loaded conf ls) b))
  | .addStaticLease l => inferInstanceAs (Decidable (Keeps conf s.leases (addChanges s l).1 (addChanges s l).2))
  | .updateStaticLease l => inferInstanceAs (Decidable (Keeps conf s.leases (updateChanges s l).1 (updateChanges s l).2))
  | .removeStaticLease l => inferInstanceAs (Decidable (Keeps conf s.leases (s.removeStaticLease l).1.leases []))
  | .reserveLease _ _ => inferInstanceAs (Decidable True)

/-- The range from `2001::1`. -/
def lanConf6 : V6ServerConf := ⟨0x20010000000000000000000000000001⟩

def camera (a : BitVec 128) (mac : UInt8) : Lease where
  ip := .v6 a ""
  expiry := 0
  hostname := ""
  hwAddr := [2, 0, 0, 0, 0, mac]
  isStatic := true

/-- A static lease in the range and one that ends below it, a reservation, and a change of the first one. -/
def ops6 : List Op :=
  [.addStaticLease (camera 0x20010000000000000000000000000001 1),
    .addStaticLease (camera 0x20020000000000000000000000000000 2), .reserveLease [2, 0, 0, 0, 0, 3] 5,
    .updateStaticLease (camera 0x20010000000000000000000000000004 1),
    .resetLeases [camera 0x20010000000000000000000000000001 1, camera 0x20010000000000000000000000000002 2,
      camera 0x20010000000000000000000000000004 3]]

theorem staysRight_ops6 : Meets (step lanConf6) (KeepsTable lanConf6) empty ops6 ∧
    Along (step lanConf6) (StaysRight lanConf6) empty ops6 :=
  have hkeeps : Meets (step lanConf6) (KeepsTable lanConf6) empty ops6 := by decide +kernel
  ⟨hkeeps, (staysRight_iff_keepsTable lanConf6 ops6).2.2 hkeeps⟩

/-- Two static leases with the same last byte: removing the one outside of the prefix frees the address of the
other. -/
theorem not_freeIPRight_sharedByte :
    ¬ ∀ (conf : V6ServerConf) (ops : List Op), Along (step conf) (FreeIPRight conf) empty ops := by
  intro h
  have hrun := h lanConf6 [.addStaticLease (camera 0x20010000000000000000000000000001 1),
    .addStaticLease (camera 0x20020000000000000000000000000001 2),
    .removeStaticLease (camera 0x20020000000000000000000000000001 2)]
  exact hrun.2.2.2.free (.v6 0x20010000000000000000000000000001 "") (by decide +kernel)
    (camera 0x20010000000000000000000000000001 1) (by decide +kernel) rfl

end AdGuardHome.Dhcpd.V6Server
