import AdGuardHome.Dhcp.Database
import AdGuardHome.Dhcpsvc.Placed

/-!
# The database of the DHCP service

`jsondatabase.go` and the part of `leaseindex.go` that stores the index and loads it.  Loading adds the leases one
by one and leaves out those that share an address, a lowered hostname or a hardware address with one that is in the
index already.  Blocked leases have no hostname and share a hardware address, so of several only one comes back.
-/

namespace AdGuardHome.Dhcpsvc

open AdGuardHome.Net AdGuardHome.Lib AdGuardHome.Dhcp

/-! ## The file -/

/-- `jsonLease` -/
abbrev JSONLease := DBLease GoString

/-- `toJSONLease` -/
def toJSONLease (offset : Int) (l : Lease) : JSONLease := toRecord offset l

/-- `jsonLease.toInternal`; `none` is an error. -/
def toInternal (jl : JSONLease) : Option Lease := ofRecord jl

/-- Inserts a record in front of the first one whose hostname is not less, where `slices.BinarySearchFunc` puts it
in a sorted list. -/
def insertByName (leases : List JSONLease) (jl : JSONLease) : List JSONLease :=
  let i := leases.findIdx fun other => !decide (other.hostname < jl.hostname)
  leases.take i ++ jl :: leases.drop i

/-- `JSONDatabase.Store`: the records in the file.  `zone` has the offset of the zone of each expiry. -/
def store (zone : Lease → Int) (leases : List Lease) : List Row :=
  (leases.foldl (fun dl l => insertByName dl (toJSONLease (zone l) l)) []).map marshal

/-- `JSONDatabase.Load`: a file or a record that cannot be read is an error. -/
def load (file : List Row) : Option (List Lease) := (file.mapM unmarshal).bind fun dl => dl.mapM toInternal

namespace DHCPServer

variable {toLower : GoString → GoString} {conf : ServerConf} {s : DHCPServer}

/-- `leaseIndex.dbStore`, where the map is gone through in the order `order`. -/
def dbStore (zone : Lease → Int) (s : DHCPServer) (order : List Ref) : List Row := store zone (order.map s.lease)

/-- The pointers of the index in an order in which the map can be gone through. -/
def MapOrder (s : DHCPServer) (order : List Ref) : Prop := order.Perm (s.byAddr.entries.map Sigma.snd)

/-- `New` with the file. -/
def restart (toLower : GoString → GoString) (conf : ServerConf) (file : List Row) : Option DHCPServer :=
  (load file).map (new toLower conf)

/-! ## The property -/

/-- The index has the lease. -/
def Indexed (s : DHCPServer) (l : Lease) : Prop := ∃ a r, s.byAddr.get a = some r ∧ s.lease r = l

/-- Every lease of the index is in the index of the restarted server, to the second. -/
def Restored (toLower : GoString → GoString) (conf : ServerConf) (zone : Lease → Int) (s : DHCPServer) : Prop :=
  ∀ order, s.MapOrder order → ∃ s', restart toLower conf (s.dbStore zone order) = some s' ∧
    ∀ l, s.Indexed l → ∃ r, s'.byAddr.get l.ip = some r ∧ Same l (s'.lease r)

/-- The two leases can be in one index. -/
structure Apart (toLower : GoString → GoString) (conf : ServerConf) (l l' : Lease) : Prop where
  ip : l.ip ≠ l'.ip
  name : toLower l.hostname ≠ toLower l'.hostname
  mac : ifaceForAddr conf l.ip = ifaceForAddr conf l'.ip → l.hwAddr ≠ l'.hwAddr

/-- What the index has to be like to come back from the database. -/
structure Restorable (toLower : GoString → GoString) (conf : ServerConf) (zone : Lease → Int) (s : DHCPServer) :
    Prop where
  utf8 : ∀ l, s.Indexed l → l.hostname.IsUtf8
  year : ∀ l, s.Indexed l → l.isStatic = false → FourDigitYear (zone l) l.expiry
  static : ∀ l, s.Indexed l → l.isStatic = true → l.expiry / Dhcp.second = 0
  apart : ∀ l l', s.Indexed l → s.Indexed l' → ¬ Same l l' → Apart toLower conf l l'

/-! ## The records -/

theorem insertByName_perm (leases : List JSONLease) (jl : JSONLease) : (insertByName leases jl).Perm (jl :: leases) := by
  unfold insertByName
  dsimp only
  refine List.perm_middle.trans ?_
  rw [List.take_append_drop]

theorem foldl_insertByName_perm (f : Lease → JSONLease) (ls : List Lease) (dl : List JSONLease) :
    (ls.foldl (fun dl l => insertByName dl (f l)) dl).Perm (dl ++ ls.map f) := by
  induction ls generalizing dl with
  | nil => simp
  | cons l ls ih =>
    rw [List.foldl_cons, List.map_cons]
    exact (ih _).trans (((insertByName_perm dl (f l)).append_right _).trans List.perm_middle.symm)

/-- If every lease is read back, the file is. -/
theorem load_store {zone : Lease → Int} {ls : List Lease} (hutf8 : ∀ l ∈ ls, l.hostname.IsUtf8)
    (h : ∀ l ∈ ls, ofRecord (toRecord (zone l) l) = some (kept l)) :
    ∃ ls', load (store zone ls) = some ls' ∧ ls'.Perm (ls.map kept) := by
  have hperm := foldl_insertByName_perm (fun l => toJSONLease (zone l) l) ls []
  rw [List.nil_append] at hperm
  generalize hdl : ls.foldl (fun dl l => insertByName dl (toJSONLease (zone l) l)) [] = dl at hperm
  -- what is read of a record, as a total function
  have hread : ∀ d ∈ dl, toInternal d = some ((toInternal d).getD default) := by
    intro d hd
    obtain ⟨l, hl, rfl⟩ := List.mem_map.1 (hperm.mem_iff.1 hd)
    have hrec : toInternal (toJSONLease (zone l) l) = some (kept l) := h l hl
    rw [hrec]
    rfl
  have hnames : ∀ d ∈ dl, ReadsBack d.hostname := by
    intro d hd
    obtain ⟨l, hl, rfl⟩ := List.mem_map.1 (hperm.mem_iff.1 hd)
    exact (readsBack_iff l.hostname).2 (hutf8 l hl)
  refine ⟨dl.map fun d => (toInternal d).getD default, ?_, ?_⟩
  · unfold load store
    rw [hdl, mapM_unmarshal_marshal hnames]
    exact mapM_eq_some hread
  · refine (hperm.map _).trans ?_
    rw [List.map_map]
    refine List.Perm.of_eq (List.map_congr_left fun l hl => ?_)
    have hrec : toInternal (toJSONLease (zone l) l) = some (kept l) := h l hl
    show (toInternal (toJSONLease (zone l) l)).getD default = kept l
    rw [hrec]
    rfl

/-! ## Loading -/

/-- A lease that shares nothing with the index and the interface is added. -/
theorem indexAdd_of_free {i r : Ref} {key : MacKey} (haddr : s.byAddr.get (s.lease r).ip = none)
    (hname : s.byName.get (toLower (s.lease r).hostname) = none) (hkey : macToKey (s.lease r).hwAddr = some key)
    (hfree : (s.iface i).leases.get key = none) :
    s.indexAdd toLower conf i r = .ok { s.modifyIface i fun n =>
      { leases := n.leases.set key r
        leasedOffsets := n.leasedOffsets.set (bit conf i (s.lease r).ip) true } with
      byAddr := s.byAddr.set (s.lease r).ip r
      byName := s.byName.set (toLower (s.lease r).hostname) r } := by
  unfold indexAdd ifaceAddLease
  simp only [haddr, hname, hkey, hfree]
  rfl

/-- The leases `done` are in the index, and nothing else. -/
structure Loaded (toLower : GoString → GoString) (conf : ServerConf) (done : List Lease) (s : DHCPServer) : Prop where
  found : ∀ l ∈ done, ∃ r, s.byAddr.get l.ip = some r ∧ r < s.heap.next ∧ s.lease r = l
  addrs : ∀ a r, s.byAddr.get a = some r → ∃ l ∈ done, l.ip = a
  names : ∀ n r, s.byName.get n = some r → ∃ l ∈ done, toLower l.hostname = n
  keys : ∀ i k r, s.Stored i k r → ∃ l ∈ done, ifaceForAddr conf l.ip = some i ∧ macToKey l.hwAddr = some k

theorem Loaded.empty : Loaded toLower conf [] empty where
  found := by simp
  addrs := by
    intro a r h
    rw [show DHCPServer.empty.byAddr.get a = none from GoMap.get_empty a] at h
    cases h
  names := by
    intro n r h
    rw [show DHCPServer.empty.byName.get n = none from GoMap.get_empty n] at h
    cases h
  keys := fun i k r h => absurd h (not_stored_empty i k r)

theorem bytes_of_macToKey {mac : HardwareAddr} {key : MacKey} (h : macToKey mac = some key) : key.bytes = mac := by
  unfold macToKey at h
  split at h
  · cases h
    rfl
  · cases h

theorem eq_none_of_forall {α : Type} {o : Option α} (h : ∀ a, o = some a → False) : o = none := by
  cases o with
  | none => rfl
  | some a => exact (h a rfl).elim

theorem exists_mem_concat {done : List Lease} {l : Lease} {P : Lease → Prop} :
    (∃ l' ∈ done ++ [l], P l') ↔ (∃ l' ∈ done, P l') ∨ P l := by
  simp only [List.mem_append, List.mem_singleton, or_and_right, exists_or, exists_eq_left]

/-- A lease that is there already is left out, as its address is in the index. -/
theorem Loaded.again {done : List Lease} (h : Loaded toLower conf done s) {l : Lease}
    (hiface : (ifaceForAddr conf l.ip).isSome) (hmem : l ∈ done) :
    Loaded toLower conf (done ++ [l]) s ∧ s.addLease toLower conf l = .error .ipExists := by
  constructor
  · refine ⟨fun l' hl' => ?_, fun a r hr => exists_mem_concat.2 (.inl (h.addrs a r hr)),
      fun n r hr => exists_mem_concat.2 (.inl (h.names n r hr)),
      fun i k r hr => exists_mem_concat.2 (.inl (h.keys i k r hr))⟩
    rcases List.mem_append.1 hl' with hl' | hl'
    · exact h.found l' hl'
    · exact h.found l' (List.mem_singleton.1 hl' ▸ hmem)
  · obtain ⟨i, hi⟩ := Option.isSome_iff_exists.1 hiface
    obtain ⟨r, hr, -⟩ := h.found l hmem
    unfold addLease indexAdd
    rw [hi]
    dsimp only
    rw [lease_alloc_next, if_pos]
    show (s.byAddr.get l.ip).isSome = true
    rw [hr]
    rfl

/-- The index and the interface have room for a lease that shares nothing with the ones that are there. -/
theorem Loaded.free {done : List Lease} (h : Loaded toLower conf done s) {l : Lease} {i : Ref} {key : MacKey}
    (hi : ifaceForAddr conf l.ip = some i) (hkey : macToKey l.hwAddr = some key)
    (hapart : ∀ l' ∈ done, Apart toLower conf l' l) :
    s.byAddr.get l.ip = none ∧ s.byName.get (toLower l.hostname) = none ∧ (s.iface i).leases.get key = none := by
  refine ⟨eq_none_of_forall fun r hr => ?_, eq_none_of_forall fun r hr => ?_, eq_none_of_forall fun r hr => ?_⟩
  · obtain ⟨l', hl', hip⟩ := h.addrs l.ip r hr
    exact (hapart l' hl').ip hip
  · obtain ⟨l', hl', hn⟩ := h.names _ r hr
    exact (hapart l' hl').name hn
  · obtain ⟨l', hl', hi', hk'⟩ := h.keys i key r hr
    exact (hapart l' hl').mac (hi'.trans hi.symm) ((bytes_of_macToKey hk').symm.trans (bytes_of_macToKey hkey))

/-- A lease that shares nothing is added. -/
theorem Loaded.addNew {done : List Lease} (h : Loaded toLower conf done s) {l : Lease} {i : Ref} {key : MacKey}
    (hi : ifaceForAddr conf l.ip = some i) (hkey : macToKey l.hwAddr = some key)
    (hapart : ∀ l' ∈ done, Apart toLower conf l' l) :
    Loaded toLower conf (done ++ [l]) (s.orElse (s.addLease toLower conf l)) := by
  obtain ⟨haddr, hname, hfree⟩ := h.free hi hkey hapart
  have hnext := lease_alloc_next s l
  have hok := @indexAdd_of_free toLower conf (s.alloc l) i s.heap.next key (by rwa [hnext]) (by rwa [hnext])
    (by rwa [hnext]) hfree
  rw [hnext] at hok
  unfold addLease
  rw [hi]
  dsimp only
  rw [hok]
  refine ⟨fun l' hl' => ?_, fun a r hr => exists_mem_concat.2 ?_, fun n r hr => exists_mem_concat.2 ?_,
    fun j k r hr => exists_mem_concat.2 ?_⟩
  · rcases List.mem_append.1 hl' with hl' | hl'
    · obtain ⟨r, hr, hlt, hlease⟩ := h.found l' hl'
      refine ⟨r, ?_, Nat.lt_succ_of_lt hlt, ?_⟩
      · exact (GoMap.get_set_ne _ (hapart l' hl').ip _).trans hr
      · exact (lease_alloc_of_lt s hlt l).trans hlease
    · rw [List.mem_singleton.1 hl']
      exact ⟨s.heap.next, GoMap.get_set_self _ _ _, Nat.lt_succ_self _, hnext⟩
  · change (s.byAddr.set l.ip s.heap.next).get a = some r at hr
    rw [GoMap.get_set] at hr
    split at hr
    · rename_i heq
      exact .inr heq.symm
    · exact .inl (h.addrs a r hr)
  · change (s.byName.set (toLower l.hostname) s.heap.next).get n = some r at hr
    rw [GoMap.get_set] at hr
    split at hr
    · rename_i heq
      exact .inr heq.symm
    · exact .inl (h.names n r hr)
  · change ((s.alloc l).modifyIface i fun n => { leases := n.leases.set key s.heap.next
                                                 leasedOffsets := n.leasedOffsets.set (bit conf i l.ip) true }).Stored
      j k r at hr
    rcases (stored_modifyIface_set fun _ => rfl).1 hr with ⟨rfl, rfl, -⟩ | ⟨hr, -⟩
    · exact .inr ⟨hi, hkey⟩
    · exact .inl (h.keys j k r hr)

theorem Loaded.add {done : List Lease} (h : Loaded toLower conf done s) {l : Lease}
    (hiface : (ifaceForAddr conf l.ip).isSome) (hmac : (macToKey l.hwAddr).isSome)
    (hapart : ∀ l' ∈ done, l' ≠ l → Apart toLower conf l' l) :
    Loaded toLower conf (done ++ [l]) (s.orElse (s.addLease toLower conf l)) := by
  by_cases hmem : l ∈ done
  · obtain ⟨hagain, herr⟩ := h.again hiface hmem
    rw [herr]
    exact hagain
  · obtain ⟨i, hi⟩ := Option.isSome_iff_exists.1 hiface
    obtain ⟨key, hkey⟩ := Option.isSome_iff_exists.1 hmac
    exact h.addNew hi hkey fun l' hl' => hapart l' hl' fun heq => hmem (heq ▸ hl')

/-- Leases any two of which can be in one index are all loaded. -/
theorem loaded_new {ls : List Lease} (hiface : ∀ l ∈ ls, (ifaceForAddr conf l.ip).isSome)
    (hmac : ∀ l ∈ ls, (macToKey l.hwAddr).isSome)
    (hapart : ∀ l ∈ ls, ∀ l' ∈ ls, l ≠ l' → Apart toLower conf l l') :
    Loaded toLower conf ls (new toLower conf ls) := by
  refine run_invariant_of_done (I := Loaded toLower conf) (fun done hdone l hl s h => ?_) Loaded.empty
  exact h.add (hiface l hl) (hmac l hl) fun l' hl' hne => hapart l' (hdone hl') l hl hne

/-! ## The round trip -/

theorem MapOrder.mem_iff {order : List Ref} (h : s.MapOrder order) (l : Lease) :
    l ∈ order.map s.lease ↔ s.Indexed l := by
  have hget : ∀ r, r ∈ order ↔ ∃ a, s.byAddr.get a = some r := by
    intro r
    rw [List.Perm.mem_iff h, List.mem_map]
    constructor
    · rintro ⟨⟨a, r'⟩, hmem, rfl⟩
      exact ⟨a, AList.mem_lookup_iff.2 hmem⟩
    · rintro ⟨a, ha⟩
      exact ⟨⟨a, r⟩, AList.mem_lookup_iff.1 ha, rfl⟩
  rw [List.mem_map]
  constructor
  · rintro ⟨r, hr, rfl⟩
    obtain ⟨a, ha⟩ := (hget r).1 hr
    exact ⟨a, r, ha, rfl⟩
  · rintro ⟨a, r, ha, rfl⟩
    exact ⟨r, (hget r).2 ⟨a, ha⟩, rfl⟩

/-- In every state of every run, from any database: if the leases of the index can be in one index and their
hostnames and expiries can be written, then all of them come back from the database. -/
theorem restored_of_restorable (toLower : GoString → GoString) (conf : ServerConf) (zone : Lease → Int) (db : List Lease)
    (ops : List Op) (h : Restorable toLower conf zone (run (step toLower conf) (new toLower conf db) ops)) :
    Restored toLower conf zone (run (step toLower conf) (new toLower conf db) ops) := by
  have hplaced : Placed conf (run (step toLower conf) (new toLower conf db) ops) :=
    run_invariant (fun s op hs => hs.step op) (Placed.new toLower conf db) ops
  generalize run (step toLower conf) (new toLower conf db) ops = s at h hplaced ⊢
  have hindexable : ∀ l, s.Indexed l → (macToKey l.hwAddr).isSome ∧ (ifaceForAddr conf l.ip).isSome := by
    rintro l ⟨a, r, hr, rfl⟩
    exact ⟨(hplaced.indexed a r hr).mac, (hplaced.indexed a r hr).iface⟩
  have hvalid : ∀ l, s.Indexed l → validateMAC l.hwAddr = true := by
    intro l hl
    obtain ⟨key, hkey⟩ := Option.isSome_iff_exists.1 (hindexable l hl).1
    unfold macToKey at hkey
    split at hkey
    · assumption
    · cases hkey
  intro order horder
  have hmem := horder.mem_iff
  obtain ⟨ls', hload, hperm⟩ := @load_store zone (order.map s.lease) (fun l hl => h.utf8 l ((hmem l).1 hl)) fun l hl =>
    ofRecord_toRecord (hvalid l ((hmem l).1 hl)) (h.year l ((hmem l).1 hl))
  have hkept : ∀ l', l' ∈ ls' ↔ ∃ l, s.Indexed l ∧ kept l = l' := by
    intro l'
    rw [hperm.mem_iff, List.mem_map]
    exact exists_congr fun l => and_congr_left fun _ => hmem l
  have hloaded : Loaded toLower conf ls' (new toLower conf ls') := by
    refine loaded_new (fun l' hl' => ?_) (fun l' hl' => ?_) fun l₁ h₁ l₂ h₂ hne => ?_
    · obtain ⟨l, hl, rfl⟩ := (hkept l').1 hl'
      exact (hindexable l hl).2
    · obtain ⟨l, hl, rfl⟩ := (hkept l').1 hl'
      exact (hindexable l hl).1
    · obtain ⟨l, hl, rfl⟩ := (hkept l₁).1 h₁
      obtain ⟨l', hl', rfl⟩ := (hkept l₂).1 h₂
      obtain ⟨hip, hname, hmac⟩ := h.apart l l' hl hl' fun hsame => hne (kept_congr hsame)
      exact ⟨hip, hname, hmac⟩
  refine ⟨new toLower conf ls', by unfold restart dbStore; rw [hload]; rfl, fun l hl => ?_⟩
  obtain ⟨r, hr, -, hlease⟩ := hloaded.found (kept l) ((hkept _).2 ⟨l, hl, rfl⟩)
  exact ⟨r, hr, hlease ▸ same_kept (h.static l hl)⟩

/-! ### Declined addresses -/

/-- What is asked of the index, of a list of its leases. -/
theorem Restorable.of_order {zone : Lease → Int} {order : List Ref} (horder : s.MapOrder order)
    (hutf8 : ∀ l ∈ order.map s.lease, l.hostname.IsUtf8)
    (hyear : ∀ l ∈ order.map s.lease, l.isStatic = false → FourDigitYear (zone l) l.expiry)
    (hstatic : ∀ l ∈ order.map s.lease, l.isStatic = true → l.expiry / Dhcp.second = 0)
    (hapart : ∀ l ∈ order.map s.lease, ∀ l' ∈ order.map s.lease, ¬ Same l l' → Apart toLower conf l l') :
    Restorable toLower conf zone s where
  utf8 := fun l hl => hutf8 l ((horder.mem_iff l).2 hl)
  year := fun l hl => hyear l ((horder.mem_iff l).2 hl)
  static := fun l hl => hstatic l ((horder.mem_iff l).2 hl)
  apart := fun l l' hl hl' => hapart l ((horder.mem_iff l).2 hl) l' ((horder.mem_iff l').2 hl')

instance (toLower : GoString → GoString) (conf : ServerConf) (l l' : Lease) : Decidable (Apart toLower conf l l') :=
  decidable_of_iff (l.ip ≠ l'.ip ∧ toLower l.hostname ≠ toLower l'.hostname ∧
      (ifaceForAddr conf l.ip = ifaceForAddr conf l'.ip → l.hwAddr ≠ l'.hwAddr))
    ⟨fun ⟨hip, hname, hmac⟩ => ⟨hip, hname, hmac⟩, fun ⟨hip, hname, hmac⟩ => ⟨hip, hname, hmac⟩⟩

/-- A client gets an address and declines it. -/
def declined (mac : HardwareAddr) (ip : BitVec 32) (hostname : GoString) : List Op :=
  [.discover 0 (lanMessage mac none "") 1 [], .request 0 (lanMessage mac (some ip) hostname) 2,
    .decline 0 (lanMessage mac (some ip) "") 3]

/-- One declined address next to a static lease comes back. -/
theorem restored_declined :
    Restored asciiLower lanConf (fun _ => 60) (run (step asciiLower lanConf)
      (new asciiLower lanConf [printer 0xc0a80a64]) (declined [2, 0, 0, 0, 0, 1] 0xc0a80a65 "laptop")) :=
  restored_of_restorable asciiLower lanConf (fun _ => 60) [printer 0xc0a80a64]
    (declined [2, 0, 0, 0, 0, 1] 0xc0a80a65 "laptop")
    (.of_order (List.Perm.refl _) (by decide +kernel) (by decide +kernel) (by decide +kernel) (by decide +kernel))

/-- The state in which two clients have declined their addresses. -/
def twoDeclined : DHCPServer :=
  run (step asciiLower lanConf) (new asciiLower lanConf [])
    [.discover 0 (lanMessage [2, 0, 0, 0, 0, 1] none "") 1 [], .discover 0 (lanMessage [2, 0, 0, 0, 0, 2] none "") 1 [],
      .request 0 (lanMessage [2, 0, 0, 0, 0, 1] (some 0xc0a80a64) "laptop") 2,
      .request 0 (lanMessage [2, 0, 0, 0, 0, 2] (some 0xc0a80a65) "phone") 2,
      .decline 0 (lanMessage [2, 0, 0, 0, 0, 1] (some 0xc0a80a64) "") 3,
      .decline 0 (lanMessage [2, 0, 0, 0, 0, 2] (some 0xc0a80a65) "") 3]

/-- Of two declined addresses only one is still blocked after a restart. -/
theorem not_restored_twoDeclined :
    ¬ ∀ (toLower : GoString → GoString) (conf : ServerConf) (zone : Lease → Int) (db : List Lease) (ops : List Op),
      Restored toLower conf zone (run (step toLower conf) (new toLower conf db) ops) := by
  intro h
  have hrestored : Restored asciiLower lanConf (fun _ => 60) twoDeclined := h _ _ _ _ _
  obtain ⟨s', hs', hall⟩ := hrestored [1, 0] (by unfold MapOrder; decide +kernel)
  have hlost : ((restart asciiLower lanConf (twoDeclined.dbStore (fun _ => 60) [1, 0])).map fun s' =>
      (s'.byAddr.get (.v4 0xc0a80a64)).isSome && (s'.byAddr.get (.v4 0xc0a80a65)).isSome) = some false := by
    decide +kernel
  have hfound : ∀ a, (∃ r, twoDeclined.byAddr.get a = some r ∧ (twoDeclined.lease r).ip = a) →
      (s'.byAddr.get a).isSome = true := by
    rintro a ⟨r, hr, hip⟩
    obtain ⟨r', hr', -⟩ := hall (twoDeclined.lease r) ⟨a, r, hr, rfl⟩
    rw [← hip, hr']
    rfl
  rw [hs', Option.map_some, hfound _ ⟨0, by decide +kernel, by decide +kernel⟩,
    hfound _ ⟨1, by decide +kernel, by decide +kernel⟩] at hlost
  cases hlost

end DHCPServer

end AdGuardHome.Dhcpsvc
