import AdGuardHome.Dhcp.Database
import AdGuardHome.Dhcpd.Formed

/-!
# The database of the DHCP server

`db.go` and how the DHCPv4 server takes the leases back.  Loading adds the leases one by one, the dynamic ones with
a hostname that is made anew, and leaves out a lease whose hostname is taken.  A lease without a hostname, such as
one that blocks an address, comes back with the hostname that its address gives; another lease may have it.
-/

namespace AdGuardHome.Dhcpd.V4Server

open AdGuardHome.Net AdGuardHome.Lib AdGuardHome.Dhcp

variable {env : HostEnv} {conf : V4ServerConf} {s : V4Server}

/-! ## The file -/

/-- `dbLease` -/
abbrev DBLease := Dhcp.DBLease String

/-- `fromLease` -/
def fromLease (offset : Int) (l : Lease) : DBLease := toRecord offset l

/-- `dbLease.toLease`; `none` is an error. -/
def toLease (dl : DBLease) : Option Lease := ofRecord dl

/-- Whether `dbStore` writes the lease; the dynamic ones without an expiry have only been offered. -/
def persisted (l : Lease) : Bool := l.isStatic || l.expiry != 0

/-- The leases that `dbStore` takes from the server. -/
def saved (s : V4Server) : List Lease := (s.leases.map s.lease).filter persisted

/-- A lease of the DHCPv6 server.  The handlers give it no IPv4 address, and neither does `dbLoad`. -/
abbrev Lease6 := {l : Lease // l.ip.is4 = false}

/-- The records of `dbStore`.  `zone` has the offset of the zone of each expiry. -/
def records (zone : Lease → Int) (s : V4Server) (leases6 : List Lease6) : List DBLease :=
  (s.saved ++ (leases6.map Subtype.val).filter persisted).map fun l => fromLease (zone l) l

/-- What `writeDB` can leave in the file: the records sorted by hostname, where equal ones are in any order. -/
def Written (leases : List DBLease) (file : List Row) : Prop :=
  ∃ dl : List DBLease, dl.Perm leases ∧ dl.Pairwise (fun a b => a.hostname ≤ b.hostname) ∧ file = dl.map marshal

/-- `dbLoad` of a new server.  A file that cannot be read is an error, a record that cannot be read is left out. -/
def dbLoad (env : HostEnv) (conf : V4ServerConf) (file : List Row) : Option V4Server :=
  (file.mapM unmarshal).map fun dl => resetLeases env conf empty ((dl.filterMap toLease).filter (·.ip.is4))

/-! ## The property -/

/-- What is compared of a lease: its address, hardware address, static flag and expiry to the second. -/
def holder (l : Lease) : Addr × HardwareAddr × Bool × Int := (l.ip, l.hwAddr, l.isStatic, l.expiry / second)

/-- A new server that loads the file has the leases that were saved. -/
def Restored (env : HostEnv) (conf : V4ServerConf) (zone : Lease → Int) (s : V4Server) (leases6 : List Lease6) :
    Prop :=
  ∀ file, Written (s.records zone leases6) file → ∃ s', dbLoad env conf file = some s' ∧
    ∀ x, x ∈ (s'.leases.map s'.lease).map holder ↔ x ∈ s.saved.map holder

/-- The hostname under which a lease is loaded. -/
def loadedName (env : HostEnv) (l : Lease) : String :=
  if l.isStatic then l.hostname else validHostnameForClient env l.hostname l.ip

/-- What the leases have to be like to come back from the database. -/
structure Restorable (env : HostEnv) (zone : Lease → Int) (s : V4Server) : Prop where
  year : ∀ l ∈ s.saved, l.isStatic = false → FourDigitYear (zone l) l.expiry
  static : ∀ l ∈ s.saved, l.isStatic = true → l.expiry / second = 0
  apart : ∀ l ∈ s.saved, ∀ l' ∈ s.saved, loadedName env l ≠ "" → loadedName env l = loadedName env l' →
    holder l = holder l'

instance (zone : Lease → Int) : Decidable (Restorable env zone s) :=
  decidable_of_iff (_ ∧ _ ∧ _) ⟨fun ⟨hy, hst, ha⟩ => ⟨hy, hst, ha⟩, fun ⟨hy, hst, ha⟩ => ⟨hy, hst, ha⟩⟩

/-! ## Loading -/

theorem holder_kept {l : Lease} (h : l.isStatic = true → l.expiry / second = 0) : holder (kept l) = holder l := by
  obtain ⟨hip, hmac, -, hst, hexp⟩ := same_kept h
  unfold holder
  rw [hip, hmac, hst, hexp]

theorem resetLease_eq (env : HostEnv) (conf : V4ServerConf) (s : V4Server) (l : Lease) :
    resetLease env conf s l = ((s.alloc { l with hostname := loadedName env l }).addLease conf s.heap.next).1 := by
  unfold resetLease loadedName
  dsimp only
  split <;> rfl

/-- A lease where it may be is added unless its hostname is taken. -/
theorem addLease_of_placed {r : Ref} (hsub : (s.lease r).isStatic = true → conf.subnet.contains (s.lease r).ip = true)
    (hin : (s.lease r).isStatic = false → conf.inRange (s.lease r).ip = true) :
    (s.addLease conf r).1 = s.store r (conf.ipRange.offset (to16 (s.lease r).ip)).1 ∨
      (s.addLease conf r).1 = s ∧ (s.lease r).hostname ≠ "" ∧ (s.hostsIndex.get (s.lease r).hostname).isSome := by
  have hoffset : (conf.ipRange.offset (to16 (s.lease r).ip)).2 = conf.inRange (s.lease r).ip := IPRange.offset_snd _
  unfold addLease
  simp only [hoffset]
  rw [if_neg, if_neg]
  · split
    · rename_i htaken
      exact .inr ⟨rfl, htaken⟩
    · exact .inl rfl
  · intro hout
    cases hst : (s.lease r).isStatic with
    | true => simp [hst] at hout
    | false => simp [hst, hin hst] at hout
  · intro hout
    cases hst : (s.lease r).isStatic with
    | true => simp [hst, hsub hst] at hout
    | false => simp [hst] at hout

/-- The leases `done` have their entries, under the hostnames with which they are loaded, and nothing else has. -/
structure Loaded (env : HostEnv) (done : List Lease) (s : V4Server) : Prop where
  allocated : ∀ r ∈ s.leases, r < s.heap.next
  entries : ∀ x, x ∈ (s.leases.map s.lease).map holder ↔ x ∈ done.map holder
  names : ∀ n r, s.hostsIndex.get n = some r → ∃ l ∈ done, loadedName env l = n

/-- A lease whose hostname is taken has an entry already. -/
theorem Loaded.resetLease {done : List Lease} (h : Loaded env done s) {l : Lease}
    (hsub : l.isStatic = true → conf.subnet.contains l.ip = true) (hin : l.isStatic = false → conf.inRange l.ip = true)
    (hapart : ∀ l' ∈ done, loadedName env l' ≠ "" → loadedName env l' = loadedName env l → holder l' = holder l) :
    Loaded env (done ++ [l]) (resetLease env conf s l) := by
  have hold : (s.alloc { l with hostname := loadedName env l }).leases.map
      (s.alloc { l with hostname := loadedName env l }).lease = s.leases.map s.lease :=
    List.map_congr_left fun r hr => lease_alloc_of_lt s (h.allocated r hr) _
  have hlease := lease_alloc_next s { l with hostname := loadedName env l }
  rw [resetLease_eq]
  rcases @addLease_of_placed conf (s.alloc { l with hostname := loadedName env l }) s.heap.next
    (by rwa [hlease]) (by rwa [hlease]) with heq | ⟨heq, hne, htaken⟩ <;> rw [heq]
  · refine ⟨fun r hr => ?_, fun x => ?_, fun n r hr => ?_⟩
    · rcases List.mem_append.1 hr with hr | hr
      · exact Nat.lt_succ_of_lt (h.allocated r hr)
      · rw [List.mem_singleton.1 hr]
        exact Nat.lt_succ_self _
    · show x ∈ ((s.leases ++ [s.heap.next]).map (s.alloc { l with hostname := loadedName env l }).lease).map holder ↔ _
      rw [List.map_append, List.map_append, List.map_append, List.mem_append, List.mem_append, ← h.entries x, ← hold]
      refine or_congr_right ?_
      rw [List.map_singleton, List.map_singleton, List.map_singleton, hlease]
      exact Iff.rfl
    · have hget : r = s.heap.next ∧ n = loadedName env l ∨ s.hostsIndex.get n = some r := by
        unfold V4Server.store at hr
        rw [hlease] at hr
        dsimp only at hr
        split at hr
        · rw [GoMap.get_set] at hr
          split at hr
          · rename_i hn
            exact .inl ⟨(Option.some.inj hr).symm, hn⟩
          · exact .inr hr
        · exact .inr hr
      rcases hget with ⟨-, rfl⟩ | hget
      · exact ⟨l, by simp, rfl⟩
      · obtain ⟨l', hl', hn⟩ := h.names n r hget
        exact ⟨l', List.mem_append_left _ hl', hn⟩
  · rw [hlease] at hne htaken
    obtain ⟨r, hr⟩ := Option.isSome_iff_exists.1 htaken
    obtain ⟨l', hl', hname⟩ := h.names _ r hr
    have hsame : holder l' = holder l := hapart l' hl' (hname ▸ hne) hname
    refine ⟨fun r hr => Nat.lt_succ_of_lt (h.allocated r hr), fun x => ?_, fun n r hr => ?_⟩
    · rw [hold, h.entries x, List.map_append, List.mem_append, List.map_singleton, List.mem_singleton]
      refine ⟨.inl, ?_⟩
      rintro (hx | rfl)
      · exact hx
      · exact List.mem_map.2 ⟨l', hl', hsame⟩
    · obtain ⟨l', hl', hn⟩ := h.names n r hr
      exact ⟨l', List.mem_append_left _ hl', hn⟩

/-- Leases of which no two have one hostname are all loaded. -/
theorem loaded_resetLeases {ls : List Lease} (hsub : ∀ l ∈ ls, l.isStatic = true → conf.subnet.contains l.ip = true)
    (hin : ∀ l ∈ ls, l.isStatic = false → conf.inRange l.ip = true)
    (hapart : ∀ l ∈ ls, ∀ l' ∈ ls, loadedName env l ≠ "" → loadedName env l = loadedName env l' →
      holder l = holder l') : Loaded env ls (resetLeases env conf empty ls) := by
  refine run_invariant_of_done (I := Loaded env) (fun done hdone l hl s h => ?_)
    ⟨by simp, by simp, fun n r hr => ?_⟩
  · exact h.resetLease (hsub l hl) (hin l hl) fun l' hl' => hapart l' (hdone hl') l hl
  · rw [show (GoMap.empty : GoMap String Ref).get n = none from GoMap.get_empty n] at hr
    cases hr

/-! ## The round trip -/

theorem ip_of_toLease {dl : DBLease} {l : Lease} (h : toLease dl = some l) : l.ip = dl.ip := by
  unfold toLease ofRecord at h
  obtain ⟨mac, -, h⟩ := Option.bind_eq_some_iff.1 h
  obtain ⟨expiry, -, rfl⟩ := Option.map_eq_some_iff.1 h
  rfl

/-- Of the records the loader takes those of the DHCPv4 server, as they were to the second. -/
theorem filterMap_toLease_records (zone : Lease → Int) (leases6 : List Lease6)
    (hrec : ∀ l ∈ s.saved, toLease (fromLease (zone l) l) = some (kept l)) (h4 : ∀ l ∈ s.saved, l.ip.is4 = true) :
    ((s.records zone leases6).filterMap toLease).filter (·.ip.is4) = s.saved.map kept := by
  have hv4 : (s.saved.map fun l => fromLease (zone l) l).filterMap toLease = s.saved.map kept := by
    rw [List.filterMap_map, ← List.filterMap_eq_map]
    exact List.filterMap_congr hrec
  have hv6 : ((((leases6.map Subtype.val).filter persisted).map fun l => fromLease (zone l) l).filterMap
      toLease).filter (·.ip.is4) = [] := by
    refine List.filter_eq_nil_iff.2 fun l' hl' => ?_
    obtain ⟨dl, hdl, hto⟩ := List.mem_filterMap.1 hl'
    obtain ⟨l, hl, rfl⟩ := List.mem_map.1 hdl
    obtain ⟨l6, -, rfl⟩ := List.mem_map.1 (List.mem_filter.1 hl).1
    have hip : l'.ip = l6.val.ip := ip_of_toLease hto
    rw [hip, l6.property]
    exact Bool.false_ne_true
  unfold records
  rw [List.map_append, List.filterMap_append, List.filter_append, hv4, hv6, List.append_nil, List.filter_eq_self]
  intro l' hl'
  obtain ⟨l, hl, rfl⟩ := List.mem_map.1 hl'
  exact h4 l hl

/-- In every state that the server can reach: if no two leases would be loaded under one hostname and the expiries
can be written, then a new server has exactly the saved leases, to the second. -/
theorem restored_of_reachable (zone : Lease → Int) (leases6 : List Lease6) (hs : Reachable env conf s)
    (h : Restorable env zone s) : Restored env conf zone s leases6 := by
  have hformed := hs.formed
  have hmem : ∀ l ∈ s.saved, ∃ r ∈ s.leases, s.lease r = l := fun l hl => List.mem_map.1 (List.mem_filter.1 hl).1
  have hread := filterMap_toLease_records zone leases6
    (fun l hl => ofRecord_toRecord (by obtain ⟨r, hr, rfl⟩ := hmem l hl; exact hformed.mac r hr) (h.year l hl))
    (fun l hl => by obtain ⟨r, hr, rfl⟩ := hmem l hl; exact hformed.is4 r hr)
  rintro file ⟨dl, hperm, -, rfl⟩
  have hls : ((dl.filterMap toLease).filter (·.ip.is4)).Perm (s.saved.map kept) :=
    hread ▸ (hperm.filterMap toLease).filter _
  generalize hgen : (dl.filterMap toLease).filter (·.ip.is4) = ls at hls
  have hkept : ∀ l' ∈ ls, ∃ l ∈ s.saved, kept l = l' := fun l' hl' => List.mem_map.1 (hls.mem_iff.1 hl')
  have hholder : ∀ l ∈ s.saved, (holder ∘ kept) l = holder l := fun l hl => holder_kept (h.static l hl)
  have hloaded : Loaded env ls (resetLeases env conf empty ls) := by
    refine loaded_resetLeases (fun l' hl' hst => ?_) (fun l' hl' hst => ?_) fun l₁ h₁ l₂ h₂ hne heq => ?_
    · obtain ⟨l, hl, rfl⟩ := hkept l' hl'
      obtain ⟨r, hr, rfl⟩ := hmem l hl
      exact hformed.static r hr hst
    · obtain ⟨l, hl, rfl⟩ := hkept l' hl'
      obtain ⟨r, hr, rfl⟩ := hmem l hl
      exact hformed.dynamic r hr hst
    · obtain ⟨l, hl, rfl⟩ := hkept l₁ h₁
      obtain ⟨l', hl', rfl⟩ := hkept l₂ h₂
      exact ((hholder l hl).trans (h.apart l hl l' hl' hne heq)).trans (hholder l' hl').symm
  refine ⟨resetLeases env conf empty ls, ?_, fun x => ?_⟩
  · unfold dbLoad
    rw [mapM_unmarshal_marshal fun d _ => readsBack_text d.hostname, Option.map_some, hgen]
  · rw [hloaded.entries x, (hls.map holder).mem_iff, List.map_map, List.map_congr_left hholder]

/-! ### Restarts on a small network -/

/-- A client commits an address under a hostname of its own next to a static lease; another has only got an
offer. -/
def savedState : V4Server :=
  run (step asciiEnv lanConf) (resetLeases asciiEnv lanConf empty [])
    [.addStatic { (default : Lease) with ip := .v4 0xc0a80a05, hwAddr := [2, 0, 0, 0, 0, 2], hostname := "Printer" },
      .discover (lanRequest [2, 0, 0, 0, 0, 1] none "") (second * 63000000000) [],
      .request (lanRequest [2, 0, 0, 0, 0, 1] (some 0xc0a80a64) "laptop") (second * 63000000001),
      .discover (lanRequest [2, 0, 0, 0, 0, 3] none "") (second * 63000000002) []]

theorem restored_savedState : Restored asciiEnv lanConf (fun _ => 60) savedState [] :=
  restored_of_reachable (fun _ => 60) [] ⟨[], _, by simp, rfl⟩ (by decide +kernel)

/-- A host answers the probe of the first address, and the client commits the second one under the hostname that
the first address gives. -/
def namedLikeBlocked : V4Server :=
  run (step asciiEnv lanConf) (resetLeases asciiEnv lanConf empty [])
    [.discover (lanRequest [2, 0, 0, 0, 0, 1] none "") (second * 63000000002)
        [⟨second * 63000000000, second * 63000000001⟩],
      .request (lanRequest [2, 0, 0, 0, 0, 1] (some 0xc0a80a65) "192-168-10-100") (second * 63000000003)]

/-- The blocked address is loaded first and takes the hostname, so the committed lease is lost. -/
theorem not_restored_namedLikeBlocked :
    ¬ ∀ (env : HostEnv) (conf : V4ServerConf) (zone : Lease → Int) (s : V4Server) (leases6 : List Lease6),
      Reachable env conf s → Restored env conf zone s leases6 := by
  intro h
  have hrestored := h asciiEnv lanConf (fun _ => 60) namedLikeBlocked [] ⟨[], _, by simp, rfl⟩
  obtain ⟨s', hs', hall⟩ := hrestored ((namedLikeBlocked.records (fun _ => 60) []).map marshal)
    ⟨_, List.Perm.refl _, by decide +kernel, rfl⟩
  have hlost : ((dbLoad asciiEnv lanConf ((namedLikeBlocked.records (fun _ => 60) []).map marshal)).map fun s' =>
      (s'.leases.map s'.lease).any fun l => l.ip == .v4 0xc0a80a65) = some false := by
    decide +kernel
  have hsaved : (.v4 0xc0a80a65, [2, 0, 0, 0, 0, 1], false, 63000000003) ∈ namedLikeBlocked.saved.map holder := by
    decide +kernel
  obtain ⟨l, hl, heq⟩ := List.mem_map.1 ((hall _).2 hsaved)
  rw [hs', Option.map_some, Option.some_inj, List.any_eq_false] at hlost
  have hip : l.ip = .v4 0xc0a80a65 := congrArg Prod.fst heq
  exact hlost l hl (beq_iff_eq.2 hip)

end AdGuardHome.Dhcpd.V4Server
