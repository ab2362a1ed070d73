import AdGuardHome.Client.RuntimeIndex

/-!
# The sources of runtime clients stay separate

What each operation does to the names and the WHOIS info of every address, and from it what a reload does.
-/

namespace AdGuardHome.Client

open AdGuardHome.Net AdGuardHome.Lib

/-! ## One client -/

/-- The source has names. -/
def Source.hasNames : Source → Bool
  | .arp | .rdns | .dhcp | .hostsFile => true
  | .whois | .persistent => false

theorem Reload.hasNames_source (r : Reload) : r.source.hasNames = true := by
  cases r <;> rfl

namespace Runtime

@[simp] theorem names_new (ip : Addr) (src : Source) : (new ip).names src = none := by
  cases src <;> rfl

theorem names_setInfo (r : Runtime) {cs : Source} (hcs : cs.hasNames = true) (hosts : List String) (src : Source) :
    (r.setInfo cs hosts).names src = if src = cs then some (cleanHosts hosts) else r.names src := by
  cases cs <;> cases src <;> first | rfl | cases hcs

@[simp] theorem whois_setInfo (r : Runtime) (cs : Source) (hosts : List String) :
    (r.setInfo cs hosts).whois = r.whois := by
  cases cs <;> rfl

@[simp] theorem ip_setInfo (r : Runtime) (cs : Source) (hosts : List String) : (r.setInfo cs hosts).ip = r.ip := by
  cases cs <;> rfl

theorem names_unset (r : Runtime) (cs src : Source) :
    (r.unset cs).names src = if src = cs then none else r.names src := by
  cases cs <;> cases src <;> rfl

theorem whois_unset (r : Runtime) {cs : Source} (hcs : cs.hasNames = true) : (r.unset cs).whois = r.whois := by
  cases cs <;> first | rfl | cases hcs

@[simp] theorem ip_unset (r : Runtime) (cs : Source) : (r.unset cs).ip = r.ip := by
  cases cs <;> rfl

theorem isEmpty_eq_false_iff (r : Runtime) :
    r.isEmpty = false ↔ r.whois.isSome ∨ ∃ src, (r.names src).isSome := by
  constructor
  · intro h
    by_contra hno
    obtain ⟨hwhois, hnames⟩ := not_or.1 hno
    have hnone : ∀ {α : Type} {o : Option α}, ¬ o.isSome = true → o.isNone = true := by simp
    have hsrc : ∀ src, (r.names src).isNone = true := fun src => hnone fun hs => hnames ⟨src, hs⟩
    have hempty : r.isEmpty = true := by
      unfold isEmpty
      rw [hnone hwhois, show r.arp.isNone = true from hsrc .arp, show r.rdns.isNone = true from hsrc .rdns,
        show r.dhcp.isNone = true from hsrc .dhcp, show r.hostsFile.isNone = true from hsrc .hostsFile]
      rfl
    rw [hempty] at h
    cases h
  · intro h
    by_contra hempty
    simp only [isEmpty, Bool.not_eq_false, Bool.and_eq_true, Option.isNone_iff_eq_none] at hempty
    obtain ⟨⟨⟨⟨hwhois, harp⟩, hrdns⟩, hdhcp⟩, hhosts⟩ := hempty
    rcases h with hw | ⟨src, hsrc⟩
    · rw [hwhois] at hw
      cases hw
    · cases src <;> simp_all [names]

/-- A reader of the stored names gets the name that was set, also an empty one. -/
@[simp] theorem headD_cleanHosts (name : String) : (cleanHosts [name]).headD "" = name := by
  unfold cleanHosts
  split
  · rename_i h
    exact (List.head_eq_of_cons_eq h).symm
  · rfl

end Runtime

/-! ## The index -/

namespace RuntimeIndex

variable {ri : RuntimeIndex}

theorem client_modify (ri : RuntimeIndex) (ip ip' : Addr) (f : Runtime → Runtime) :
    (ri.modify ip f).client ip' =
      if ip' = ip then some (f ((ri.client ip).getD (Runtime.new ip))) else ri.client ip' :=
  GoMap.get_set ri.index ip ip' _

theorem names_getD (ri : RuntimeIndex) (ip : Addr) (src : Source) :
    ((ri.client ip).getD (Runtime.new ip)).names src = ri.names ip src := by
  unfold names
  cases ri.client ip with
  | none => exact Runtime.names_new ip src
  | some rc => rfl

theorem whois_getD (ri : RuntimeIndex) (ip : Addr) :
    ((ri.client ip).getD (Runtime.new ip)).whois = ri.whois ip := by
  unfold whois
  cases ri.client ip <;> rfl

theorem names_setInfo (ri : RuntimeIndex) (ip ip' : Addr) {cs : Source} (hcs : cs.hasNames = true)
    (hosts : List String) (src : Source) : (ri.setInfo ip cs hosts).names ip' src =
      if ip' = ip ∧ src = cs then some (Runtime.cleanHosts hosts) else ri.names ip' src := by
  have hclient := client_modify ri ip ip' fun rc => rc.setInfo cs hosts
  unfold names setInfo
  rw [hclient]
  by_cases hip : ip' = ip
  · subst hip
    simp only [if_true, true_and, Option.bind_some, Runtime.names_setInfo _ hcs, names_getD]
    rfl
  · simp [hip]

theorem whois_setInfo (ri : RuntimeIndex) (ip ip' : Addr) (cs : Source) (hosts : List String) :
    (ri.setInfo ip cs hosts).whois ip' = ri.whois ip' := by
  have hclient := client_modify ri ip ip' fun rc => rc.setInfo cs hosts
  unfold whois setInfo
  rw [hclient]
  by_cases hip : ip' = ip
  · subst hip
    simp only [if_true, Option.bind_some, Runtime.whois_setInfo, whois_getD]
    rfl
  · simp [hip]

theorem client_clearSource (ri : RuntimeIndex) (src : Source) (ip : Addr) :
    (ri.clearSource src).client ip = (ri.client ip).map fun rc => rc.unset src := by
  have hget := GoMap.get_foldl_entries ri.index (fun _ rc => rc.unset src) ri.index ip
  unfold client clearSource
  rw [hget]
  cases ri.index.get ip <;> rfl

theorem names_clearSource (ri : RuntimeIndex) (cs src : Source) (ip : Addr) :
    (ri.clearSource cs).names ip src = if src = cs then none else ri.names ip src := by
  unfold names
  rw [client_clearSource]
  cases ri.client ip with
  | none => simp
  | some rc => exact Runtime.names_unset rc cs src

theorem whois_clearSource (ri : RuntimeIndex) {cs : Source} (hcs : cs.hasNames = true) (ip : Addr) :
    (ri.clearSource cs).whois ip = ri.whois ip := by
  unfold whois
  rw [client_clearSource]
  cases ri.client ip with
  | none => rfl
  | some rc => exact Runtime.whois_unset rc hcs

theorem client_removeEmpty (ri : RuntimeIndex) (ip : Addr) :
    ri.removeEmpty.client ip = (ri.client ip).filter fun rc => !rc.isEmpty :=
  GoMap.get_delWhere ri.index _ ip

/-- A client that is removed has no data. -/
theorem data_removeEmpty (ri : RuntimeIndex) (ip : Addr) :
    (∀ src, ri.removeEmpty.names ip src = ri.names ip src) ∧ ri.removeEmpty.whois ip = ri.whois ip := by
  unfold names whois
  rw [client_removeEmpty]
  cases hrc : ri.client ip with
  | none => exact ⟨fun _ => rfl, rfl⟩
  | some rc =>
    cases hempty : rc.isEmpty with
    | false => simp [Option.filter, hempty]
    | true =>
      have hno := mt (Runtime.isEmpty_eq_false_iff rc).2 (by rw [hempty]; decide)
      obtain ⟨hwhois, hnames⟩ := not_or.1 hno
      simp only [Option.filter, hempty, Bool.not_true, Bool.false_eq_true, if_false, Option.bind_none,
        Option.bind_some]
      refine ⟨fun src => ?_, ?_⟩
      · have hsrc : ¬ (rc.names src).isSome = true := fun hs => hnames ⟨src, hs⟩
        exact (by simpa using hsrc : rc.names src = none).symm
      · exact (by simpa using hwhois : rc.whois = none).symm

theorem stored_removeEmpty (ri : RuntimeIndex) (ip : Addr) :
    (ri.removeEmpty.client ip).isSome ↔ ri.removeEmpty.HasData ip := by
  unfold HasData names whois
  cases hrc : ri.removeEmpty.client ip with
  | none => simp
  | some rc =>
    rw [client_removeEmpty] at hrc
    obtain ⟨-, hne⟩ := Option.filter_eq_some_iff.1 hrc
    rw [Bool.not_eq_true'] at hne
    exact iff_of_true rfl ((Runtime.isEmpty_eq_false_iff rc).1 hne)

end RuntimeIndex

/-! ## A reload -/

/-- The last name that a reload gives for an address. -/
def lastName (pairs : List (Addr × String)) (ip : Addr) : Option String :=
  (pairs.reverse.find? fun p => p.1 == ip).map Prod.snd

theorem lastName_cons (p : Addr × String) (pairs : List (Addr × String)) (ip : Addr) :
    lastName (p :: pairs) ip = (lastName pairs ip).or (if p.1 = ip then some p.2 else none) := by
  unfold lastName
  rw [List.reverse_cons, List.find?_append]
  cases pairs.reverse.find? fun q => q.1 == ip with
  | some q => rfl
  | none =>
    by_cases h : p.1 = ip <;> simp [h]

/-- The first name that a reload gives for an address. -/
def firstName (pairs : List (Addr × String)) (ip : Addr) : Option String :=
  (pairs.find? fun p => p.1 == ip).map Prod.snd

/-- The name that an address has from a reload: the last one that it gives, and of a hosts file the first one. -/
def Reload.nameFor : Reload → Addr → Option String
  | arp ns => lastName ns
  | hostsFile records => firstName (hostsFile records).allPairs
  | dhcp leases => lastName leases

namespace HostsStorage

theorem get_add (hosts : HostsStorage) (rec : Addr × String × List String) (ip : Addr) :
    ((hosts.add rec).get ip).map Prod.fst =
      ((hosts.get ip).map Prod.fst).or (if rec.1 = ip then some rec.2.1 else none) := by
  unfold add
  rw [GoMap.get_set]
  by_cases h : ip = rec.1
  · subst h
    cases hosts.get rec.1 <;> simp
  · have h' : ¬ rec.1 = ip := fun heq => h heq.symm
    simp [h, h']

theorem firstName_record (rec : Addr × String × List String) (pairs : List (Addr × String)) (ip : Addr) :
    firstName (((rec.2.1 :: rec.2.2).map fun name => (rec.1, name)) ++ pairs) ip =
      (if rec.1 = ip then some rec.2.1 else none).or (firstName pairs ip) := by
  unfold firstName
  by_cases h : rec.1 = ip
  · simp [h]
  · have hnone : (rec.2.2.map fun name => (rec.1, name)).find? (fun p => p.1 == ip) = none :=
      List.find?_eq_none.2 (by simp [h])
    simp [h, hnone]

/-- The first name of the first record of an address is the first one that the storage has for it. -/
theorem get_ofRecords (records : List (Addr × String × List String)) (ip : Addr) :
    ((ofRecords records).get ip).map Prod.fst = firstName (Reload.hostsFile records).allPairs ip := by
  have hfold : ∀ hosts : HostsStorage, ((records.foldl add hosts).get ip).map Prod.fst =
      ((hosts.get ip).map Prod.fst).or (firstName (Reload.hostsFile records).allPairs ip) := by
    induction records with
    | nil => exact fun hosts => (Option.or_none).symm
    | cons rec records ih =>
      intro hosts
      rw [List.foldl_cons, ih, get_add, Option.or_assoc]
      exact congrArg _ (firstName_record rec (Reload.hostsFile records).allPairs ip).symm
  have hempty := hfold GoMap.empty
  rwa [GoMap.get_empty] at hempty

/-- Every address is ranged over once, so its first name is also the last one. -/
theorem lastName_rangeNames (hosts : HostsStorage) (ip : Addr) :
    lastName (hosts.rangeNames.map fun call => (call.1, call.2.1)) ip = (hosts.get ip).map Prod.fst := by
  have hget : hosts.get ip = hosts.entries.dlookup ip := rfl
  have hnodup := hosts.nodupKeys
  unfold rangeNames
  rw [hget]
  generalize hosts.entries = entries at hnodup
  induction entries with
  | nil => rfl
  | cons e entries ih =>
    obtain ⟨hnot, hentries⟩ := List.nodupKeys_cons.1 hnodup
    rw [List.map_cons, List.map_cons, lastName_cons, ih hentries]
    by_cases h : e.1 = ip
    · subst h
      rw [List.dlookup_eq_none.2 hnot, List.dlookup_cons_eq, if_pos rfl]
      rfl
    · rw [List.dlookup_cons_ne _ _ fun heq => h heq.symm, if_neg h, Option.or_none]

end HostsStorage

/-- The name that is taken for an address is the last one of the pairs. -/
theorem Reload.lastName_pairs (r : Reload) : lastName r.pairs = r.nameFor := by
  cases r with
  | arp ns => rfl
  | hostsFile records =>
    exact funext fun ip =>
      (HostsStorage.lastName_rangeNames _ ip).trans (HostsStorage.get_ofRecords records ip)
  | dhcp leases => rfl

/-- What a reload of a source makes of the index, where `nameFor` has the names of the addresses. -/
structure Reloaded (src : Source) (nameFor : Addr → Option String) (ri ri' : RuntimeIndex) : Prop where
  /-- From the source an address has its name, or nothing. -/
  given : ∀ ip, ri'.names ip src = (nameFor ip).map fun name => Runtime.cleanHosts [name]
  /-- A reader of its data gets this name. -/
  read : ∀ ip, (ri'.names ip src).map (·.headD "") = nameFor ip
  names : ∀ ip src', src' ≠ src → ri'.names ip src' = ri.names ip src'
  whois : ∀ ip, ri'.whois ip = ri.whois ip
  stored : ∀ ip, (ri'.client ip).isSome ↔ ri'.HasData ip

namespace RuntimeStorage

open RuntimeIndex

theorem names_foldl_setInfo {src : Source} (hsrc : src.hasNames = true) (pairs : List (Addr × String))
    (ri : RuntimeIndex) (ip : Addr) (src' : Source) :
    (pairs.foldl (fun ri p => ri.setInfo p.1 src [p.2]) ri).names ip src' =
      if src' = src then ((lastName pairs ip).map fun name => Runtime.cleanHosts [name]).or (ri.names ip src)
      else ri.names ip src' := by
  induction pairs generalizing ri with
  | nil =>
    split
    · rename_i h
      rw [h]
      rfl
    · rfl
  | cons p pairs ih =>
    rw [List.foldl_cons, ih, lastName_cons]
    simp only [names_setInfo _ _ _ hsrc]
    by_cases hs : src' = src
    · by_cases hp : ip = p.1
      · subst hp
        cases lastName pairs p.1 <;> simp [hs]
      · have hp' : ¬ p.1 = ip := fun h => hp h.symm
        simp [hs, hp, hp']
    · simp [hs]

theorem whois_foldl_setInfo (src : Source) (pairs : List (Addr × String)) (ri : RuntimeIndex) (ip : Addr) :
    (pairs.foldl (fun ri p => ri.setInfo p.1 src [p.2]) ri).whois ip = ri.whois ip := by
  induction pairs generalizing ri with
  | nil => rfl
  | cons p pairs ih => rw [List.foldl_cons, ih, whois_setInfo]

theorem names_reloadSource (ri : RuntimeIndex) {src : Source} (hsrc : src.hasNames = true)
    (pairs : List (Addr × String)) (ip : Addr) :
    (reloadSource ri src pairs).names ip src = (lastName pairs ip).map fun name => Runtime.cleanHosts [name] := by
  unfold reloadSource
  rw [(data_removeEmpty _ ip).1, names_foldl_setInfo hsrc, if_pos rfl, names_clearSource, if_pos rfl]
  cases lastName pairs ip <;> rfl

/-- The source is cleared, filled and the clients without data go. -/
theorem reloaded_reloadSource (ri : RuntimeIndex) {src : Source} (hsrc : src.hasNames = true)
    (pairs : List (Addr × String)) : Reloaded src (lastName pairs) ri (reloadSource ri src pairs) where
  given := names_reloadSource ri hsrc pairs
  read := by
    intro ip
    rw [names_reloadSource ri hsrc pairs]
    cases lastName pairs ip with
    | none => rfl
    | some name => exact congrArg some (Runtime.headD_cleanHosts name)
  names := by
    intro ip src' hne
    unfold reloadSource
    rw [(data_removeEmpty _ ip).1, names_foldl_setInfo hsrc, if_neg hne, names_clearSource, if_neg hne]
  whois := by
    intro ip
    unfold reloadSource
    rw [(data_removeEmpty _ ip).2, whois_foldl_setInfo, whois_clearSource _ hsrc]
  stored := stored_removeEmpty _

theorem reload_eq (ri : RuntimeIndex) {r : Reload} (hr : r.allPairs ≠ []) :
    reload ri r = reloadSource ri r.source r.pairs := by
  cases r with
  | arp ns =>
    have hne : ns.isEmpty = false := by
      cases ns with
      | nil => exact absurd rfl hr
      | cons p ns => rfl
    unfold reload addFromSystemARP
    dsimp only
    rw [hne]
    rfl
  | hostsFile records => rfl
  | dhcp leases => rfl

end RuntimeStorage

/-! ## Reachable storages -/

namespace RuntimeIndex

open RuntimeStorage

theorem Tidy.modify {ri : RuntimeIndex} (h : Tidy ri) (ip : Addr) {f : Runtime → Runtime} (hip : ∀ rc, (f rc).ip = rc.ip)
    (hdata : ∀ rc, (f rc).isEmpty = false) : Tidy (ri.modify ip f) where
  ip := by
    intro ip' rc hrc
    rw [client_modify] at hrc
    split at hrc
    · rename_i heq
      cases hrc
      rw [hip, heq]
      cases hold : ri.client ip with
      | none => rfl
      | some rc => exact h.ip ip rc hold
    · exact h.ip ip' rc hrc
  stored := by
    intro ip'
    unfold HasData names whois
    rw [client_modify]
    split
    · exact iff_of_true rfl ((Runtime.isEmpty_eq_false_iff _).1 (hdata _))
    · exact h.stored ip'

theorem Tidy.setInfo {ri : RuntimeIndex} (h : Tidy ri) (ip : Addr) {cs : Source} (hcs : cs.hasNames = true)
    (hosts : List String) : Tidy (ri.setInfo ip cs hosts) := by
  refine h.modify ip (fun rc => rc.ip_setInfo cs hosts) fun rc => (Runtime.isEmpty_eq_false_iff _).2 (.inr ⟨cs, ?_⟩)
  rw [Runtime.names_setInfo rc hcs, if_pos rfl]
  rfl

theorem Tidy.setWHOIS {ri : RuntimeIndex} (h : Tidy ri) (ip : Addr) (info : WhoisInfo) :
    Tidy (ri.modify ip fun rc => rc.setWHOIS info) := by
  refine h.modify ip (fun _ => rfl) fun rc => (Runtime.isEmpty_eq_false_iff _).2 (.inl ?_)
  exact (rfl : (some info).isSome = true)

theorem Tidy.reloadSource {ri : RuntimeIndex} (h : Tidy ri) (src : Source)
    (pairs : List (Addr × String)) : Tidy (reloadSource ri src pairs) where
  ip := by
    -- no step moves a client to another address
    have hclear : ∀ ip rc, (ri.clearSource src).client ip = some rc → rc.ip = ip := by
      intro ip rc hrc
      rw [client_clearSource] at hrc
      obtain ⟨rc', hrc', rfl⟩ := Option.map_eq_some_iff.1 hrc
      rw [Runtime.ip_unset]
      exact h.ip ip rc' hrc'
    have hfold : ∀ (pairs : List (Addr × String)) (ri : RuntimeIndex),
        (∀ ip rc, ri.client ip = some rc → rc.ip = ip) →
        ∀ ip rc, (pairs.foldl (fun ri p => ri.setInfo p.1 src [p.2]) ri).client ip = some rc → rc.ip = ip := by
      intro pairs
      induction pairs with
      | nil => exact fun ri hri => hri
      | cons p pairs ih =>
        intro ri hri
        refine ih _ fun ip rc hrc => ?_
        unfold RuntimeIndex.setInfo at hrc
        rw [client_modify] at hrc
        split at hrc
        · rename_i heq
          cases hrc
          rw [Runtime.ip_setInfo, heq]
          cases hold : ri.client p.1 with
          | none => rfl
          | some rc => exact hri p.1 rc hold
        · exact hri ip rc hrc
    intro ip rc hrc
    unfold RuntimeStorage.reloadSource at hrc
    rw [client_removeEmpty] at hrc
    exact hfold pairs _ hclear ip rc (Option.filter_eq_some_iff.1 hrc).1
  stored := stored_removeEmpty _

theorem Tidy.step {s : RuntimeStorage} (h : Tidy s.runtimeIndex) (runtimeSourceDHCP : Bool) (op : Op) :
    Tidy (s.step runtimeSourceDHCP op).runtimeIndex := by
  cases op with
  | reloadARP refreshed =>
    cases refreshed with
    | none => exact h
    | some ns =>
      unfold RuntimeStorage.step reloadARP
      dsimp only
      split
      · unfold addFromSystemARP
        dsimp only
        split
        · exact h
        · exact h.reloadSource _ ns
      · exact h
  | hostsFile records => exact h.reloadSource _ _
  | updateDHCP leases =>
    unfold RuntimeStorage.step
    dsimp only
    split
    · exact h.reloadSource _ leases
    · exact h
  | updateAddress index ip host info =>
    unfold RuntimeStorage.step updateAddress
    dsimp only
    have hhost : Tidy (if host ≠ "" then s.runtimeIndex.setInfo ip .rdns [host] else s.runtimeIndex) := by
      split
      · exact h.setInfo ip rfl [host]
      · exact h
    cases info with
    | none => exact hhost
    | some info =>
      dsimp only
      split
      · exact hhost
      · exact hhost.setWHOIS ip info
  | clientRuntime ip host =>
    unfold RuntimeStorage.step clientRuntime
    dsimp only
    split
    · exact h
    · split
      · exact h
      · split
        · exact h
        · exact h.setInfo ip rfl [host]

end RuntimeIndex

namespace RuntimeStorage

open RuntimeIndex

theorem tidy_run (runtimeSourceDHCP : Bool) (ops : List Op) :
    Tidy (run (step runtimeSourceDHCP) new ops).runtimeIndex := by
  refine run_invariant (I := fun s : RuntimeStorage => Tidy s.runtimeIndex)
    (fun s op h => h.step runtimeSourceDHCP op) ?_ ops
  have hnone : ∀ ip, RuntimeIndex.new.client ip = none := fun ip => GoMap.get_empty ip
  refine ⟨fun ip rc hrc => ?_, fun ip => ?_⟩
  · rw [show new.runtimeIndex.client ip = none from hnone ip] at hrc
    cases hrc
  · unfold HasData names whois
    rw [show new.runtimeIndex.client ip = none from hnone ip]
    simp

/-- After a reload of the hosts file a named client is shown under its name from there. -/
theorem info_hostsFile (ri : RuntimeIndex) (records : List (Addr × String × List String)) {ip : Addr} {rc : Runtime}
    {name : String} (hrc : (reload ri (.hostsFile records)).client ip = some rc)
    (hname : (Reload.hostsFile records).nameFor ip = some name) : rc.info = (some .hostsFile, name) := by
  have hnames := @names_reloadSource ri .hostsFile rfl (Reload.hostsFile records).pairs ip
  change (reload ri (.hostsFile records)).names ip .hostsFile = _ at hnames
  rw [Reload.lastName_pairs, hname, RuntimeIndex.names, hrc, Option.bind_some] at hnames
  have hhosts : rc.hostsFile = some (Runtime.cleanHosts [name]) := hnames
  unfold Runtime.info
  rw [hhosts]
  exact congrArg (Prod.mk (some Source.hostsFile)) (Runtime.headD_cleanHosts name)

/-- Two clients that the ARP table has named, one of which a reverse lookup has named too. -/
def lanOps : List Op :=
  [.reloadARP (some [(.v4 0xc0a80a01, "router"), (.v4 0xc0a80a02, "")]),
    .updateAddress Index.new (.v4 0xc0a80a01) "router.lan" none]

end RuntimeStorage

end AdGuardHome.Client
