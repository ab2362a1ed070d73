import AdGuardHome.Client.Lookup

/-!
# The most specific client of an address

`findByIP` returns the client with exactly the address, else the owner of a longest of the subnets that contain the
address without its zone.  The longest subnet is the first hit of a walk over the subnets, since these are sorted by
`subnetCompare`.
-/

namespace AdGuardHome.Client

open AdGuardHome.Net AdGuardHome.Lib AdGuardHome.Aghalg

/-- Of two subnets in order the first is at least as long. -/
theorem bits_le_of_subnetCompare {x y : Prefix} (h : subnetCompare x y = .lt) : y.bits ≤ x.bits := by
  unfold subnetCompare at h
  split at h
  · cases h
  split at h
  · rename_i hbits
    exact hbits.ge
  split at h
  · rename_i hlt
    exact le_of_lt hlt
  · cases h

namespace Index

/-- The client is in the index. -/
def Stores (ci : Index) (c : Persistent) : Prop := ∃ u, ci.uidToClient.get u = some c

/-- The client has a subnet that contains the address without its zone. -/
def Covers (ip : Addr) (c : Persistent) (pref : Prefix) : Prop :=
  pref ∈ c.subnets ∧ pref.contains ip.withoutZone = true

/-- `findByIP` finds the client with the address, else an owner of a longest subnet around it, else none. -/
structure MostSpecific (ci : Index) (ip : Addr) : Prop where
  exact : ∀ c, ci.Stores c → ip ∈ c.ips → ci.findByIP ip = some (some c)
  longest : (∀ c, ci.Stores c → ip ∉ c.ips) → (∃ c pref, ci.Stores c ∧ Covers ip c pref) →
    ∃ c pref, ci.Stores c ∧ Covers ip c pref ∧ ci.findByIP ip = some (some c) ∧
      ∀ c' pref', ci.Stores c' → Covers ip c' pref' → pref'.bits ≤ pref.bits
  none : (∀ c, ci.Stores c → ip ∉ c.ips) → (∀ c pref, ci.Stores c → ¬ Covers ip c pref) → ci.findByIP ip = none

variable {ci : Index} {ip : Addr}

theorem findByIP_of_mem (hc : Coherent ci) {c : Persistent} (hstored : ci.Stores c) (hip : ip ∈ c.ips) :
    ci.findByIP ip = some (some c) := by
  obtain ⟨u, hu⟩ := hstored
  have huid : ci.ipToUID.get ip = some u := (hc.ip ip u).2 ⟨c, hu, hip⟩
  rw [findByIP, huid]
  simp only [hu]

/-- An address that no client has is looked up in the subnets. -/
theorem findByIP_of_not_mem (hc : Coherent ci) (hip : ∀ c, ci.Stores c → ip ∉ c.ips) :
    ci.findByIP ip = (ci.findSubnet ip).map fun p => ci.uidToClient.get p.2 := by
  have hnone : ci.ipToUID.get ip = Option.none := by
    rw [Option.eq_none_iff_forall_not_mem]
    intro u hu
    obtain ⟨c, hstored, hmem⟩ := (hc.ip ip u).1 hu
    exact hip c ⟨u, hstored⟩ hmem
  rw [findByIP, hnone]

/-- The subnets of the clients are those of the sorted map. -/
theorem get_subnet_iff (hc : Coherent ci) {pref : Prefix} :
    (ci.subnetToUID.vals.get pref).isSome ↔ ∃ c, ci.Stores c ∧ pref ∈ c.subnets := by
  constructor
  · intro hsome
    obtain ⟨u, hu⟩ := Option.isSome_iff_exists.1 hsome
    obtain ⟨c, hstored, hmem⟩ := (hc.subnet pref u).1 hu
    exact ⟨c, ⟨u, hstored⟩, hmem⟩
  · rintro ⟨c, ⟨u, hstored⟩, hmem⟩
    rw [(hc.subnet pref u).2 ⟨c, hstored, hmem⟩]
    rfl

theorem mostSpecific_of_coherent (hc : Coherent ci) (ip : Addr) : MostSpecific ci ip where
  exact c hstored hip := findByIP_of_mem hc hstored hip
  longest := by
    rintro hip ⟨c₀, pref₀, hstored₀, hmem₀, hcontains₀⟩
    have hvalid := hc.subnetSorted
    cases hfind : ci.findSubnet ip with
    | none =>
      -- the subnet of `c₀` would have been a hit
      obtain ⟨u, hu⟩ := Option.isSome_iff_exists.1 ((get_subnet_iff hc).2 ⟨c₀, hstored₀, hmem₀⟩)
      have hmiss := List.find?_eq_none.1 hfind _ (SortedMap.exists_mem_range hvalid hu)
      exact absurd hcontains₀ hmiss
    | some p =>
      obtain ⟨pref, u⟩ := p
      obtain ⟨hcontains, hget, hfirst⟩ :=
        SortedMap.first_of_find_range (P := fun pref => pref.contains ip.withoutZone) hvalid hfind
      obtain ⟨c, hstored, hmem⟩ := (hc.subnet pref u).1 hget
      refine ⟨c, pref, ⟨u, hstored⟩, ⟨hmem, hcontains⟩, ?_, ?_⟩
      · rw [findByIP_of_not_mem hc hip, hfind, Option.map_some, hstored]
      · rintro c' pref' hstored' ⟨hmem', hcontains'⟩
        rcases hfirst pref' ((get_subnet_iff hc).2 ⟨c', hstored', hmem'⟩) hcontains' with rfl | hlt
        · exact le_rfl
        · rw [hc.subnetCmp] at hlt
          exact bits_le_of_subnetCompare hlt
  none := by
    intro hip hsubnet
    rw [findByIP_of_not_mem hc hip, Option.map_eq_none_iff, findSubnet, List.find?_eq_none]
    rintro ⟨pref, u⟩ hmem hcontains
    obtain ⟨c, hstored, hpref⟩ := (hc.subnet pref u).1 (SortedMap.mem_range hc.subnetSorted hmem)
    exact hsubnet c pref ⟨u, hstored⟩ ⟨hpref, hcontains⟩

end Index

open Index in
/-- **The most specific client wins.**  After any calls on an empty storage the search of every address finds the
client with the address, else an owner of a longest subnet around it, else none; and a sorted map of subnets has
strictly sorted keys, none of them twice, which are those of its map, after any operations on it. -/
theorem reachable_mostSpecific (parseUpstreams : List String → Option String) (ops : List Storage.Op) (ip : Addr)
    {V : Type} (changes : List (SortedMap.Op Prefix V)) :
    MostSpecific (Storage.after parseUpstreams ops).index ip ∧
      (run SortedMap.step (SortedMap.new subnetCompare) changes).Valid ∧
        (run SortedMap.step (SortedMap.new subnetCompare) changes).keys.Nodup := by
  have hcoherent : Coherent (Storage.after parseUpstreams ops).index :=
    run_invariant (I := fun s : Storage => Coherent s.index) (fun _ o hs => (Storage.step_spec hs o).1)
      Index.new_coherent ops
  obtain ⟨hvalid, hcmp⟩ := @SortedMap.run_valid Prefix V _ subnetCompare _ _ changes
  have hrefl : Std.ReflCmp (run SortedMap.step (SortedMap.new subnetCompare) changes).cmp := by
    rw [hcmp]
    infer_instance
  exact ⟨mostSpecific_of_coherent hcoherent ip, hvalid, hvalid.nodup⟩

end AdGuardHome.Client
