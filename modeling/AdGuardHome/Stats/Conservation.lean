import AdGuardHome.Lib.Counting
import AdGuardHome.Lib.Run
import AdGuardHome.Stats.Stats

/-!
# No entry is lost or counted twice

The accepted entries are noted with the number of the unit that was current then.  What the context reports for the
last hours are the numbers of these entries, as long as no restart deletes a unit that is still in the window: with
fewer than `limit + 1` hours since the epoch, the first number to keep wraps around and every unit is deleted.
-/

namespace AdGuardHome.Stats

open AdGuardHome.Lib

/-- A counter of a unit: all entries, or those with a result. -/
inductive Counter
  | total
  | result (r : Result)

namespace Counter

def ofDB : Counter → UnitDB → ℕ
  | total, u => u.nTotal
  | result r, u => u.nResult r

def ofUnit : Counter → StatsUnit → ℕ
  | total, u => u.nTotal
  | result r, u => u.nResult r

/-- The counter counts the entry. -/
def counts : Counter → Entry → Bool
  | total, _ => true
  | result r, e => e.result = r

@[simp] theorem ofDB_serialize (k : Counter) (u : StatsUnit) : k.ofDB u.serialize = k.ofUnit u := by
  cases k <;> rfl

@[simp] theorem ofDB_empty (k : Counter) : k.ofDB .empty = 0 := by
  cases k <;> rfl

@[simp] theorem ofUnit_newUnit (k : Counter) (id : UInt32) : k.ofUnit (newUnit id) = 0 := by
  cases k <;> rfl

theorem ofUnit_add (k : Counter) (u : StatsUnit) (e : Entry) :
    k.ofUnit (u.add e) = k.ofUnit u + (k.counts e).toNat := by
  cases k with
  | total => rfl
  | result r =>
    by_cases h : e.result = r
    · simp [ofUnit, StatsUnit.add, counts, h]
    · simp [ofUnit, StatsUnit.add, counts, h, Ne.symm h]

theorem ofUnit_deserialize (k : Counter) (id : UInt32) (udb : Option UnitDB) :
    k.ofUnit ((newUnit id).deserialize udb) = k.ofDB (udb.getD .empty) := by
  cases udb <;> cases k <;> rfl

end Counter

/-- A context and the entries it has accepted, each with the number of the unit that was current. -/
structure Observed where
  ctx : StatsCtx
  accepted : List (UInt32 × Entry)

inductive Op
  | update (e : Entry)
  | flush (id : UInt32)
  | restart (id : UInt32)

/-- The entry is counted. -/
def accepts (c : Config) (e : Entry) : Bool :=
  c.enabled ∧ c.limit ≠ 0 ∧ e.validate.isOk

namespace Observed

variable (c : Config)

/-- The first start, with an empty database. -/
def start (id : UInt32) : Observed := ⟨StatsCtx.new c GoMap.empty id, []⟩

def step (s : Observed) : Op → Observed
  | .update e =>
    { ctx := s.ctx.update c e
      accepted := if accepts c e then s.accepted ++ [(s.ctx.curr.id, e)] else s.accepted }
  | .flush id => { s with ctx := s.ctx.flush c id }
  | .restart id => { s with ctx := StatsCtx.new c s.ctx.close id }

/-- The hours do not go back. -/
def NeverDecreases (s : Observed) : Op → Prop
  | .update _ => True
  | .flush id | .restart id => s.ctx.curr.id ≤ id

/-- The accepted entries of an hour that the counter counts. -/
def hourCount (s : Observed) (id : UInt32) (k : Counter) : ℕ :=
  s.accepted.countP fun a => a.1 = id ∧ k.counts a.2

/-- The accepted entries of the hour with the index `j` in a window of `L` hours up to the current one. -/
def seriesCount (s : Observed) (L : ℕ) (k : Counter) (j : ℕ) : ℕ :=
  s.accepted.countP fun a => a.1.toNat + L = s.ctx.curr.id.toNat + 1 + j ∧ k.counts a.2

/-- The accepted entries of the last `L` hours. -/
def windowCount (s : Observed) (L : ℕ) (k : Counter) : ℕ :=
  s.accepted.countP fun a =>
    (s.ctx.curr.id.toNat < a.1.toNat + L ∧ a.1.toNat ≤ s.ctx.curr.id.toNat) ∧ k.counts a.2

/-- The response for the whole limit counts exactly the accepted entries of the window, in their hours if the limit
is at most seven days. -/
structure Conserved (s : Observed) : Prop where
  total : (s.ctx.getData c c.limitHours).numDNSQueries = s.windowCount c.limitHours.toNat .total
  filtered : (s.ctx.getData c c.limitHours).numBlockedFiltering
    = s.windowCount c.limitHours.toNat (.result .filtered)
  safeBrowsing : (s.ctx.getData c c.limitHours).numReplacedSafebrowsing
    = s.windowCount c.limitHours.toNat (.result .safeBrowsing)
  safeSearch : (s.ctx.getData c c.limitHours).numReplacedSafesearch
    = s.windowCount c.limitHours.toNat (.result .safeSearch)
  parental : (s.ctx.getData c c.limitHours).numReplacedParental
    = s.windowCount c.limitHours.toNat (.result .parental)
  dnsQueries : c.limitHours.toNat ≤ 7 * 24 → (s.ctx.getData c c.limitHours).dnsQueries
    = (List.range c.limitHours.toNat).map (s.seriesCount c.limitHours.toNat .total)
  blockedFiltering : c.limitHours.toNat ≤ 7 * 24 → (s.ctx.getData c c.limitHours).blockedFiltering
    = (List.range c.limitHours.toNat).map (s.seriesCount c.limitHours.toNat (.result .filtered))
  replacedSafebrowsing : c.limitHours.toNat ≤ 7 * 24 → (s.ctx.getData c c.limitHours).replacedSafebrowsing
    = (List.range c.limitHours.toNat).map (s.seriesCount c.limitHours.toNat (.result .safeBrowsing))
  replacedParental : c.limitHours.toNat ≤ 7 * 24 → (s.ctx.getData c c.limitHours).replacedParental
    = (List.range c.limitHours.toNat).map (s.seriesCount c.limitHours.toNat (.result .parental))

/-- A restart does not wrap around, or there is nothing to lose. -/
def Keeps (s : Observed) : Op → Prop
  | .restart id => c.limitHours.toNat < id.toNat ∨
      ∀ i u, s.ctx.close.get i = some u → id.toNat < i.toNat + c.limitHours.toNat → u.nTotal = 0
  | _ => True

variable {c}

/-- A valid limit is between one hour and a year of hours. -/
theorem limitHours_bounds (h : validateIvl c.limit = .ok ()) :
    1 ≤ c.limitHours.toNat ∧ c.limitHours.toNat ≤ 8760 := by
  unfold validateIvl at h
  split at h
  · cases h
  next hlow =>
    split at h
    · cases h
    next hhigh =>
      have hhour : hour = 3600000000000 := by decide
      rw [hhour] at hlow hhigh
      have hlimit : c.limitHours.toNat = (c.limit / hour).toNat % 2 ^ 32 := UInt32.toNat_ofNat' ..
      rw [hlimit, hhour]
      omega

/-! ## The window -/

section Window

variable {s : Observed} {L : UInt32}

/-- The number of an hour of the window. -/
theorem toNat_hour (cur L : UInt32) (j : ℕ) (hj : j < L.toNat) :
    (cur - L + 1 + UInt32.ofNat j).toNat = (2 ^ 32 + cur.toNat - L.toNat + 1 + j) % 2 ^ 32 := by
  have hcur := cur.toNat_lt
  have hL := L.toNat_lt
  simp only [UInt32.toNat_add, UInt32.toNat_sub, UInt32.toNat_ofNat', UInt32.toNat_one]
  omega

theorem seriesCount_eq_hourCount {j : ℕ} {id : UInt32} (h : id.toNat + L.toNat = s.ctx.curr.id.toNat + 1 + j)
    (k : Counter) : s.seriesCount L.toNat k j = s.hourCount id k := by
  refine List.countP_congr fun a _ => ?_
  have hid : a.1.toNat + L.toNat = s.ctx.curr.id.toNat + 1 + j ↔ a.1 = id := by
    rw [← UInt32.toNat_inj]
    omega
  simp only [hid]

/-- The index of the hour of an entry that is counted and not before the window. -/
def hourIndex (s : Observed) (L : ℕ) (k : Counter) (a : UInt32 × Entry) : Option ℕ :=
  if s.ctx.curr.id.toNat < a.1.toNat + L ∧ k.counts a.2 then some (a.1.toNat + L - s.ctx.curr.id.toNat - 1) else none

theorem sum_seriesCount (s : Observed) (L : ℕ) (k : Counter) :
    ((List.range L).map (s.seriesCount L k)).sum = s.windowCount L k := by
  have hseries : ∀ j, s.seriesCount L k j = s.accepted.countP fun a => s.hourIndex L k a = some j := by
    intro j
    refine List.countP_congr fun a _ => ?_
    by_cases hlt : s.ctx.curr.id.toNat < a.1.toNat + L <;> cases hk : k.counts a.2 <;> simp [hourIndex, hlt, hk] <;>
      omega
  have hwindow : s.windowCount L k = s.accepted.countP fun a => (s.hourIndex L k a).any fun j => j < L := by
    refine List.countP_congr fun a _ => ?_
    by_cases hlt : s.ctx.curr.id.toNat < a.1.toNat + L <;> cases hk : k.counts a.2 <;> simp [hourIndex, hlt, hk]
    omega
  rw [hwindow, ← sum_countP_class]
  congr 1
  exact List.map_congr_left fun j _ => hseries j

end Window

/-! ## The invariant -/

/-- The current unit has the counts of its hour, and so has every stored unit of the window. -/
structure Inv (c : Config) (s : Observed) : Prop where
  curr : ∀ k : Counter, k.ofUnit s.ctx.curr = s.hourCount s.ctx.curr.id k
  stored : ∀ (k : Counter) (id : UInt32), id < s.ctx.curr.id → s.ctx.curr.id.toNat < id.toNat + c.limitHours.toNat →
    k.ofDB ((s.ctx.db.get id).getD .empty) = s.hourCount id k
  db_le : ∀ id u, s.ctx.db.get id = some u → id ≤ s.ctx.curr.id
  accepted_le : ∀ a ∈ s.accepted, a.1 ≤ s.ctx.curr.id

theorem hourCount_eq_zero {s : Observed} {id : UInt32} (h : ∀ a ∈ s.accepted, a.1 ≠ id) (k : Counter) :
    s.hourCount id k = 0 :=
  List.countP_eq_zero.2 fun a ha => by simp [h a ha]

theorem hourCount_le_total (s : Observed) (id : UInt32) (k : Counter) : s.hourCount id k ≤ s.hourCount id .total :=
  List.countP_mono_left fun a _ h => by
    simp only [decide_eq_true_eq] at h ⊢
    exact ⟨h.1, rfl⟩

theorem get_close (ctx : StatsCtx) (id : UInt32) :
    ctx.close.get id = if id = ctx.curr.id then some ctx.curr.serialize else ctx.db.get id :=
  GoMap.get_set ..

theorem id_new (db : GoMap UInt32 UnitDB) (id : UInt32) : (StatsCtx.new c db id).curr.id = id := by
  simp only [StatsCtx.new]
  cases (StatsCtx.deleteOldUnits db (id - c.limitHours - 1)).get id <;> rfl

theorem get_new (db : GoMap UInt32 UnitDB) (id i : UInt32) : (StatsCtx.new c db id).db.get i
    = (db.get i).filter fun _ => !decide (i < id - c.limitHours - 1) :=
  GoMap.get_delWhere ..

theorem ofUnit_new (k : Counter) (db : GoMap UInt32 UnitDB) (id : UInt32) : k.ofUnit (StatsCtx.new c db id).curr
    = k.ofDB (((StatsCtx.new c db id).db.get id).getD .empty) :=
  k.ofUnit_deserialize ..

theorem get_of_get_new {db : GoMap UInt32 UnitDB} {id i : UInt32} {u : UnitDB}
    (h : (StatsCtx.new c db id).db.get i = some u) : db.get i = some u := by
  rw [get_new] at h
  exact (Option.filter_eq_some_iff.1 h).1

theorem get_new_of_not_lt {db : GoMap UInt32 UnitDB} {id i : UInt32} (h : ¬ i < id - c.limitHours - 1) :
    (StatsCtx.new c db id).db.get i = db.get i := by
  rw [get_new]
  cases db.get i <;> simp [Option.filter, h]

/-- With too few hours since the epoch, no unit is kept. -/
theorem get_new_of_wrap {db : GoMap UInt32 UnitDB} {id i : UInt32} (hle : id.toNat ≤ c.limitHours.toNat)
    (hL : c.limitHours.toNat ≤ 8760) (hi : i.toNat ≤ c.limitHours.toNat) :
    (StatsCtx.new c db id).db.get i = none := by
  have hlt : i < id - c.limitHours - 1 := by
    rw [UInt32.lt_iff_toNat_lt, UInt32.toNat_sub, UInt32.toNat_sub, UInt32.toNat_one]
    omega
  rw [get_new]
  cases db.get i <;> simp [Option.filter, hlt]

theorem update_eq (ctx : StatsCtx) (e : Entry) :
    ctx.update c e = if accepts c e then { ctx with curr := ctx.curr.add e } else ctx := by
  unfold StatsCtx.update accepts
  by_cases hen : c.enabled <;> by_cases hlimit : c.limit = 0 <;> cases e.validate <;>
    simp [hen, hlimit, Except.isOk, Except.toBool]

namespace Inv

variable {s : Observed} (h : Inv c s)
include h

/-- No entry is of an hour after the current one. -/
theorem hourCount_later {id : UInt32} (hid : s.ctx.curr.id < id) (k : Counter) : s.hourCount id k = 0 := by
  refine hourCount_eq_zero (fun a ha heq => ?_) k
  have := h.accepted_le a ha
  rw [heq] at this
  exact absurd hid (UInt32.not_lt.2 this)

theorem get_later {id : UInt32} (hid : s.ctx.curr.id < id) : s.ctx.db.get id = none := by
  cases hget : s.ctx.db.get id with
  | none => rfl
  | some u => exact absurd hid (UInt32.not_lt.2 (h.db_le id u hget))

/-- The units of the window have the counts of their hours. -/
theorem map_loadUnits (hL : 1 ≤ c.limitHours.toNat) (k : Counter) :
    (s.ctx.loadUnits c.limitHours).map k.ofDB
      = (List.range c.limitHours.toNat).map (s.seriesCount c.limitHours.toNat k) := by
  have hlen : (s.ctx.curr.id - (s.ctx.curr.id - c.limitHours + 1)).toNat = c.limitHours.toNat - 1 := by
    have hcur := s.ctx.curr.id.toNat_lt
    have hlt := c.limitHours.toNat_lt
    simp only [UInt32.toNat_add, UInt32.toNat_sub, UInt32.toNat_one]
    omega
  have hrange : List.range c.limitHours.toNat
      = List.range (c.limitHours.toNat - 1) ++ [c.limitHours.toNat - 1] := by
    rw [← List.range_succ]
    congr 1
    omega
  simp only [StatsCtx.loadUnits, hlen]
  rw [hrange, List.map_append, List.map_append, List.map_map]
  congr 1
  · refine List.map_congr_left fun j hj => ?_
    have hj' := List.mem_range.1 hj
    have htoNat := toNat_hour s.ctx.curr.id c.limitHours j (by omega)
    have hcur := s.ctx.curr.id.toNat_lt
    have hlt := c.limitHours.toNat_lt
    simp only [Function.comp]
    generalize s.ctx.curr.id - c.limitHours + 1 + UInt32.ofNat j = id at htoNat
    by_cases hwrap : s.ctx.curr.id.toNat + 1 + j < c.limitHours.toNat
    · -- The hour is before the epoch.
      have hlater : s.ctx.curr.id < id := by
        rw [UInt32.lt_iff_toNat_lt]
        omega
      have hzero : s.seriesCount c.limitHours.toNat k j = 0 := by
        refine List.countP_eq_zero.2 fun a _ => ?_
        simp
        omega
      rw [h.get_later hlater, hzero]
      exact k.ofDB_empty
    · have hid : id.toNat + c.limitHours.toNat = s.ctx.curr.id.toNat + 1 + j := by omega
      rw [seriesCount_eq_hourCount hid]
      refine h.stored k id ?_ (by omega)
      rw [UInt32.lt_iff_toNat_lt]
      omega
  · simp only [List.map_cons, List.map_nil, Counter.ofDB_serialize, h.curr k]
    rw [seriesCount_eq_hourCount]
    omega

theorem conserved (hL : 1 ≤ c.limitHours.toNat) : s.Conserved c := by
  have hne : c.limitHours ≠ 0 := by
    intro hzero
    rw [hzero] at hL
    simp at hL
  have hlen : (s.ctx.loadUnits c.limitHours).length = c.limitHours.toNat := by
    have := congrArg List.length (h.map_loadUnits hL .total)
    simpa using this
  have hsum : ∀ k : Counter, ((s.ctx.loadUnits c.limitHours).map k.ofDB).sum = s.windowCount c.limitHours.toNat k := by
    intro k
    rw [h.map_loadUnits hL, sum_seriesCount]
  have hseries : ∀ k : Counter, c.limitHours.toNat ≤ 7 * 24 →
      fillCollectedStats (s.ctx.loadUnits c.limitHours) s.ctx.curr.id k.ofDB
        = (List.range c.limitHours.toNat).map (s.seriesCount c.limitHours.toNat k) := by
    intro k hdays
    have hhours : ¬ 7 < c.limitHours.toNat / 24 := by omega
    rw [fillCollectedStats, hlen, if_neg hhours]
    exact h.map_loadUnits hL k
  constructor <;> rw [StatsCtx.getData, if_neg hne]
  · exact hsum .total
  · exact hsum (.result .filtered)
  · exact hsum (.result .safeBrowsing)
  · exact hsum (.result .safeSearch)
  · exact hsum (.result .parental)
  · exact hseries .total
  · exact hseries (.result .filtered)
  · exact hseries (.result .safeBrowsing)
  · exact hseries (.result .parental)

theorem update (e : Entry) : Inv c (s.step c (.update e)) := by
  simp only [Observed.step, update_eq]
  split
  · have hcount : ∀ id k,
        Observed.hourCount ⟨{ s.ctx with curr := s.ctx.curr.add e }, s.accepted ++ [(s.ctx.curr.id, e)]⟩ id k =
          s.hourCount id k + if s.ctx.curr.id = id ∧ k.counts e then 1 else 0 := by
      intro id k
      simp [hourCount, List.countP_append, List.countP_cons]
    refine ⟨fun k => ?_, fun k id hid hwindow => ?_, h.db_le, fun a ha => ?_⟩
    · show k.ofUnit (s.ctx.curr.add e) = Observed.hourCount _ s.ctx.curr.id k
      rw [hcount, Counter.ofUnit_add, h.curr]
      cases k.counts e <;> simp
    · have hne : s.ctx.curr.id ≠ id := fun heq => UInt32.lt_irrefl id (heq ▸ hid)
      rw [hcount, if_neg fun hand => hne hand.1]
      exact h.stored k id hid hwindow
    · rcases List.mem_append.1 ha with ha | ha
      · exact h.accepted_le a ha
      · cases List.mem_singleton.1 ha
        exact UInt32.le_refl _
  · exact h

/-- The units of a later window, after the current one is put into the database. -/
theorem stored_close (k : Counter) {id cur : UInt32} (hcur : s.ctx.curr.id ≤ cur)
    (hwindow : cur.toNat < id.toNat + c.limitHours.toNat) :
    k.ofDB ((s.ctx.close.get id).getD .empty) = s.hourCount id k := by
  have hle := UInt32.le_iff_toNat_le.1 hcur
  rw [get_close]
  rcases Nat.lt_trichotomy id.toNat s.ctx.curr.id.toNat with hlt | heq | hgt
  · have hlt' := UInt32.lt_iff_toNat_lt.2 hlt
    rw [if_neg (UInt32.ne_of_lt hlt')]
    exact h.stored k id hlt' (by omega)
  · have heq' := UInt32.toNat_inj.1 heq
    rw [if_pos heq', Option.getD_some, Counter.ofDB_serialize, h.curr, heq']
  · have hgt' := UInt32.lt_iff_toNat_lt.2 hgt
    rw [if_neg (UInt32.ne_of_lt hgt').symm, h.get_later hgt', h.hourCount_later hgt']
    exact k.ofDB_empty

theorem close_le {cur id : UInt32} {u : UnitDB} (hcur : s.ctx.curr.id ≤ cur) (hget : s.ctx.close.get id = some u) :
    id ≤ cur := by
  rw [get_close] at hget
  split at hget
  next heq => exact heq ▸ hcur
  · exact UInt32.le_trans (h.db_le id u hget) hcur

theorem flush {id : UInt32} (hid : s.ctx.curr.id ≤ id) : Inv c (s.step c (.flush id)) := by
  simp only [Observed.step, StatsCtx.flush]
  split
  · exact h
  next hne =>
    rw [not_or] at hne
    have hlt : s.ctx.curr.id < id := UInt32.lt_of_le_of_ne hid hne.2
    refine ⟨fun k => ?_, fun k i hi hwindow => ?_, fun i u hget => ?_, fun a ha => ?_⟩
    · show k.ofUnit (newUnit id) = s.hourCount id k
      rw [h.hourCount_later hlt, Counter.ofUnit_newUnit]
    · have hkept : i ≠ id - c.limitHours := by
        have hi' := UInt32.lt_iff_toNat_lt.1 hi
        have hlimit := c.limitHours.toNat_lt
        have hwindow' : id.toNat < i.toNat + c.limitHours.toNat := hwindow
        change i.toNat < id.toNat at hi'
        intro heq
        have := congrArg UInt32.toNat heq
        rw [UInt32.toNat_sub] at this
        have := id.toNat_lt
        omega
      show k.ofDB (((s.ctx.close.del (id - c.limitHours)).get i).getD .empty) = s.hourCount i k
      rw [GoMap.get_del_ne _ hkept]
      exact h.stored_close k hid hwindow
    · have hget' : (s.ctx.close.del (id - c.limitHours)).get i = some u := hget
      rw [GoMap.get_del] at hget'
      split at hget'
      · cases hget'
      · exact h.close_le hid hget'
    · exact UInt32.le_trans (h.accepted_le a ha) hid

/-- A restart that has the units of its window. -/
theorem restart_of_stored {id : UInt32} (hid : s.ctx.curr.id ≤ id)
    (hstored : ∀ (k : Counter) (i : UInt32), i ≤ id → id.toNat < i.toNat + c.limitHours.toNat →
      k.ofDB (((StatsCtx.new c s.ctx.close id).db.get i).getD .empty) = s.hourCount i k)
    (hL : 1 ≤ c.limitHours.toNat) : Inv c (s.step c (.restart id)) := by
  have hcurr : (StatsCtx.new c s.ctx.close id).curr.id = id := id_new ..
  refine ⟨fun k => ?_, fun k i hi hwindow => ?_, fun i u hget => ?_, fun a ha => ?_⟩
  · show k.ofUnit (StatsCtx.new c s.ctx.close id).curr = s.hourCount (StatsCtx.new c s.ctx.close id).curr.id k
    rw [hcurr, ofUnit_new]
    exact hstored k id (UInt32.le_refl _) (by omega)
  · change i < (StatsCtx.new c s.ctx.close id).curr.id at hi
    change (StatsCtx.new c s.ctx.close id).curr.id.toNat < _ at hwindow
    rw [hcurr] at hi hwindow
    exact hstored k i (UInt32.le_of_lt hi) hwindow
  · show i ≤ (StatsCtx.new c s.ctx.close id).curr.id
    rw [hcurr]
    exact h.close_le hid (get_of_get_new hget)
  · show a.1 ≤ (StatsCtx.new c s.ctx.close id).curr.id
    rw [hcurr]
    exact UInt32.le_trans (h.accepted_le a ha) hid

/-- The first number to keep does not wrap around. -/
theorem restart_of_lt {id : UInt32} (hid : s.ctx.curr.id ≤ id) (hlt : c.limitHours.toNat < id.toNat)
    (hL : 1 ≤ c.limitHours.toNat) : Inv c (s.step c (.restart id)) := by
  refine h.restart_of_stored hid (fun k i hi hwindow => ?_) hL
  have hkept : ¬ i < id - c.limitHours - 1 := by
    rw [UInt32.not_lt, UInt32.le_iff_toNat_le, UInt32.toNat_sub, UInt32.toNat_sub, UInt32.toNat_one]
    have := id.toNat_lt
    omega
  rw [get_new_of_not_lt hkept]
  exact h.stored_close k hid hwindow

/-- All units are deleted, and none of the window has an entry. -/
theorem restart_of_le {id : UInt32} (hid : s.ctx.curr.id ≤ id) (hle : id.toNat ≤ c.limitHours.toNat)
    (hL : 1 ≤ c.limitHours.toNat) (hL' : c.limitHours.toNat ≤ 8760)
    (hempty : ∀ i u, s.ctx.close.get i = some u → id.toNat < i.toNat + c.limitHours.toNat → u.nTotal = 0) :
    Inv c (s.step c (.restart id)) := by
  refine h.restart_of_stored hid (fun k i hi hwindow => ?_) hL
  have hi' := UInt32.le_iff_toNat_le.1 hi
  rw [get_new_of_wrap hle hL' (by omega)]
  have htotal := h.stored_close .total hid hwindow
  have hzero : s.hourCount i .total = 0 := by
    rw [← htotal]
    cases hget : s.ctx.close.get i with
    | none => rfl
    | some u => exact hempty i u hget hwindow
  have := s.hourCount_le_total i k
  rw [Option.getD_none, Counter.ofDB_empty]
  omega

/-- A restart that deletes an entry of its window. -/
theorem not_conserved_restart {id : UInt32} (hid : s.ctx.curr.id ≤ id) (hle : id.toNat ≤ c.limitHours.toNat)
    (hL : 1 ≤ c.limitHours.toNat) (hL' : c.limitHours.toNat ≤ 8760) {i : UInt32} {u : UnitDB}
    (hget : s.ctx.close.get i = some u) (hwindow : id.toNat < i.toNat + c.limitHours.toNat) (hu : u.nTotal ≠ 0) :
    ¬ (s.step c (.restart id)).Conserved c := by
  intro hconserved
  have hi := UInt32.le_iff_toNat_le.1 (h.close_le hid hget)
  have hcurr : (StatsCtx.new c s.ctx.close id).curr.id = id := id_new ..
  -- Nothing is left in the database, so the response is the one of a context that has accepted nothing.
  have hempty : Inv c ⟨StatsCtx.new c s.ctx.close id, []⟩ := by
    refine ⟨fun k => ?_, fun k j hj hwindow' => ?_, fun j v hget' => ?_, by simp⟩
    · rw [ofUnit_new, get_new_of_wrap hle hL' hle]
      simp [hourCount]
    · change j < (StatsCtx.new c s.ctx.close id).curr.id at hj
      rw [hcurr] at hj
      have hj' := UInt32.lt_iff_toNat_lt.1 hj
      rw [get_new_of_wrap hle hL' (by omega)]
      simp [hourCount]
    · show j ≤ (StatsCtx.new c s.ctx.close id).curr.id
      rw [hcurr]
      exact h.close_le hid (get_of_get_new hget')
  have hzero := (hempty.conserved hL).total
  have htotal := hconserved.total
  rw [show (s.step c (.restart id)).ctx = StatsCtx.new c s.ctx.close id from rfl, hzero] at htotal
  have hpos : 0 < s.hourCount i .total := by
    have := h.stored_close .total hid hwindow
    rw [hget] at this
    rw [← this]
    exact Nat.pos_of_ne_zero hu
  have hmono : s.hourCount i .total ≤ (s.step c (.restart id)).windowCount c.limitHours.toNat .total := by
    refine List.countP_mono_left fun a _ ha => ?_
    simp only [decide_eq_true_eq] at ha ⊢
    rw [show (s.step c (.restart id)).ctx.curr.id = id from hcurr, ha.1]
    exact ⟨⟨hwindow, hi⟩, ha.2⟩
  simp only [windowCount, List.countP_nil] at htotal
  simp only [windowCount] at hmono
  omega

theorem step {o : Op} (hivl : validateIvl c.limit = .ok ()) (hdom : s.NeverDecreases o) (hok : s.Keeps c o) :
    Inv c (s.step c o) := by
  obtain ⟨hL, hL'⟩ := limitHours_bounds hivl
  cases o with
  | update e => exact h.update e
  | flush id => exact h.flush hdom
  | restart id =>
    by_cases hlt : c.limitHours.toNat < id.toNat
    · exact h.restart_of_lt hdom hlt hL
    · exact h.restart_of_le hdom (not_lt.1 hlt) hL hL' (hok.resolve_left hlt)

theorem not_conserved {o : Op} (hivl : validateIvl c.limit = .ok ()) (hdom : s.NeverDecreases o)
    (hok : ¬ s.Keeps c o) : ¬ (s.step c o).Conserved c := by
  obtain ⟨hL, hL'⟩ := limitHours_bounds hivl
  cases o with
  | update e => exact absurd trivial hok
  | flush id => exact absurd trivial hok
  | restart id =>
    obtain ⟨hle, hlost⟩ := not_or.1 hok
    push Not at hlost
    obtain ⟨i, u, hget, hwindow, hu⟩ := hlost
    exact h.not_conserved_restart hdom (not_lt.1 hle) hL hL' hget hwindow hu

end Inv

theorem inv_start (id : UInt32) : Inv c (start c id) := by
  have hdb : ∀ i, (start c id).ctx.db.get i = none := by
    intro i
    refine (get_new _ id i).trans ?_
    rw [GoMap.get_empty]
    rfl
  refine ⟨fun k => ?_, fun k i _ _ => ?_, fun i u hget => ?_, by simp [start]⟩
  · refine (ofUnit_new k GoMap.empty id).trans ?_
    rw [show (StatsCtx.new c GoMap.empty id).db.get id = none from hdb id]
    simp [hourCount, start]
  · rw [hdb]
    simp [hourCount, start]
  · rw [hdb] at hget
    cases hget

/-- **Statistics are conserved** in every state of a run if and only if no restart of it deletes a unit with entries
that is still in the window. -/
theorem conserved_iff_keeps (hivl : validateIvl c.limit = .ok ()) (id : UInt32) {ops : List Op}
    (hids : Meets (step c) NeverDecreases (start c id) ops) :
    Along (step c) (Conserved c) (start c id) ops ↔ Meets (step c) (Keeps c) (start c id) ops :=
  along_iff_meets_of_meets (fun _ h => h.conserved (limitHours_bounds hivl).1)
    (fun _ _ h hdom hok => h.step hivl hdom hok) (fun _ _ h hdom hok => h.not_conserved hivl hdom hok)
    (inv_start id) hids

/-- Statistics of a day. -/
def oneDay : Config := ⟨24 * hour, true, ⟨fun _ => false, fun _ => true⟩⟩

def oneEntry : Entry := ⟨"10.0.0.1", "example.org", .notFiltered, 0⟩

/-- An entry, the next hour, and a restart in it. -/
theorem conserved_restart :
    Along (step oneDay) (Conserved oneDay) (start oneDay 500000)
      [.update oneEntry, .flush 500001, .restart 500001] := by
  refine (conserved_iff_keeps rfl 500000 ?_).2 ?_
  · exact ⟨trivial, show (500000 : UInt32) ≤ 500001 by decide, show (500001 : UInt32) ≤ 500001 by decide, trivial⟩
  · exact ⟨trivial, trivial, .inl (by decide), trivial⟩

/-- A restart in the fifth hour after the epoch. -/
theorem not_conserved_fifthHour :
    ¬ ∀ (c : Config) (id : UInt32) (ops : List Op), validateIvl c.limit = .ok () →
      Meets (step c) NeverDecreases (start c id) ops → Along (step c) (Conserved c) (start c id) ops := by
  intro h
  have hrun := h oneDay 5 [.update oneEntry, .restart 5] rfl
    ⟨trivial, show (5 : UInt32) ≤ 5 by decide, trivial⟩
  have htotal := hrun.2.2.total
  revert htotal
  decide

end Observed

end AdGuardHome.Stats
