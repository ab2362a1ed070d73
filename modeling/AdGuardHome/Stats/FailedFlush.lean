import Mathlib.Algebra.BigOperators.Group.Finset.Basic
import Mathlib.Algebra.BigOperators.Group.Finset.Piecewise
import AdGuardHome.Lib.Run
import AdGuardHome.Stats.Stats

/-!
# Flushes of the statistics that fail

`flushDB` replaces the current unit as soon as the transaction has begun.  Its requests are lost when the transaction
is rolled back, and a record that is already there under the number of the unit, as one is after the clock has stepped
back, is overwritten.  Nothing else makes the numbers of the window smaller, and the units that come into the window
may make up for it (`keeps_iff`).
-/

namespace AdGuardHome.Stats

open AdGuardHome.Lib

/-- What the database does in a flush. -/
structure DBErrors where
  /-- There is no database. -/
  closed : Bool
  beginTx : Bool
  createBucket : Bool
  encode : Bool
  put : Bool
  /-- An error of `DeleteBucket` other than that there is no such bucket. -/
  deleteBucket : Bool
  commit : Bool
deriving DecidableEq

def DBErrors.none : DBErrors := ⟨false, false, false, false, false, false, false⟩

/-- Something makes the transaction end with a rollback. -/
def DBErrors.rollsBack (errs : DBErrors) : Bool :=
  errs.createBucket || errs.encode || errs.put || errs.deleteBucket || errs.commit

inductive FlushError
  | creatingBucket
  | encodingUnit
  | puttingUnit
deriving DecidableEq

inductive DeleteError
  | bucketNotFound
  | other
deriving DecidableEq

/-- The buckets that a transaction sees after `flushUnitToDB`. -/
def flushUnitToDB (errs : DBErrors) (udb : UnitDB) (db : GoMap UInt32 UnitDB) (id : UInt32) :
    Except FlushError (GoMap UInt32 UnitDB) :=
  if errs.createBucket then .error .creatingBucket
  else if errs.encode then .error .encodingUnit
  else if errs.put then .error .puttingUnit
  else .ok (db.set id udb)

/-- `tx.DeleteBucket`. -/
def deleteBucket (errs : DBErrors) (db : GoMap UInt32 UnitDB) (id : UInt32) :
    Except DeleteError (GoMap UInt32 UnitDB) :=
  if errs.deleteBucket then .error .other
  else if (db.get id).isNone then .error .bucketNotFound
  else .ok (db.del id)

namespace StatsCtx

variable (c : Config)

/-- `flushDB`, with the errors of the database. -/
def flushDBWith (s : StatsCtx) (errs : DBErrors) (id limit : UInt32) : StatsCtx :=
  if errs.closed ∨ errs.beginTx then s
  else
    match flushUnitToDB errs s.curr.serialize s.db s.curr.id with
    | .error _ => ⟨newUnit id, s.db⟩ -- The deletion is tried as well, and rolled back.
    | .ok db =>
      match deleteBucket errs db (id - limit) with
      | .error .other => ⟨newUnit id, s.db⟩
      | .error .bucketNotFound => ⟨newUnit id, if errs.commit then s.db else db⟩
      | .ok db => ⟨newUnit id, if errs.commit then s.db else db⟩

def flushWith (s : StatsCtx) (errs : DBErrors) (id : UInt32) : StatsCtx :=
  if c.limitHours = 0 ∨ s.curr.id = id then s else s.flushDBWith errs id c.limitHours

/-- An accepted request, or a flush at an hour. -/
inductive FlushOp
  | update (e : Entry)
  | flush (id : UInt32) (errs : DBErrors)

def flushStep (s : StatsCtx) : FlushOp → StatsCtx
  | .update e => s.update c e
  | .flush id errs => s.flushWith c errs id

/-! ## The window -/

/-- The last `limit` hours. -/
def hours (cur limit : UInt32) : Finset UInt32 :=
  (Finset.range limit.toNat).image fun k => cur - UInt32.ofNat k

/-- The requests of a stored unit. -/
def stored (s : StatsCtx) (id : UInt32) : ℕ := ((s.db.get id).getD .empty).nTotal

/-- The requests of the current unit and of the stored units of the window. -/
def total (s : StatsCtx) : ℕ := s.curr.nTotal + ∑ id ∈ hours s.curr.id c.limitHours, s.stored id

/-- The requests of the units of `s` that are not in the window of `t`. -/
def leaving (s t : StatsCtx) : ℕ :=
  (if s.curr.id ∈ hours t.curr.id c.limitHours then 0 else s.curr.nTotal) +
    ∑ id ∈ hours s.curr.id c.limitHours \ hours t.curr.id c.limitHours, s.stored id

/-- No request is lost, except with a unit that has left the window. -/
def NotDecreased (s t : StatsCtx) : Prop := s.total c ≤ t.total c + s.leaving c t

/-- The requests of the stored units that come into the window at an hour. -/
def entering (s : StatsCtx) (id : UInt32) : ℕ :=
  ∑ i ∈ hours id c.limitHours \ hours s.curr.id c.limitHours, s.stored i

/-- What a transaction of a flush loses of the window, if the current unit stays in it. -/
def lost (s : StatsCtx) (errs : DBErrors) : ℕ :=
  if errs.rollsBack then s.curr.nTotal else s.stored s.curr.id

/-- A flush has no transaction, or the current unit leaves the window, or the units that come into the window have as
many requests as are lost. -/
def Harmless (s : StatsCtx) : FlushOp → Prop
  | .update _ => True
  | .flush id errs =>
    (errs.closed ∨ errs.beginTx) ∨ (c.limitHours = 0 ∨ s.curr.id = id) ∨ s.curr.id ∉ hours id c.limitHours ∨
      s.lost errs ≤ s.entering c id

/-! ## Hours -/

theorem mem_hours {cur limit i : UInt32} : i ∈ hours cur limit ↔ (cur - i).toNat < limit.toNat := by
  simp only [hours, Finset.mem_image, Finset.mem_range]
  constructor
  · rintro ⟨k, hk, rfl⟩
    have hlimit := limit.toNat_lt
    have hcur := cur.toNat_lt
    simp only [UInt32.toNat_sub, UInt32.toNat_ofNat']
    omega
  · intro h
    refine ⟨(cur - i).toNat, h, UInt32.toNat_inj.1 ?_⟩
    have hi := i.toNat_lt
    have hcur := cur.toNat_lt
    simp only [UInt32.toNat_sub, UInt32.toNat_ofNat']
    omega

/-- The hour whose unit is deleted. -/
theorem sub_notMem_hours (id limit : UInt32) : id - limit ∉ hours id limit := by
  intro h
  have hlt := mem_hours.1 h
  have hlimit := limit.toNat_lt
  have hid := id.toNat_lt
  simp only [UInt32.toNat_sub] at hlt
  omega

/-! ## What a flush does -/

/-- A flush with a transaction does what one without errors does, or only replaces the current unit. -/
theorem flushDBWith_eq {s : StatsCtx} {errs : DBErrors} (hopen : ¬ (errs.closed ∨ errs.beginTx)) (id limit : UInt32) :
    s.flushDBWith errs id limit = if errs.rollsBack then ⟨newUnit id, s.db⟩ else s.flushDB id limit := by
  unfold flushDBWith flushUnitToDB deleteBucket flushDB DBErrors.rollsBack
  rw [if_neg hopen]
  by_cases hcreate : errs.createBucket
  · simp [hcreate]
  by_cases hencode : errs.encode
  · simp [hcreate, hencode]
  by_cases hput : errs.put
  · simp [hcreate, hencode, hput]
  by_cases hdelete : errs.deleteBucket
  · simp [hcreate, hencode, hput, hdelete]
  cases hget : (s.db.set s.curr.id s.curr.serialize).get (id - limit) with
  | none =>
    rw [GoMap.del_of_get_none hget]
    cases errs.commit <;> simp [hcreate, hencode, hput, hdelete, hget]
  | some u => cases errs.commit <;> simp [hcreate, hencode, hput, hdelete, hget]

/-- Without errors, it is the flush of the context. -/
theorem flushWith_none (s : StatsCtx) (id : UInt32) : s.flushWith c .none id = s.flush c id := by
  unfold flushWith flush
  rw [flushDBWith_eq (by decide)]
  rfl

theorem stored_flushDB (s : StatsCtx) {id limit i : UInt32} (hi : i ∈ hours id limit) :
    (s.flushDB id limit).stored i = Function.update s.stored s.curr.id s.curr.nTotal i := by
  have hne : i ≠ id - limit := by
    rintro rfl
    exact sub_notMem_hours id limit hi
  have hget : (s.flushDB id limit).db.get i = if i = s.curr.id then some s.curr.serialize else s.db.get i := by
    unfold flushDB
    rw [GoMap.get_del_ne _ hne, GoMap.get_set]
  rw [stored, hget, Function.update_apply]
  split <;> rfl

theorem sum_update_add {α : Type*} [DecidableEq α] (w : Finset α) (f : α → ℕ) (a : α) (n : ℕ) :
    (∑ i ∈ w, Function.update f a n i) + (if a ∈ w then f a else 0) = (∑ i ∈ w, f i) + if a ∈ w then n else 0 := by
  by_cases h : a ∈ w
  · have hf := Finset.sum_update_of_mem h f (f a)
    rw [Function.update_eq_self] at hf
    rw [Finset.sum_update_of_mem h, if_pos h, if_pos h, hf]
    omega
  · rw [Finset.sum_update_of_notMem h, if_neg h, if_neg h]

section Step

variable {c} {s : StatsCtx}

/-- The requests that a transaction replaces, against those that come into the window. -/
theorem notDecreased_iff {id : UInt32} {t : StatsCtx} {n m : ℕ} (hid : t.curr.id = id) (hcurr : t.curr.nTotal = 0)
    (hsum : (∑ i ∈ hours id c.limitHours, t.stored i) + (if s.curr.id ∈ hours id c.limitHours then n else 0)
      = (∑ i ∈ hours id c.limitHours, s.stored i) + if s.curr.id ∈ hours id c.limitHours then m else 0) :
    s.NotDecreased c t ↔
      s.curr.id ∉ hours id c.limitHours ∨ s.curr.nTotal + n ≤ s.entering c id + m := by
  have hold := Finset.sum_inter_add_sum_sdiff (hours s.curr.id c.limitHours) (hours id c.limitHours) s.stored
  have hnew := Finset.sum_inter_add_sum_sdiff (hours id c.limitHours) (hours s.curr.id c.limitHours) s.stored
  rw [Finset.inter_comm] at hnew
  unfold NotDecreased total leaving entering
  rw [hid, hcurr]
  by_cases h : s.curr.id ∈ hours id c.limitHours
  · rw [if_pos h, if_pos h] at hsum
    simp only [h, not_true_eq_false, false_or, if_true]
    omega
  · rw [if_neg h, if_neg h] at hsum
    simp only [h, not_false_eq_true, true_or, if_false, iff_true]
    omega

theorem notDecreased_rolledBack (id : UInt32) :
    s.NotDecreased c ⟨newUnit id, s.db⟩ ↔
      s.curr.id ∉ hours id c.limitHours ∨ s.curr.nTotal ≤ s.entering c id :=
  notDecreased_iff (n := 0) (m := 0) rfl rfl rfl

theorem notDecreased_flushDB (id : UInt32) :
    s.NotDecreased c (s.flushDB id c.limitHours) ↔
      s.curr.id ∉ hours id c.limitHours ∨ s.stored s.curr.id ≤ s.entering c id := by
  have hsum := sum_update_add (hours id c.limitHours) s.stored s.curr.id s.curr.nTotal
  rw [← Finset.sum_congr rfl fun i hi => s.stored_flushDB hi] at hsum
  rw [notDecreased_iff rfl rfl hsum, Nat.add_comm s.curr.nTotal, Nat.add_le_add_iff_right]
  exact Iff.rfl

theorem notDecreased_refl (s : StatsCtx) : s.NotDecreased c s := Nat.le_add_right _ _

theorem notDecreased_update (s : StatsCtx) (e : Entry) : s.NotDecreased c (s.update c e) := by
  unfold update
  split
  · exact s.notDecreased_refl
  · split
    · exact s.notDecreased_refl
    · refine le_trans ?_ (Nat.le_add_right _ _)
      exact Nat.add_le_add_right (Nat.le_succ _) _

theorem notDecreased_step_iff (op : FlushOp) : s.NotDecreased c (s.flushStep c op) ↔ s.Harmless c op := by
  cases op with
  | update e => exact iff_of_true (s.notDecreased_update e) trivial
  | flush id errs =>
    show s.NotDecreased c (s.flushWith c errs id) ↔ _
    unfold flushWith Harmless
    by_cases hsame : c.limitHours = 0 ∨ s.curr.id = id
    · rw [if_pos hsame]
      exact iff_of_true s.notDecreased_refl (.inr (.inl hsame))
    · rw [if_neg hsame]
      by_cases hopen : errs.closed ∨ errs.beginTx
      · rw [flushDBWith, if_pos hopen]
        exact iff_of_true s.notDecreased_refl (.inl hopen)
      · rw [flushDBWith_eq hopen]
        simp only [hopen, hsame, false_or, lost]
        split
        · exact notDecreased_rolledBack id
        · exact notDecreased_flushDB id

end Step

/-- The flushes of a run that lose no request of the window are the harmless ones. -/
theorem flushes_keep_iff (s : StatsCtx) (ops : List FlushOp) :
    Meets (flushStep c) (fun s op => s.NotDecreased c (s.flushStep c op)) s ops
      ↔ Meets (flushStep c) (Harmless c) s ops :=
  meets_iff_meets (I := fun _ => True) (fun _ op _ => notDecreased_step_iff op) (fun _ _ _ _ => trivial) trivial ops

instance (s t : StatsCtx) : Decidable (s.NotDecreased c t) := inferInstanceAs (Decidable (_ ≤ _))

/-- Statistics of a day. -/
def dayConfig : Config := ⟨24 * hour, true, ⟨fun _ => false, fun _ => true⟩⟩

/-- A request in the hour 100, and a flush whose transaction is not committed. -/
def failedCommit : List FlushOp :=
  [.update ⟨"192.0.2.1", "example.org", .notFiltered, 1000000⟩, .flush 101 { DBErrors.none with commit := true }]

/-- A request in the hour 100, from which the clock steps back and then goes on. -/
def clockBack : List FlushOp :=
  [.update ⟨"192.0.2.1", "example.org", .notFiltered, 1000000⟩, .flush 99 .none, .flush 100 .none, .flush 101 .none]

/-- Both lose the request. -/
theorem flushes_lose :
    ¬ Meets (flushStep dayConfig) (fun s op => s.NotDecreased dayConfig (s.flushStep dayConfig op))
      (new dayConfig GoMap.empty 100) failedCommit ∧
    ¬ Meets (flushStep dayConfig) (fun s op => s.NotDecreased dayConfig (s.flushStep dayConfig op))
      (new dayConfig GoMap.empty 100) clockBack := by
  decide +kernel

end StatsCtx

end AdGuardHome.Stats
