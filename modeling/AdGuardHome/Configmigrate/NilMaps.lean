import AdGuardHome.Configmigrate.PathIndependence

/-!
# Panics of the migrations

A migration panics when it assigns to an entry of a section that is null in the document.  Which migrations do so on
which documents is `WritesNil`; the others only assign to objects that they have found or made themselves.
-/

namespace AdGuardHome.Configmigrate

open AdGuardHome.Lib

/-! ## Panics -/

/-- The computation panics. -/
def Panics {α : Type} (x : Except Err α) : Prop := ∃ err, x = .error err ∧ err.panics = true

section panics

variable {α β : Type} {x : Except Err α} {f : α → Except Err β}

theorem not_panics_ok (a : α) : ¬ Panics (.ok a : Except Err α) := by
  rintro ⟨err, h, -⟩
  cases h

theorem panics_error {err : Err} : Panics (.error err : Except Err α) ↔ err.panics = true := by
  constructor
  · rintro ⟨err', h, hp⟩
    cases h
    exact hp
  · intro hp
    exact ⟨err, rfl, hp⟩

theorem panics_bind : Panics (x >>= f) ↔ Panics x ∨ ∃ a, x = .ok a ∧ Panics (f a) := by
  cases x with
  | error err =>
    show Panics (.error err) ↔ _
    rw [panics_error, panics_error]
    simp
  | ok a =>
    show Panics (f a) ↔ _
    constructor
    · exact fun h => .inr ⟨a, rfl, h⟩
    · rintro (h | ⟨a', ha, h⟩)
      · exact absurd h (not_panics_ok a)
      · cases ha
        exact h

/-- The rule for a computation that does not panic before the next one. -/
theorem panics_bind_of_not (hx : ¬ Panics x) : Panics (x >>= f) ↔ ∃ a, x = .ok a ∧ Panics (f a) := by
  rw [panics_bind, or_iff_right hx]

theorem not_panics_bind (hx : ¬ Panics x) (hf : ∀ a, x = .ok a → ¬ Panics (f a)) : ¬ Panics (x >>= f) := by
  rw [panics_bind_of_not hx]
  rintro ⟨a, ha, h⟩
  exact hf a ha h

theorem not_panics_map {g : α → β} (hx : ¬ Panics x) : ¬ Panics (x.map g) := by
  cases x with
  | error err =>
    show ¬ Panics (.error err)
    rwa [panics_error, ← panics_error (α := α)]
  | ok a => exact not_panics_ok _

theorem not_panics_mapIdxM {g : ℕ → α → Except Err β} {l : List α} (h : ∀ i, ∀ a ∈ l, ¬ Panics (g i a)) (i : ℕ) :
    ¬ Panics (mapIdxM g i l) := by
  induction l generalizing i with
  | nil => exact not_panics_ok _
  | cons a l ih =>
    refine not_panics_bind (h i a (by simp)) fun b _ => ?_
    refine not_panics_bind (ih (fun j a' ha' => h j a' (by simp [ha'])) (i + 1)) fun bs _ => ?_
    exact not_panics_ok _

end panics

/-! ## Access -/

variable {T : Ty} {k k' : String} {v : Val} {m : Fields} {o o' : Obj} {d d' : Fields}

theorem not_panics_fieldVal (T : Ty) (o : Obj) (k : String) : ¬ Panics (fieldVal T o k) := by
  unfold fieldVal
  split
  · exact not_panics_ok _
  · exact not_panics_ok _
  · split
    · exact not_panics_ok _
    · rw [panics_error]
      exact Bool.false_ne_true

theorem not_panics_objVal (o : Obj) (k : String) : ¬ Panics (objVal o k) := not_panics_map (not_panics_fieldVal _ _ _)

theorem not_panics_intVal (o : Obj) (k : String) : ¬ Panics (intVal o k) := not_panics_map (not_panics_fieldVal _ _ _)

theorem not_panics_strVal (o : Obj) (k : String) : ¬ Panics (strVal o k) := not_panics_map (not_panics_fieldVal _ _ _)

/-- What is found is found in an object that is not nil. -/
theorem ne_none_of_fieldVal (h : fieldVal T o k = .ok (some v)) : o ≠ none := by
  rintro rfl
  cases h

theorem ne_none_of_strVal {s : String} (h : strVal o k = .ok (some s)) : o ≠ none := by
  rintro rfl
  cases h

theorem ne_none_of_intVal {i : ℤ} (h : intVal o k = .ok (some i)) : o ≠ none := by
  rintro rfl
  cases h

theorem panics_put : Panics (put o k v) ↔ o = none := by
  cases o with
  | none => exact ⟨fun _ => rfl, fun _ => ⟨_, rfl, rfl⟩⟩
  | some m => exact ⟨fun h => absurd h (not_panics_ok _), nofun⟩

theorem not_panics_put (h : o ≠ none) : ¬ Panics (put o k v) := by
  rwa [panics_put]

theorem ne_none_of_put (h : put o k v = .ok o') : o' ≠ none := by
  rintro rfl
  cases o <;> cases h

theorem drop_eq_none : drop o k = none ↔ o = none := by
  cases o <;> simp [drop]

theorem not_panics_moveVal : ¬ Panics (moveVal T o d k k') := by
  refine not_panics_bind (not_panics_fieldVal _ _ _) fun x _ => ?_
  cases x <;> exact not_panics_ok _

/-- A move leaves an object nil if it was, and only then. -/
theorem moveVal_eq_none (h : moveVal T o d k k' = .ok (o', d')) : o' = none ↔ o = none := by
  unfold moveVal at h
  cases hx : fieldVal T o k with
  | error err =>
    rw [hx] at h
    cases h
  | ok x =>
    rw [hx] at h
    cases x with
    | none =>
      cases h
      rfl
    | some v =>
      cases h
      exact drop_eq_none

theorem fieldVal_of_moveVal {q : Obj × Fields} (h : moveVal T o d k k' = .ok q) : ∃ x, fieldVal T o k = .ok x := by
  unfold moveVal at h
  cases hx : fieldVal T o k with
  | error err =>
    rw [hx] at h
    cases h
  | ok x => exact ⟨x, rfl⟩

theorem moveVal_of_fieldVal {x : Option Val} (h : fieldVal T o k = .ok x) : ∃ q, moveVal T o d k k' = .ok q := by
  unfold moveVal
  rw [h]
  cases x <;> exact ⟨_, rfl⟩

theorem not_panics_renameVal : ¬ Panics (renameVal T o k k') := by
  refine not_panics_bind (not_panics_fieldVal _ _ _) fun x hx => ?_
  cases x with
  | none => exact not_panics_ok _
  | some v => exact not_panics_bind (not_panics_put (ne_none_of_fieldVal hx)) fun _ _ => not_panics_ok _

theorem not_panics_moveAll (mvs : List Move) (o : Obj) (d : Fields) : ¬ Panics (moveAll mvs o d) := by
  induction mvs generalizing o d with
  | nil => exact not_panics_ok _
  | cons mv mvs ih =>
    unfold moveAll
    split
    · exact ih _ _
    · split <;> exact fun h => Bool.false_ne_true (panics_error.1 h)

theorem moveAll_eq_none {mvs : List Move} (h : moveAll mvs o d = .ok (o', d')) : o' = none ↔ o = none := by
  induction mvs generalizing o d with
  | nil =>
    cases h
    rfl
  | cons mv mvs ih =>
    unfold moveAll at h
    split at h
    · rename_i o₁ d₁ hmv
      rw [ih h, moveVal_eq_none hmv]
    · split at h <;> cases h

/-! ## Changes in place -/

/-- The section is null in the document. -/
def NilObj (m : Fields) (k : String) : Prop := objVal (some m) k = .ok (some none)

theorem panics_onObj {f : Obj → Except Err Obj} :
    Panics (onObj k f m) ↔ ∃ o, objVal (some m) k = .ok (some o) ∧ Panics (f o) := by
  unfold onObj
  rw [panics_bind_of_not (not_panics_objVal _ _)]
  constructor
  · rintro ⟨x, hx, h⟩
    cases x with
    | none => exact absurd h (not_panics_ok _)
    | some o =>
      rw [panics_bind, or_iff_left] at h
      · exact ⟨o, hx, h⟩
      · rintro ⟨o', -, h⟩
        exact not_panics_ok _ h
  · rintro ⟨o, ho, h⟩
    exact ⟨some o, ho, panics_bind.2 (.inl h)⟩

/-- The change writes to the section whatever it is. -/
theorem panics_onObj_of_writes {f : Obj → Except Err Obj} (hf : ∀ o, Panics (f o) ↔ o = none) :
    Panics (onObj k f m) ↔ NilObj m k := by
  rw [panics_onObj]
  constructor
  · rintro ⟨o, ho, h⟩
    rw [(hf o).1 h] at ho
    exact ho
  · intro h
    exact ⟨none, h, (hf none).2 rfl⟩

theorem not_panics_onObj {f : Obj → Except Err Obj} (hf : ∀ o, objVal (some m) k = .ok (some o) → ¬ Panics (f o)) :
    ¬ Panics (onObj k f m) := by
  rw [panics_onObj]
  rintro ⟨o, ho, h⟩
  exact hf o ho h

theorem not_panics_onDoc {f : Obj → Except Err Obj} (hf : ¬ Panics (f (some m))) : ¬ Panics (onDoc f m) :=
  not_panics_bind hf fun _ _ => not_panics_ok _

theorem not_panics_onElems {f : ℕ → Val → Except Err Val} (hf : ∀ i w, ¬ Panics (f i w)) (v : Val) :
    ¬ Panics (onElems f v) := by
  unfold onElems
  split
  · exact not_panics_bind (not_panics_mapIdxM (fun i a _ => hf i a) 0) fun _ _ => not_panics_ok _
  · exact not_panics_ok _

/-- An element is no nil map, so a change that only fails on those does not panic. -/
theorem not_panics_onElemObj {f : Obj → Except Err Obj} {other : Val → Except Err Val} (hv : Ok "" v)
    (hf : ∀ m, ¬ Panics (f (some m))) (hother : ¬ Panics (other v)) : ¬ Panics (onElemObj f other v) := by
  unfold onElemObj
  cases v with
  | map m => exact not_panics_bind (hf m) fun _ _ => not_panics_ok _
  | nilMap => simp [Ok] at hv
  | _ => exact hother

theorem not_panics_onArrElems {f : ℕ → Val → Except Err Val} {l : List Val} (ho : l ≠ [] → o ≠ none)
    (hf : ∀ i, ∀ w ∈ l, ¬ Panics (f i w)) : ¬ Panics (onArrElems k f o l) := by
  cases l with
  | nil => exact not_panics_ok _
  | cons w l =>
    refine not_panics_bind (not_panics_mapIdxM hf 0) fun _ _ => ?_
    exact not_panics_put (ho (by simp))

/-- The values in the object are of documents, or are put there by the migrations. -/
def OkObj (o : Obj) : Prop := ∀ m, o = some m → OkFields m

theorem OkObj.of_objRel {env : Env} {n : Option ℤ} (h : ObjRel env n o o) : OkObj o := by
  rintro m rfl
  cases h with
  | some h => exact (simFields_iff.1 h.sim).2.1

theorem OkObj.objRel (env : Env) (h : OkObj o) : ObjRel env none o o := by
  cases o with
  | none => exact .none
  | some m => exact .some (Rel.of_sim (SimFields.refl (h m rfl)))

theorem okObj_some (h : OkFields m) : OkObj (some m) := by
  rintro _ ⟨⟩
  exact h

theorem OkObj.of_objVal (env : Env) (h : OkFields m) (hk : Untyped k) (ho : objVal (some m) k = .ok (some o)) :
    OkObj o := by
  have hsame := ((okObj_some h).objRel env).objVal hk
  rw [ho] at hsame
  have hrel : Option.Rel (ObjRel env none) (some o) (some o) := hsame
  cases hrel with
  | some hrel => exact .of_objRel hrel

/-- The elements of a `yarr` of such an object. -/
theorem OkObj.elems (env : Env) (h : OkObj o) (hk : Ty.arr.Reads k) {x : Option Val} (hx : fieldVal .arr o k = .ok x) :
    ∀ w ∈ elems x, Ok "" w := by
  have hsame := (h.objRel env).fieldVal hk
  rw [hx] at hsame
  have hok := (simList_iff.1 (Got.elems hsame)).2.1
  generalize Configmigrate.elems x = l at hok
  induction l with
  | nil => simp
  | cons w l ih =>
    simp only [OkList] at hok
    simpa using ⟨hok.1, ih hok.2⟩

theorem elems_ne_nil {x : Option Val} (h : elems x ≠ []) (hx : fieldVal .arr o k = .ok x) : o ≠ none := by
  rintro rfl
  cases hx
  exact h rfl

theorem not_panics_onArr (env : Env) {f : ℕ → Val → Except Err Val} (h : OkObj o) (hk : Ty.arr.Reads k)
    (hf : ∀ i w, Ok "" w → ¬ Panics (f i w)) : ¬ Panics (onArr k f o) := by
  refine not_panics_bind (not_panics_fieldVal _ _ _) fun x hx => ?_
  exact not_panics_onArrElems (fun hne => elems_ne_nil hne hx) fun i w hw => hf i w (h.elems env hk hx w hw)

theorem not_panics_onArrAnyway (env : Env) {f : ℕ → Val → Except Err Val} (h : OkObj o) (hk : Ty.arr.Reads k)
    (hf : ∀ i w, Ok "" w → ¬ Panics (f i w)) : ¬ Panics (onArrAnyway k f o) := by
  unfold onArrAnyway
  split
  · rename_i x hx
    exact not_panics_onArrElems (fun hne => elems_ne_nil hne hx) fun i w hw => hf i w (h.elems env hk hx w hw)
  · exact not_panics_ok _

/-! ## The migrations -/

/-- The migration to the version assigns to an entry of a section that is null. -/
def WritesNil : ℕ → Fields → Prop
  | 7, m => NilObj m "dhcp"
  | 12, m | 17, m | 18, m | 21, m | 28, m | 32, m => NilObj m "dns"
  | 13, m => NilObj m "dhcp" ∧
      ∃ dns name, objVal (some m) "dns" = .ok (some dns) ∧ fieldVal .str dns "local_domain_name" = .ok (some name)
  | 20, m => NilObj m "statistics"
  | 25, m => NilObj m "http" ∧ ∃ enabled, fieldVal .bool (some m) "debug_pprof" = .ok enabled
  | 29, m => NilObj m "filtering" ∧
      ∃ filters, fieldVal .arr (some m) "filters" = .ok (some filters) ∧ ∀ f ∈ filters.toList, f.assertObj ≠ none
  | 34, m => NilObj m "http" ∧ ∃ tls, objVal (some m) "tls" = .ok (some tls)
  | _, _ => False

theorem fieldVal_setVersion {i : ℤ} (hk : k ≠ "schema_version") :
    fieldVal T (some (setVersion i m)) k = fieldVal T (some m) k := by
  unfold fieldVal
  rw [Option.bind_some, Option.bind_some, setVersion, Fields.get_set, if_neg hk]

theorem objVal_setVersion {i : ℤ} (hk : k ≠ "schema_version") :
    objVal (some (setVersion i m)) k = objVal (some m) k := by
  rw [objVal, fieldVal_setVersion hk, objVal]

theorem nilObj_setVersion {i : ℤ} (hk : k ≠ "schema_version") : NilObj (setVersion i m) k ↔ NilObj m k := by
  rw [NilObj, objVal_setVersion hk, NilObj]

theorem OkFields.setVersion (env : Env) (h : OkFields m) (i : ℤ) : OkFields (setVersion i m) :=
  (simFields_iff.1 (setVersion_rel i (SimFields.refl h : SimFields env m m)).sim).2.1

theorem panics_migrateTo7 : Panics (migrateTo7 m) ↔ WritesNil 7 m := by
  show Panics (migrateTo7 m) ↔ NilObj m "dhcp"
  rw [← nilObj_setVersion (i := 7) (by decide), NilObj]
  unfold migrateTo7
  dsimp only
  split
  · rename_i dhcp hdhcp
    rw [hdhcp, panics_bind_of_not (not_panics_moveAll _ _ _)]
    constructor
    · rintro ⟨⟨o, d⟩, hmove, h⟩
      rw [panics_bind, panics_put, or_iff_left fun ⟨_, _, h⟩ => not_panics_ok _ h, moveAll_eq_none hmove] at h
      rw [h]
    · intro h
      cases h
      exact ⟨(none, []), rfl, panics_bind.2 (.inl (panics_put.2 rfl))⟩
  · rename_i hother
    exact ⟨fun h => absurd h (not_panics_ok _), fun h => absurd h (hother _)⟩

theorem panics_migrateTo12 : Panics (migrateTo12 m) ↔ WritesNil 12 m := by
  show Panics (migrateTo12 m) ↔ NilObj m "dns"
  unfold migrateTo12
  rw [panics_onObj_of_writes, nilObj_setVersion (by decide)]
  intro dns
  rw [panics_bind_of_not (not_panics_intVal _ _)]
  constructor
  · rintro ⟨x, -, h⟩
    exact panics_put.1 h
  · rintro rfl
    exact ⟨none, rfl, panics_put.2 rfl⟩

theorem panics_migrateTo13 : Panics (migrateTo13 m) ↔ WritesNil 13 m := by
  unfold migrateTo13
  dsimp only
  rw [objVal_setVersion (by decide), panics_bind_of_not (not_panics_objVal _ _)]
  constructor
  · rintro ⟨x, hx, h⟩
    cases x with
    | none => exact absurd h (not_panics_ok _)
    | some dns =>
      obtain ⟨y, hy, h⟩ := (panics_bind_of_not (not_panics_objVal _ _)).1 h
      rw [objVal_setVersion (by decide)] at hy
      cases y with
      | none => exact absurd h (not_panics_ok _)
      | some dhcp =>
        obtain ⟨z, hz, h⟩ := (panics_bind_of_not (not_panics_fieldVal _ _ _)).1 h
        cases z with
        | none => exact absurd h (not_panics_ok _)
        | some name =>
          rw [panics_bind, panics_put, or_iff_left fun ⟨_, _, h⟩ => not_panics_ok _ h] at h
          rw [h] at hy
          exact ⟨hy, dns, name, hx, hz⟩
  · rintro ⟨hy, dns, name, hx, hz⟩
    rw [NilObj, ← objVal_setVersion (i := 13) (by decide)] at hy
    refine ⟨some dns, hx, panics_bind.2 (.inr ⟨some none, hy, ?_⟩)⟩
    exact panics_bind.2 (.inr ⟨some name, hz, panics_bind.2 (.inl (panics_put.2 rfl))⟩)

theorem panics_migrateTo17 : Panics (migrateTo17 m) ↔ WritesNil 17 m := by
  show Panics (migrateTo17 m) ↔ NilObj m "dns"
  unfold migrateTo17
  rw [panics_onObj_of_writes fun _ => panics_put, nilObj_setVersion (by decide)]

theorem panics_migrateTo18 : Panics (migrateTo18 m) ↔ WritesNil 18 m := by
  show Panics (migrateTo18 m) ↔ NilObj m "dns"
  unfold migrateTo18
  rw [panics_onObj_of_writes, nilObj_setVersion (by decide)]
  intro dns
  rw [panics_bind, panics_put, or_iff_left]
  rintro ⟨dns', hput, h⟩
  obtain ⟨⟨o, d⟩, hmove, h⟩ := (panics_bind_of_not not_panics_moveVal).1 h
  exact ne_none_of_put hput ((moveVal_eq_none hmove).1 (panics_put.1 h))

theorem panics_migrateTo20 : Panics (migrateTo20 m) ↔ WritesNil 20 m := by
  show Panics (migrateTo20 m) ↔ NilObj m "statistics"
  unfold migrateTo20
  rw [panics_onObj_of_writes, nilObj_setVersion (by decide)]
  intro stats
  rw [panics_bind_of_not (not_panics_intVal _ _)]
  constructor
  · rintro ⟨x, -, h⟩
    exact panics_put.1 h
  · rintro rfl
    exact ⟨none, rfl, panics_put.2 rfl⟩

theorem panics_migrateTo21 : Panics (migrateTo21 m) ↔ WritesNil 21 m := by
  show Panics (migrateTo21 m) ↔ NilObj m "dns"
  unfold migrateTo21
  rw [panics_onObj_of_writes, nilObj_setVersion (by decide)]
  intro dns
  rw [panics_bind_of_not not_panics_moveVal]
  constructor
  · rintro ⟨⟨o, d⟩, hmove, h⟩
    exact (moveVal_eq_none hmove).1 (panics_put.1 h)
  · rintro rfl
    exact ⟨(none, [("schedule", schedule)]), rfl, panics_put.2 rfl⟩

theorem panics_migrateTo25 : Panics (migrateTo25 m) ↔ WritesNil 25 m := by
  unfold migrateTo25
  dsimp only
  rw [objVal_setVersion (by decide), panics_bind_of_not (not_panics_objVal _ _)]
  constructor
  · rintro ⟨x, hx, h⟩
    cases x with
    | none => exact absurd h (not_panics_ok _)
    | some http =>
      obtain ⟨⟨doc, pprof⟩, hmove, h⟩ := (panics_bind_of_not not_panics_moveVal).1 h
      rw [panics_bind, panics_put, or_iff_left fun ⟨_, _, h⟩ => not_panics_ok _ h] at h
      rw [h] at hx
      obtain ⟨enabled, henabled⟩ := fieldVal_of_moveVal hmove
      rw [fieldVal_setVersion (by decide)] at henabled
      exact ⟨hx, enabled, henabled⟩
  · rintro ⟨hx, enabled, henabled⟩
    rw [← fieldVal_setVersion (i := 25) (by decide)] at henabled
    obtain ⟨q, hmove⟩ := moveVal_of_fieldVal henabled
    exact ⟨some none, hx, panics_bind.2 (.inr ⟨q, hmove, panics_bind.2 (.inl (panics_put.2 rfl))⟩)⟩

theorem panics_migrateTo28 : Panics (migrateTo28 m) ↔ WritesNil 28 m := by
  show Panics (migrateTo28 m) ↔ NilObj m "dns"
  unfold migrateTo28
  rw [panics_onObj_of_writes, nilObj_setVersion (by decide)]
  intro dns
  rw [panics_bind, panics_put, or_iff_left]
  rintro ⟨dns', -, h⟩
  exact not_panics_ok _ h

theorem not_panics_filterPath (env : Env) (i : ℕ) (v : Val) : ¬ Panics (filterPath env i v) := by
  unfold filterPath
  split
  · exact fun h => Bool.false_ne_true (panics_error.1 h)
  · split <;> exact not_panics_ok _

/-- The paths are found if all filters are objects. -/
theorem exists_filterPath_iff (env : Env) {l : List Val} {i : ℕ} :
    (∃ paths, mapIdxM (filterPath env) i l = .ok paths) ↔ ∀ f ∈ l, f.assertObj ≠ none := by
  induction l generalizing i with
  | nil => exact ⟨by simp, fun _ => ⟨[], rfl⟩⟩
  | cons f l ih =>
    rw [List.forall_mem_cons, ← ih (i := i + 1), mapIdxM]
    constructor
    · rintro ⟨paths, h⟩
      cases hf : filterPath env i f with
      | error err =>
        rw [hf] at h
        cases h
      | ok path =>
        cases hl : mapIdxM (filterPath env) (i + 1) l with
        | error err =>
          rw [hf, hl] at h
          cases h
        | ok paths =>
          refine ⟨fun hnone => ?_, paths, rfl⟩
          rw [filterPath, hnone] at hf
          cases hf
    · rintro ⟨hobj, paths, hl⟩
      have hf : ∃ path, filterPath env i f = .ok path := by
        unfold filterPath
        split
        · rename_i hnone
          exact absurd hnone hobj
        · split <;> exact ⟨_, rfl⟩
      obtain ⟨path, hf⟩ := hf
      exact ⟨path :: paths, by rw [hf, hl]; rfl⟩

theorem panics_migrateTo29 (env : Env) : Panics (migrateTo29 env m) ↔ WritesNil 29 m := by
  unfold migrateTo29
  dsimp only
  rw [fieldVal_setVersion (by decide), panics_bind_of_not (not_panics_fieldVal _ _ _)]
  have hpaths : ∀ l : List Val, ¬ Panics (mapIdxM (filterPath env) 0 l) := fun l =>
    not_panics_mapIdxM (fun i f _ => not_panics_filterPath env i f) 0
  constructor
  · rintro ⟨x, hx, h⟩
    cases x with
    | none => exact absurd h (not_panics_ok _)
    | some filters =>
      obtain ⟨paths, hl, h⟩ := (panics_bind_of_not (hpaths _)).1 h
      rw [panics_onObj_of_writes fun _ => panics_put, nilObj_setVersion (by decide)] at h
      exact ⟨h, filters, hx, (exists_filterPath_iff env).1 ⟨paths, hl⟩⟩
  · rintro ⟨h, filters, hx, hall⟩
    obtain ⟨paths, hl⟩ := (exists_filterPath_iff env (i := 0)).2 hall
    refine ⟨some filters, hx, panics_bind.2 (.inr ⟨paths, hl, ?_⟩)⟩
    rwa [panics_onObj_of_writes fun _ => panics_put, nilObj_setVersion (by decide)]

theorem panics_migrateTo32 : Panics (migrateTo32 m) ↔ WritesNil 32 m := by
  show Panics (migrateTo32 m) ↔ NilObj m "dns"
  unfold migrateTo32
  rw [panics_onObj_of_writes, nilObj_setVersion (by decide)]
  intro dns
  rw [panics_bind, panics_put, or_iff_left]
  rintro ⟨dns', hput, h⟩
  exact ne_none_of_put hput (panics_put.1 h)

theorem panics_migrateTo34 : Panics (migrateTo34 m) ↔ WritesNil 34 m := by
  unfold migrateTo34
  dsimp only
  rw [objVal_setVersion (by decide), panics_bind_of_not (not_panics_objVal _ _)]
  constructor
  · rintro ⟨x, hx, h⟩
    cases x with
    | none => exact absurd h (not_panics_ok _)
    | some http =>
      obtain ⟨y, hy, h⟩ := (panics_bind_of_not (not_panics_objVal _ _)).1 h
      rw [objVal_setVersion (by decide)] at hy
      cases y with
      | none => exact absurd h (not_panics_ok _)
      | some tls =>
        rw [panics_bind, panics_put, or_iff_left] at h
        · rw [h] at hx
          exact ⟨hx, tls, hy⟩
        · rintro ⟨http', hput, h⟩
          obtain ⟨⟨tls', doh⟩, -, h⟩ := (panics_bind_of_not not_panics_moveVal).1 h
          rw [panics_bind, panics_put, or_iff_left fun ⟨_, _, h⟩ => not_panics_ok _ h] at h
          exact ne_none_of_put hput h
  · rintro ⟨hx, tls, hy⟩
    rw [← objVal_setVersion (i := 34) (by decide)] at hy
    exact ⟨some none, hx, panics_bind.2 (.inr ⟨some tls, hy, panics_bind.2 (.inl (panics_put.2 rfl))⟩)⟩

/-! ## The other migrations -/

theorem not_panics_migrateTo3 : ¬ Panics (migrateTo3 m) := by
  refine not_panics_onObj fun dns _ => not_panics_bind (not_panics_fieldVal _ _ _) fun x hx => ?_
  cases x with
  | none => exact not_panics_ok _
  | some v => exact not_panics_put (ne_none_of_fieldVal hx)

theorem not_panics_migrateTo4 (env : Env) (h : OkFields m) : ¬ Panics (migrateTo4 m) := by
  refine not_panics_onDoc (not_panics_onArrAnyway env (okObj_some (h.setVersion env 4)) (by decide) ?_)
  intro i w hw
  exact not_panics_onElemObj hw (fun m => not_panics_put nofun) (not_panics_ok _)

theorem not_panics_migrateTo5 (env : Env) : ¬ Panics (migrateTo5 env m) := by
  refine not_panics_bind not_panics_moveVal fun ⟨doc, user⟩ hmove => ?_
  refine not_panics_bind (not_panics_strVal _ _) fun pass _ => ?_
  cases pass with
  | none => exact not_panics_ok _
  | some pass =>
    dsimp only
    split
    · exact fun h => Bool.false_ne_true (panics_error.1 h)
    · refine not_panics_bind (not_panics_put fun hnone => ?_) fun _ _ => not_panics_ok _
      rw [drop_eq_none, moveVal_eq_none hmove] at hnone
      cases hnone

theorem not_panics_clientID (i : ℕ) (c : Obj) (id : String) : ¬ Panics (clientID i c id) := by
  unfold clientID
  split
  · exact fun h => Bool.false_ne_true (panics_error.1 h)
  · exact not_panics_ok _

theorem not_panics_migrateTo6 (env : Env) (h : OkFields m) : ¬ Panics (migrateTo6 m) := by
  refine not_panics_onDoc (not_panics_onArr env (okObj_some (h.setVersion env 6)) (by decide) ?_)
  intro i w hw
  refine not_panics_onElemObj hw (fun m => ?_) fun h => Bool.false_ne_true (panics_error.1 h)
  refine not_panics_bind (not_panics_clientID _ _ _) fun ip _ => ?_
  exact not_panics_bind (not_panics_clientID _ _ _) fun mac _ => not_panics_put nofun

theorem not_panics_migrateTo8 : ¬ Panics (migrateTo8 m) := by
  refine not_panics_onObj fun dns _ => not_panics_bind (not_panics_strVal _ _) fun x hx => ?_
  cases x with
  | none => exact not_panics_ok _
  | some s => exact not_panics_put fun hnone => ne_none_of_strVal hx (drop_eq_none.1 hnone)

theorem not_panics_addQUICPorts (env : Env) (k : String) (dns : Obj) : ¬ Panics (addQUICPorts env k dns) := by
  refine not_panics_bind (not_panics_fieldVal _ _ _) fun x hx => ?_
  cases x with
  | none => exact not_panics_ok _
  | some ups =>
    refine not_panics_bind (not_panics_onElems (fun i u => ?_) ups) fun _ _ =>
      not_panics_put (ne_none_of_fieldVal hx)
    split
    · exact not_panics_ok _
    · exact fun h => Bool.false_ne_true (panics_error.1 h)

theorem not_panics_migrateTo10 (env : Env) : ¬ Panics (migrateTo10 env m) :=
  not_panics_onObj fun _ _ => not_panics_bind (not_panics_addQUICPorts _ _ _) fun _ _ => not_panics_addQUICPorts _ _ _

theorem not_panics_migrateTo11 : ¬ Panics (migrateTo11 m) :=
  not_panics_bind (not_panics_intVal _ _) fun _ _ => not_panics_ok _

theorem not_panics_migrateTo14 : ¬ Panics (migrateTo14 m) := by
  refine not_panics_bind (not_panics_fieldVal _ _ _) fun x _ => ?_
  refine not_panics_bind (not_panics_objVal _ _) fun y _ => ?_
  cases y with
  | none => exact not_panics_ok _
  | some dns => exact not_panics_bind not_panics_moveVal fun _ _ => not_panics_ok _

theorem not_panics_migrateTo15 : ¬ Panics (migrateTo15 m) := by
  refine not_panics_bind (not_panics_objVal _ _) fun x _ => ?_
  cases x with
  | none => exact not_panics_ok _
  | some dns => exact not_panics_bind (not_panics_moveAll _ _ _) fun _ _ => not_panics_ok _

theorem not_panics_migrateTo16 : ¬ Panics (migrateTo16 m) := by
  refine not_panics_bind (not_panics_objVal _ _) fun x _ => ?_
  cases x with
  | none => exact not_panics_ok _
  | some dns =>
    refine not_panics_bind (not_panics_intVal _ _) fun y _ => ?_
    cases y <;> exact not_panics_ok _

theorem not_panics_clientSafeSearch (m : Fields) : ¬ Panics (clientSafeSearch (some m)) := by
  unfold clientSafeSearch
  split
  · rename_i c safeSearch hmove
    refine not_panics_put fun hnone => ?_
    rw [moveVal_eq_none hmove] at hnone
    cases hnone
  · exact not_panics_put nofun

theorem not_panics_migrateTo19 (env : Env) (h : OkFields m) : ¬ Panics (migrateTo19 m) := by
  refine not_panics_onObj fun clients hclients => ?_
  have hok := OkObj.of_objVal env (h.setVersion env 19) (by decide) hclients
  exact not_panics_onArrAnyway env hok (by decide) fun i w hw =>
    not_panics_onElemObj hw not_panics_clientSafeSearch (not_panics_ok _)

theorem not_panics_clientServices (i : ℕ) (m : Fields) : ¬ Panics (clientServices i (some m)) := by
  unfold clientServices
  split
  · exact fun h => Bool.false_ne_true (panics_error.1 h)
  · exact not_panics_ok _
  · exact not_panics_put nofun

theorem not_panics_migrateTo22 (env : Env) (h : OkFields m) : ¬ Panics (migrateTo22 m) := by
  refine not_panics_onObj fun clients hclients => ?_
  have hok := OkObj.of_objVal env (h.setVersion env 22) (by decide) hclients
  exact not_panics_onArr env hok (by decide) fun i w hw =>
    not_panics_onElemObj hw (not_panics_clientServices i) fun h => Bool.false_ne_true (panics_error.1 h)

theorem not_panics_migrateTo23 (env : Env) : ¬ Panics (migrateTo23 env m) := by
  refine not_panics_bind (not_panics_strVal _ _) fun x _ => ?_
  cases x with
  | none => exact not_panics_ok _
  | some bindHost =>
    dsimp only
    split
    · exact fun h => Bool.false_ne_true (panics_error.1 h)
    · refine not_panics_bind (not_panics_intVal _ _) fun _ _ => ?_
      exact not_panics_bind (not_panics_intVal _ _) fun _ _ => not_panics_ok _

theorem not_panics_migrateTo24 : ¬ Panics (migrateTo24 m) :=
  not_panics_bind (not_panics_moveAll _ _ _) fun _ _ => not_panics_ok _

theorem not_panics_migrateTo26 : ¬ Panics (migrateTo26 m) := by
  refine not_panics_bind (not_panics_objVal _ _) fun x _ => ?_
  cases x with
  | none => exact not_panics_ok _
  | some dns => exact not_panics_bind (not_panics_moveAll _ _ _) fun _ _ => not_panics_ok _

theorem not_panics_replaceDot (env : Env) (h : OkFields m) (hk : Untyped k) : ¬ Panics (replaceDot k m) :=
  not_panics_onObj fun _ ho =>
    not_panics_onArr env (.of_objVal env h hk ho) (by decide) fun _ _ _ => not_panics_ok _

theorem not_panics_migrateTo27 (env : Env) (h : OkFields m) : ¬ Panics (migrateTo27 m) := by
  have hv := h.setVersion env 27
  refine not_panics_bind (not_panics_replaceDot env hv (by decide)) fun m' hm' => ?_
  have hrefl : SimFields env (setVersion 27 m) (setVersion 27 m) := SimFields.refl hv
  have hsame := (Rel.of_sim hrefl).replaceDot (k := "querylog") (by decide) (by decide)
  rw [hm'] at hsame
  have hrel : Rel env none m' m' := hsame
  exact not_panics_replaceDot env (simFields_iff.1 hrel.sim).2.1 (by decide)

theorem not_panics_migrateTo30 : ¬ Panics (migrateTo30 m) := by
  refine not_panics_onObj fun dns _ => not_panics_bind (not_panics_intVal _ _) fun x hx => ?_
  cases x with
  | none => exact not_panics_ok _
  | some cacheSize => exact not_panics_put (ne_none_of_intVal hx)

theorem not_panics_migrateTo31 (env : Env) (h : OkFields m) : ¬ Panics (migrateTo31 m) := by
  refine not_panics_onObj fun fltConf hflt => ?_
  have hok := OkObj.of_objVal env (h.setVersion env 31) (by decide) hflt
  exact not_panics_onArr env hok (by decide) fun i w hw =>
    not_panics_onElemObj hw (fun m => not_panics_put nofun) (not_panics_ok _)

theorem not_panics_setIgnoredEnabled : ¬ Panics (setIgnoredEnabled k m) := by
  refine not_panics_bind (not_panics_objVal _ _) fun x _ => ?_
  cases x with
  | none => exact not_panics_ok _
  | some conf =>
    refine not_panics_bind (not_panics_fieldVal _ _ _) fun y hy => ?_
    cases y with
    | none => exact not_panics_ok _
    | some ignored =>
      exact not_panics_bind (not_panics_put (ne_none_of_fieldVal hy)) fun _ _ => not_panics_ok _

theorem not_panics_migrateTo33 : ¬ Panics (migrateTo33 m) := by
  refine not_panics_bind not_panics_setIgnoredEnabled fun x _ => ?_
  cases x with
  | none => exact not_panics_ok _
  | some m => exact not_panics_bind not_panics_setIgnoredEnabled fun _ _ => not_panics_ok _

/-! ## Runs -/

/-- The migrations panic on the documents that `WritesNil` says, the first of them from the version `cur`. -/
def PanicsAt : ℕ → List (Fields → Except Err Fields) → Prop
  | _, [] => True
  | cur, f :: fs => (∀ m, OkFields m → (Panics (f m) ↔ WritesNil (cur + 1) m)) ∧ PanicsAt (cur + 1) fs

theorem panicsAt_upgrades (env : Env) : PanicsAt 0 (upgrades env) :=
  ⟨fun _ _ => iff_of_false (not_panics_ok _) id,
    fun _ _ => iff_of_false (not_panics_onDoc not_panics_renameVal) id,
    fun _ _ => iff_of_false not_panics_migrateTo3 id,
    fun _ h => iff_of_false (not_panics_migrateTo4 env h) id,
    fun _ _ => iff_of_false (not_panics_migrateTo5 env) id,
    fun _ h => iff_of_false (not_panics_migrateTo6 env h) id,
    fun _ _ => panics_migrateTo7,
    fun _ _ => iff_of_false not_panics_migrateTo8 id,
    fun _ _ => iff_of_false (not_panics_onObj fun _ _ => not_panics_renameVal) id,
    fun _ _ => iff_of_false (not_panics_migrateTo10 env) id,
    fun _ _ => iff_of_false not_panics_migrateTo11 id,
    fun _ _ => panics_migrateTo12,
    fun _ _ => panics_migrateTo13,
    fun _ _ => iff_of_false not_panics_migrateTo14 id,
    fun _ _ => iff_of_false not_panics_migrateTo15 id,
    fun _ _ => iff_of_false not_panics_migrateTo16 id,
    fun _ _ => panics_migrateTo17,
    fun _ _ => panics_migrateTo18,
    fun _ h => iff_of_false (not_panics_migrateTo19 env h) id,
    fun _ _ => panics_migrateTo20,
    fun _ _ => panics_migrateTo21,
    fun _ h => iff_of_false (not_panics_migrateTo22 env h) id,
    fun _ _ => iff_of_false (not_panics_migrateTo23 env) id,
    fun _ _ => iff_of_false not_panics_migrateTo24 id,
    fun _ _ => panics_migrateTo25,
    fun _ _ => iff_of_false not_panics_migrateTo26 id,
    fun _ h => iff_of_false (not_panics_migrateTo27 env h) id,
    fun _ _ => panics_migrateTo28,
    fun _ _ => panics_migrateTo29 env,
    fun _ _ => iff_of_false not_panics_migrateTo30 id,
    fun _ h => iff_of_false (not_panics_migrateTo31 env h) id,
    fun _ _ => panics_migrateTo32,
    fun _ _ => iff_of_false not_panics_migrateTo33 id,
    fun _ _ => panics_migrateTo34, trivial⟩

theorem PanicsAt.get {cur j : ℕ} {fs : List (Fields → Except Err Fields)} {f : Fields → Except Err Fields}
    (h : PanicsAt cur fs) (hf : fs[j]? = some f) (hm : OkFields m) : Panics (f m) ↔ WritesNil (cur + j + 1) m := by
  induction fs generalizing cur j with
  | nil => simp at hf
  | cons g fs ih =>
    cases j with
    | zero =>
      cases hf
      exact h.1 m hm
    | succ j =>
      have := ih h.2 (j := j) (by simpa using hf)
      rwa [show cur + 1 + j = cur + (j + 1) by omega] at this

/-- A run panics where one of its migrations does. -/
theorem panics_runUpgrades {cur : ℕ} {fs : List (Fields → Except Err Fields)} :
    Panics (runUpgrades cur fs m) ↔
      ∃ j f m', fs[j]? = some f ∧ runUpgrades cur (fs.take j) m = .ok m' ∧ Panics (f m') := by
  induction fs generalizing cur m with
  | nil => simp [runUpgrades, not_panics_ok]
  | cons g fs ih =>
    cases hg : g m with
    | error err =>
      rw [runUpgrades, hg]
      dsimp only
      rw [panics_error]
      constructor
      · intro h
        exact ⟨0, g, m, rfl, rfl, by rw [hg, panics_error]; exact h⟩
      · rintro ⟨j, f, m', hf, hm', h⟩
        cases j with
        | zero =>
          cases hf
          cases hm'
          rw [hg, panics_error] at h
          exact h
        | succ j =>
          rw [List.take_succ_cons, runUpgrades, hg] at hm'
          cases hm'
    | ok m₁ =>
      rw [runUpgrades, hg]
      dsimp only
      rw [ih]
      constructor
      · rintro ⟨j, f, m', hf, hm', h⟩
        exact ⟨j + 1, f, m', by simpa using hf, by rw [List.take_succ_cons, runUpgrades, hg]; exact hm', h⟩
      · rintro ⟨j, f, m', hf, hm', h⟩
        cases j with
        | zero =>
          cases hf
          cases hm'
          rw [hg] at h
          exact absurd h (not_panics_ok _)
        | succ j =>
          rw [List.take_succ_cons, runUpgrades, hg] at hm'
          exact ⟨j, f, m', by simpa using hf, hm', h⟩

theorem WritesNil.le {n : ℕ} (h : WritesNil n m) : n ≤ lastSchemaVersion := by
  by_contra hn
  have hlast : lastSchemaVersion = 34 := rfl
  unfold WritesNil at h
  split at h <;> omega

theorem getElem?_slice (env : Env) (current target j : ℕ) :
    (slice env current target)[j]? = if current + j < target then (upgrades env)[current + j]? else none := by
  rw [slice, List.getElem?_drop, List.getElem?_take]

theorem take_slice (env : Env) {current target j : ℕ} (hj : current + j ≤ target) :
    (slice env current target).take j = slice env current (current + j) := by
  unfold slice
  rw [List.take_drop, List.take_take, min_eq_left hj]

/-- A document whose DNS section is null. -/
def nullDNS : List (String × Yaml) := [("schema_version", .int 16), ("dns", .null)]

/-- The upgrade returns exactly if no migration of it writes to a section that is null in the document before it. -/
theorem not_panics_upgradeConfigSchema_iff (env : Env) (body : List (String × Yaml)) (current target : ℕ) :
    ¬ Panics (upgradeConfigSchema env current target (decodeFields body)) ↔
      ∀ j m, current ≤ j → j < target → upgradeConfigSchema env current j (decodeFields body) = .ok m →
        ¬ WritesNil (j + 1) m := by
  have hok : ∀ j m, upgradeConfigSchema env current j (decodeFields body) = .ok m → OkFields m := by
    intro j m hm
    have hrun := (chain_slice env current j).runUpgrades (Rel.of_sim (SimFields.refl (okFields_decodeFields body)))
    rw [show runUpgrades current (slice env current j) (decodeFields body) = .ok m from hm] at hrun
    have hrel : Rel env _ m m := hrun
    exact (simFields_iff.1 hrel.sim).2.1
  rw [show upgradeConfigSchema env current target (decodeFields body) =
    runUpgrades current (slice env current target) (decodeFields body) from rfl, panics_runUpgrades]
  constructor
  · intro h j m hj hjt hm hnil
    have hle := hnil.le
    have hlt : j < (upgrades env).length := hle
    refine h ⟨j - current, (upgrades env)[j], m, ?_, ?_, ?_⟩
    · rw [getElem?_slice, Nat.add_sub_cancel' hj, if_pos hjt, List.getElem?_eq_getElem hlt]
    · rw [take_slice env (by omega), Nat.add_sub_cancel' hj]
      exact hm
    · rw [(panicsAt_upgrades env).get (j := j) (List.getElem?_eq_getElem hlt) (hok j m hm), Nat.zero_add]
      exact hnil
  · rintro h ⟨i, f, m, hf, hm, hp⟩
    rw [getElem?_slice] at hf
    split at hf
    · rename_i hi
      rw [take_slice env (Nat.le_of_lt hi)] at hm
      rw [(panicsAt_upgrades env).get hf (hok _ m hm), Nat.zero_add] at hp
      exact h (current + i) m (Nat.le_add_right ..) hi hm hp
    · cases hf

/-- The migration to the version 17 assigns to an entry of the null section. -/
theorem panics_nullDNS : Panics (upgradeConfigSchema hoursEnv 16 17 (decodeFields nullDNS)) := ⟨_, rfl, rfl⟩

end AdGuardHome.Configmigrate
