import AdGuardHome.Configmigrate.NilMaps
import AdGuardHome.Configmigrate.Paths

/-!
# What the operations of the migrations keep

One lemma for each operation that says what it has done if it succeeds, and one that says which paths it keeps.
-/

namespace AdGuardHome.Configmigrate

open AdGuardHome.Lib

variable {T : Ty} {v v' : Val} {m m' s d d' : Fields} {o o' : Obj} {k k' : String} {N : Path → Prop}

/-! ## Access -/

theorem fieldVal_cases {x : Option Val} (h : fieldVal T (some m) k = .ok x) :
    (x = none ∧ Fields.get m k = none) ∨ (x = some T.zero ∧ Fields.get m k = some .null) ∨
      ∃ v, x = some v ∧ Fields.get m k = some v ∧ v ≠ .null ∧ T.has v = true := by
  cases hget : Fields.get m k with
  | none =>
    rw [fieldVal, Option.bind_some, hget] at h
    cases h
    exact .inl ⟨rfl, rfl⟩
  | some v =>
    by_cases hv : v = .null
    · rw [fieldVal, Option.bind_some, hget, hv] at h
      cases h
      exact .inr (.inl ⟨rfl, by rw [hv]⟩)
    · rw [fieldVal_eq hv (by rw [Option.bind_some, hget])] at h
      split at h
      · rename_i hT
        cases h
        exact .inr (.inr ⟨v, rfl, rfl, hv, hT⟩)
      · cases h

theorem get_of_fieldVal_none (h : fieldVal T (some m) k = .ok none) : Fields.get m k = none := by
  obtain ⟨-, hget⟩ | ⟨⟨⟩, -⟩ | ⟨_, ⟨⟩, -⟩ := fieldVal_cases h
  exact hget

theorem ne_none_of_fieldVal_some (h : fieldVal T (some m) k = .ok (some v)) : Fields.get m k ≠ none := by
  intro hget
  rw [fieldVal, Option.bind_some, hget] at h
  cases h

/-- A value that is not null is found as it is, and so is any value of which no type is asked. -/
theorem fieldVal_eq_get {x : Option Val} (h : fieldVal T (some m) k = .ok x)
    (hn : T = .any ∨ Fields.get m k ≠ some .null) : x = Fields.get m k := by
  obtain ⟨rfl, hget⟩ | ⟨rfl, hget⟩ | ⟨v, rfl, hget, -⟩ := fieldVal_cases h
  · exact hget.symm
  · obtain rfl | hn := hn
    · exact hget.symm
    · exact absurd hget hn
  · exact hget.symm

theorem objVal_cases {x : Option Obj} (h : objVal (some m) k = .ok x) :
    (x = none ∧ Fields.get m k = none) ∨ (∃ o, x = some (some o) ∧ Fields.get m k = some (.map o)) ∨
      (x = some none ∧ ∀ o, Fields.get m k ≠ some (.map o)) := by
  obtain ⟨y, hy, rfl⟩ := map_eq_ok.1 h
  obtain ⟨rfl, hget⟩ | ⟨rfl, hget⟩ | ⟨v, rfl, hget, -, hv⟩ := fieldVal_cases hy
  · exact .inl ⟨rfl, hget⟩
  · exact .inr (.inr ⟨rfl, fun o ho => by rw [hget] at ho; cases ho⟩)
  · cases v with
    | map o => exact .inr (.inl ⟨o, rfl, hget⟩)
    | nilMap => exact .inr (.inr ⟨rfl, fun o ho => by rw [hget] at ho; cases ho⟩)
    | _ => cases hv

theorem ne_none_of_objVal {x : Obj} (h : objVal (some m) k = .ok (some x)) : Fields.get m k ≠ none := by
  intro hget
  rw [objVal, fieldVal, Option.bind_some, hget] at h
  cases h

theorem objVal_of_get {o : Fields} (h : Fields.get m k = some (.map o)) :
    objVal (some m) k = .ok (some (some o)) := by
  rw [objVal, fieldVal_eq (v := .map o) (by simp) (by rw [Option.bind_some, h])]
  rfl

/-- A flag is found as it is. -/
theorem fieldVal_of_bool (h : ∀ w, Fields.get m k = some w → ∃ b, w = .bool b) :
    fieldVal .bool (some m) k = .ok (Fields.get m k) := by
  cases hget : Fields.get m k with
  | none =>
    rw [fieldVal, Option.bind_some, hget]
  | some w =>
    obtain ⟨b, rfl⟩ := h w hget
    rw [fieldVal_eq (v := .bool b) (by simp) (by rw [Option.bind_some, hget])]
    rfl

theorem intVal_cases {x : Option ℤ} (h : intVal (some m) k = .ok x) :
    x = (Fields.get m k).map Val.toInt := by
  obtain ⟨y, hy, rfl⟩ := map_eq_ok.1 h
  obtain ⟨rfl, hget⟩ | ⟨rfl, hget⟩ | ⟨v, rfl, hget, -⟩ := fieldVal_cases hy <;> simp [hget, Ty.zero, Val.toInt]

theorem strVal_cases {x : Option String} (h : strVal (some m) k = .ok x) :
    x = (Fields.get m k).map Val.toStr := by
  obtain ⟨y, hy, rfl⟩ := map_eq_ok.1 h
  obtain ⟨rfl, hget⟩ | ⟨rfl, hget⟩ | ⟨v, rfl, hget, -⟩ := fieldVal_cases hy <;> simp [hget, Ty.zero, Val.toStr]

/-- A value that is not null and was read as a text is one; likewise for a number. -/
theorem strVal_of_get {x : Option String} (h : strVal (some m) k = .ok x) (hv : Fields.get m k = some v)
    (hn : v ≠ .null) : ∃ s, v = .str s ∧ x = some s := by
  obtain ⟨y, hy, rfl⟩ := map_eq_ok.1 h
  obtain ⟨-, hget⟩ | ⟨-, hget⟩ | ⟨w, rfl, hget, -, hw⟩ := fieldVal_cases hy
  · rw [hv] at hget
    cases hget
  · rw [hv] at hget
    exact absurd (Option.some.inj hget) hn
  · cases hv.symm.trans hget
    cases v with
    | str s => exact ⟨s, rfl, rfl⟩
    | _ => cases hw

theorem intVal_of_get {x : Option ℤ} (h : intVal (some m) k = .ok x) (hv : Fields.get m k = some v)
    (hn : v ≠ .null) : ∃ n, v = .int n ∧ x = some n := by
  obtain ⟨y, hy, rfl⟩ := map_eq_ok.1 h
  obtain ⟨-, hget⟩ | ⟨-, hget⟩ | ⟨w, rfl, hget, -, hw⟩ := fieldVal_cases hy
  · rw [hv] at hget
    cases hget
  · rw [hv] at hget
    exact absurd (Option.some.inj hget) hn
  · cases hv.symm.trans hget
    cases v with
    | int n => exact ⟨n, rfl, rfl⟩
    | _ => cases hw

theorem flag_eq (h : ∀ w, Fields.get m k = some w → ∃ b, w = .bool b) :
    flag (some m) k = true ↔ (Fields.get m k).map Val.toBool = some true := by
  rw [flag, boolVal, fieldVal_of_bool h]
  cases Fields.get m k with
  | none => exact ⟨nofun, nofun⟩
  | some w => exact ⟨congrArg some, Option.some.inj⟩

theorem flag_of_bool {b : Bool} (h : Fields.get m k = some (.bool b)) : flag (some m) k = b := by
  rw [flag, boolVal, fieldVal_eq (v := .bool b) (by simp) (by rw [Option.bind_some, h])]
  rfl

/-! ## Moves -/

theorem moveVal_cases (h : moveVal T (some s) d k k' = .ok (o, d')) (hn : T = .any ∨ Fields.get s k ≠ some .null) :
    (Fields.get s k = none ∧ o = some s ∧ d' = d) ∨
      ∃ v, Fields.get s k = some v ∧ o = some (Fields.del s k) ∧ d' = Fields.set d k' v := by
  obtain ⟨x, hx, h⟩ := bind_eq_ok.1 h
  have hget := fieldVal_eq_get hx hn
  cases x with
  | none =>
    cases h
    exact .inl ⟨hget.symm, rfl, rfl⟩
  | some v =>
    cases h
    exact .inr ⟨v, hget.symm, rfl, rfl⟩

theorem renameVal_cases (h : renameVal T (some m) k k' = .ok o) (hn : T = .any ∨ Fields.get m k ≠ some .null) :
    (Fields.get m k = none ∧ o = some m) ∨
      ∃ v, Fields.get m k = some v ∧ o = some (Fields.del (Fields.set m k' v) k) := by
  obtain ⟨x, hx, h⟩ := bind_eq_ok.1 h
  have hget := fieldVal_eq_get hx hn
  cases x with
  | none =>
    cases h
    exact .inl ⟨hget.symm, rfl⟩
  | some v =>
    cases h
    exact .inr ⟨v, hget.symm, rfl⟩

/-- A value may be moved to a key that is not there. -/
theorem Frames.renameVal (h : renameVal T (some m) k k' = .ok (some m'))
    (hn : T = .any ∨ Fields.get m k ≠ some .null) (hN : ∀ p, N (.key k :: p))
    (hnew : Fields.get m k ≠ none → Fields.get m k' = none) : Frames N (.map m) (.map m') := by
  obtain ⟨-, h⟩ | ⟨v, hget, h⟩ := renameVal_cases h hn
  · cases h
    exact .refl _ _
  · cases h
    exact (Frames.set_new (hnew (by rw [hget]; exact nofun))).trans (.del hN)

theorem get_of_renameVal (h : renameVal T (some m) k k' = .ok o) (hn : T = .any ∨ Fields.get m k ≠ some .null)
    (hne : k' ≠ k) (hv : Fields.get m k = some v) : ∃ m', o = some m' ∧ Fields.get m' k' = some v := by
  obtain ⟨hget, -⟩ | ⟨w, hget, rfl⟩ := renameVal_cases h hn
  · rw [hv] at hget
    cases hget
  · refine ⟨_, rfl, ?_⟩
    rw [Fields.get_del_ne _ hne, get_set_self, ← hget, hv]

/-- What a move of values from the object `s` to `d` has done if it has left `s'` and `d'`. -/
structure Moved (mvs : List Move) (s d s' d' : Fields) : Prop where
  moved : ∀ mv ∈ mvs, ∀ v, Fields.get s mv.srcKey = some v → Fields.get d' mv.dstKey = some v
  src : ∀ k, (∀ mv ∈ mvs, mv.srcKey ≠ k) → Fields.get s' k = Fields.get s k
  dst : ∀ k, (∀ mv ∈ mvs, mv.dstKey ≠ k) → Fields.get d' k = Fields.get d k
  frames : ∀ N : Path → Prop, (∀ mv ∈ mvs, ∀ p, N (.key mv.srcKey :: p)) → Frames N (.map s) (.map s')

/-- The values that are to be moved are not null where a type is asked of them. -/
def Plain (mvs : List Move) (s : Fields) : Prop :=
  ∀ mv ∈ mvs, mv.ty = .any ∨ Fields.get s mv.srcKey ≠ some .null

theorem moved_of_moveAll {mvs : List Move} (h : moveAll mvs (some s) d = .ok (o, d')) (hn : Plain mvs s)
    (hsrc : (mvs.map Move.srcKey).Nodup) (hdst : (mvs.map Move.dstKey).Nodup) :
    ∃ s', o = some s' ∧ Moved mvs s d s' d' := by
  induction mvs generalizing s d with
  | nil =>
    cases h
    exact ⟨s, rfl, by simp, fun _ _ => rfl, fun _ _ => rfl, fun _ _ => .refl _ _⟩
  | cons mv mvs ih =>
    rw [List.map_cons, List.nodup_cons] at hsrc hdst
    have hne : ∀ mv' ∈ mvs, mv'.srcKey ≠ mv.srcKey := fun mv' hmv' heq =>
      hsrc.1 (List.mem_map.2 ⟨mv', hmv', heq⟩)
    have hne' : ∀ mv' ∈ mvs, mv'.dstKey ≠ mv.dstKey := fun mv' hmv' heq =>
      hdst.1 (List.mem_map.2 ⟨mv', hmv', heq⟩)
    unfold moveAll at h
    split at h
    · rename_i o₁ d₁ hmv
      obtain ⟨hget, rfl, rfl⟩ | ⟨v, hget, rfl, rfl⟩ := moveVal_cases hmv (hn mv (by simp))
      · obtain ⟨s', rfl, hs⟩ := ih h (fun mv' hmv' => hn mv' (by simp [hmv'])) hsrc.2 hdst.2
        refine ⟨s', rfl, ?_, fun k hk => hs.src k fun mv' hmv' => hk mv' (by simp [hmv']),
          fun k hk => hs.dst k fun mv' hmv' => hk mv' (by simp [hmv']),
          fun N hN => hs.frames N fun mv' hmv' => hN mv' (by simp [hmv'])⟩
        rintro mv' hmv' v hv
        obtain rfl | hmv' := List.mem_cons.1 hmv'
        · rw [hget] at hv
          cases hv
        · exact hs.moved mv' hmv' v hv
      · -- The first value is gone from the source, and no later one takes its place in the destination.
        have hsame : ∀ mv' ∈ mvs, Fields.get (Fields.del s mv.srcKey) mv'.srcKey = Fields.get s mv'.srcKey :=
          fun mv' hmv' => Fields.get_del_ne s (hne mv' hmv')
        obtain ⟨s', rfl, hs⟩ := ih h
          (fun mv' hmv' => by rw [hsame mv' hmv']; exact hn mv' (by simp [hmv'])) hsrc.2 hdst.2
        refine ⟨s', rfl, ?_, fun k hk => ?_, fun k hk => ?_, fun N hN => ?_⟩
        · rintro mv' hmv' v' hv'
          obtain rfl | hmv' := List.mem_cons.1 hmv'
          · rw [hs.dst _ hne', get_set_self, ← hget, hv']
          · exact hs.moved mv' hmv' v' (by rwa [hsame mv' hmv'])
        · rw [hs.src k fun mv' hmv' => hk mv' (by simp [hmv'])]
          exact Fields.get_del_ne s (hk mv (by simp)).symm
        · rw [hs.dst k fun mv' hmv' => hk mv' (by simp [hmv'])]
          exact get_set_ne v (hk mv (by simp)).symm
        · exact (Frames.del (hN mv (by simp))).trans (hs.frames N fun mv' hmv' => hN mv' (by simp [hmv']))
    · split at h <;> cases h

/-- The move of one value. -/
theorem moved_of_moveVal (h : moveVal T (some s) d k k' = .ok (o, d'))
    (hn : T = .any ∨ Fields.get s k ≠ some .null) : ∃ s', o = some s' ∧ Moved [⟨T, k, k'⟩] s d s' d' := by
  refine moved_of_moveAll ?_ ?_ (by simp) (by simp)
  · rw [moveAll, h]
    rfl
  · intro mv hmv
    rw [List.mem_singleton.1 hmv]
    exact hn

/-- A move of values that are not there. -/
theorem moveAll_of_get_none {mvs : List Move} (h : ∀ mv ∈ mvs, Fields.get s mv.srcKey = none) :
    moveAll mvs (some s) d = .ok (some s, d) := by
  induction mvs with
  | nil => rfl
  | cons mv mvs ih =>
    have hmv : moveVal mv.ty (some s) d mv.srcKey mv.dstKey = .ok (some s, d) := by
      rw [moveVal, fieldVal, Option.bind_some, h mv (by simp)]
      rfl
    rw [moveAll, hmv]
    exact ih fun mv' hmv' => h mv' (by simp [hmv'])

/-! ## Changes in place -/

theorem onObj_of_get {f : Obj → Except Err Obj} {c : Fields} (h : onObj k f m = .ok m')
    (hk : Fields.get m k = some (.map c)) : ∃ o, f (some c) = .ok o ∧ m' = store m k o := by
  rw [onObj, objVal_of_get hk] at h
  obtain ⟨_, ⟨⟩, h⟩ := bind_eq_ok.1 h
  obtain ⟨o, ho, h⟩ := bind_eq_ok.1 h
  cases h
  exact ⟨o, ho, rfl⟩

theorem get_of_onObj {f : Obj → Except Err Obj} (h : onObj k f m = .ok m') (hk : k' ≠ k) :
    Fields.get m' k' = Fields.get m k' := by
  obtain ⟨x, -, h⟩ := bind_eq_ok.1 h
  cases x with
  | none =>
    cases h
    rfl
  | some o =>
    obtain ⟨o', -, h⟩ := bind_eq_ok.1 h
    cases h
    cases o' with
    | none => rfl
    | some c => exact get_set_ne _ hk

/-- A change of an object is framed if it does not make an object of a nil one. -/
theorem Frames.onObj {f : Obj → Except Err Obj} (h : onObj k f m = .ok m') (hnil : ∀ o, f none = .ok o → o = none)
    (hf : ∀ c c', Fields.get m k = some (.map c) → f (some c) = .ok (some c') →
      Frames (fun p => N (.key k :: p)) (.map c) (.map c')) : Frames N (.map m) (.map m') := by
  obtain ⟨x, hx, h⟩ := bind_eq_ok.1 h
  obtain ⟨rfl, -⟩ | ⟨c, rfl, hget⟩ | ⟨rfl, -⟩ := objVal_cases hx
  · cases h
    exact .refl _ _
  · obtain ⟨o, ho, h⟩ := bind_eq_ok.1 h
    cases h
    cases o with
    | none => exact .refl _ _
    | some c' =>
      refine .set fun w hw => ?_
      cases hget.symm.trans hw
      exact hf c c' hget ho
  · obtain ⟨o, ho, h⟩ := bind_eq_ok.1 h
    cases h
    rw [hnil o ho]
    exact .refl _ _

/-- The same for a section of a document that gets a new version. -/
theorem Frames.onSection {f : Obj → Except Err Obj} {i : ℤ} (h : Configmigrate.onObj k f (setVersion i m) = .ok m')
    (hk : k ≠ "schema_version") (hver : ∀ p, N (.key "schema_version" :: p)) (hnil : ∀ o, f none = .ok o → o = none)
    (hf : ∀ c c', Fields.get m k = some (.map c) → f (some c) = .ok (some c') →
      Frames (fun p => N (.key k :: p)) (.map c) (.map c')) : Frames N (.map m) (.map m') := by
  refine (frames_setVersion hver).trans (.onObj h hnil fun c c' hc => ?_)
  rw [get_setVersion hk] at hc
  exact hf c c' hc

theorem walk_of_onSection {f : Obj → Except Err Obj} {i : ℤ} {c : Fields} {q : Path}
    (h : onObj k f (setVersion i m) = .ok m') (hk : k ≠ "schema_version") (hget : Fields.get m k = some (.map c))
    (hf : ∀ o, f (some c) = .ok o → ∃ c', o = some c' ∧ Fields.walk c' q = some v) :
    Fields.walk m' (.key k :: q) = some v := by
  obtain ⟨o, ho, rfl⟩ := onObj_of_get h ((get_setVersion hk).trans hget)
  obtain ⟨c', rfl, hq⟩ := hf o ho
  exact (walk_set_self _ _ _).trans hq

theorem onDoc_eq_ok {f : Obj → Except Err Obj} (h : onDoc f m = .ok m') (hf : ∀ c, f (some m) = .ok c → c ≠ none) :
    f (some m) = .ok (some m') := by
  obtain ⟨o, ho, h⟩ := bind_eq_ok.1 h
  cases o with
  | none => exact absurd rfl (hf none ho)
  | some c =>
    cases h
    exact ho

/-- The elements of a list were changed one by one, or there was none. -/
theorem onArrElems_cases {f : ℕ → Val → Except Err Val} {l : List Val} (h : onArrElems k f (some m) l = .ok o) :
    (l = [] ∧ o = some m) ∨ ∃ l', mapIdxM f 0 l = .ok l' ∧ o = some (Fields.set m k (.list l')) := by
  cases l with
  | nil =>
    cases h
    exact .inl ⟨rfl, rfl⟩
  | cons a l =>
    obtain ⟨l', hl', h⟩ := bind_eq_ok.1 h
    cases h
    exact .inr ⟨l', hl', rfl⟩

theorem elems_of_fieldVal {x : Option Val} (h : fieldVal .arr (some m) k = .ok x) :
    elems x = [] ∨ Fields.get m k = some (.list (elems x)) := by
  obtain ⟨rfl, -⟩ | ⟨rfl, -⟩ | ⟨v, rfl, hget, -, hv⟩ := fieldVal_cases h
  · exact .inl rfl
  · exact .inl rfl
  · cases v with
    | list l => exact .inr hget
    | nilList => exact .inl rfl
    | _ => cases hv

theorem fieldVal_of_list {l : List Val} (h : Fields.get m k = some (.list l)) :
    fieldVal .arr (some m) k = .ok (some (.list l)) := by
  rw [fieldVal_eq (v := .list l) nofun (by rw [Option.bind_some, h])]
  rfl

/-- The elements of the list under a key were changed one by one, or the object is as it was. -/
theorem onArr_cases {f : ℕ → Val → Except Err Val} (h : onArr k f (some m) = .ok o) :
    o = some m ∨ ∃ l l', Fields.get m k = some (.list l) ∧ mapIdxM f 0 l = .ok l' ∧
      o = some (Fields.set m k (.list l')) := by
  obtain ⟨x, hx, h⟩ := bind_eq_ok.1 h
  obtain ⟨-, rfl⟩ | ⟨l', hl', rfl⟩ := onArrElems_cases h
  · exact .inl rfl
  · obtain hnil | hget := elems_of_fieldVal hx
    · rw [hnil] at h
      exact .inl (Except.ok.inj h).symm
    · exact .inr ⟨_, l', hget, hl', rfl⟩

theorem onArrAnyway_cases {f : ℕ → Val → Except Err Val} (h : onArrAnyway k f (some m) = .ok o) :
    o = some m ∨ ∃ l l', Fields.get m k = some (.list l) ∧ mapIdxM f 0 l = .ok l' ∧
      o = some (Fields.set m k (.list l')) := by
  unfold onArrAnyway at h
  split at h
  · rename_i x hx
    refine onArr_cases (f := f) ?_
    rw [onArr, hx]
    exact h
  · cases h
    exact .inl rfl

theorem onArrElems_of_ne_nil {f : ℕ → Val → Except Err Val} {l : List Val} {j : ℕ} {a : Val}
    (h : onArrElems k f (some m) l = .ok o) (ha : l[j]? = some a) :
    ∃ m' b, o = some m' ∧ f j a = .ok b ∧ ∀ p, Fields.walk m' (.key k :: .idx j :: p) = b.walk p := by
  obtain ⟨rfl, -⟩ | ⟨l', hl', rfl⟩ := onArrElems_cases h
  · cases ha
  · obtain ⟨b, hb, hf⟩ := (getElem?_of_mapIdxM hl').2 j a ha
    rw [Nat.zero_add] at hf
    refine ⟨_, b, rfl, hf, fun p => ?_⟩
    rw [walk_set_self, Val.walk, Val.child, hb]
    rfl

/-- An element of the list under a key was changed in its place. -/
theorem onArr_element {f : ℕ → Val → Except Err Val} {l : List Val} {j : ℕ} {a : Val}
    (h : onArr k f (some m) = .ok o) (hget : Fields.get m k = some (.list l)) (ha : l[j]? = some a) :
    ∃ m' b, o = some m' ∧ f j a = .ok b ∧ ∀ p, Fields.walk m' (.key k :: .idx j :: p) = b.walk p := by
  rw [onArr, fieldVal_of_list hget] at h
  exact onArrElems_of_ne_nil h ha

theorem onArrAnyway_element {f : ℕ → Val → Except Err Val} {l : List Val} {j : ℕ} {a : Val}
    (h : onArrAnyway k f (some m) = .ok o) (hget : Fields.get m k = some (.list l)) (ha : l[j]? = some a) :
    ∃ m' b, o = some m' ∧ f j a = .ok b ∧ ∀ p, Fields.walk m' (.key k :: .idx j :: p) = b.walk p := by
  rw [onArrAnyway, fieldVal_of_list hget] at h
  exact onArrElems_of_ne_nil h ha

/-- A loop over the elements of the list under a key is framed if the change of each element is. -/
theorem Frames.loop {f : ℕ → Val → Except Err Val} {l l' : List Val} (hget : Fields.get m k = some (.list l))
    (hl : mapIdxM f 0 l = .ok l')
    (hf : ∀ j a b, Fields.walk m [.key k, .idx j] = some a → f j a = .ok b →
      Frames (fun p => N (.key k :: .idx j :: p)) a b) : Frames N (.map m) (.map (Fields.set m k (.list l'))) := by
  obtain ⟨hlen, hall⟩ := getElem?_of_mapIdxM hl
  refine .set fun w hw => ?_
  cases hget.symm.trans hw
  refine .list hlen fun j a ha => ?_
  obtain ⟨b, hb, hfb⟩ := hall j a ha
  rw [Nat.zero_add] at hfb
  refine ⟨b, hb, hf j a b ?_ hfb⟩
  rw [walk_of_get hget, Val.walk, Val.child, ha]
  rfl

theorem Frames.onArr {f : ℕ → Val → Except Err Val} (h : onArr k f (some m) = .ok (some m'))
    (hf : ∀ j a b, Fields.walk m [.key k, .idx j] = some a → f j a = .ok b →
      Frames (fun p => N (.key k :: .idx j :: p)) a b) : Frames N (.map m) (.map m') := by
  obtain h | ⟨l, l', hget, hl, h⟩ := onArr_cases h
  · cases h
    exact .refl _ _
  · cases h
    exact .loop hget hl hf

theorem Frames.onArrAnyway {f : ℕ → Val → Except Err Val} (h : onArrAnyway k f (some m) = .ok (some m'))
    (hf : ∀ j a b, Fields.walk m [.key k, .idx j] = some a → f j a = .ok b →
      Frames (fun p => N (.key k :: .idx j :: p)) a b) : Frames N (.map m) (.map m') := by
  obtain h | ⟨l, l', hget, hl, h⟩ := onArrAnyway_cases h
  · cases h
    exact .refl _ _
  · cases h
    exact .loop hget hl hf

theorem Frames.onElemObj {f : Obj → Except Err Obj} {other : Val → Except Err Val}
    (h : onElemObj f other v = .ok v') (hnil : ∀ o, f none = .ok o → o = none)
    (hother : ∀ w w', other w = .ok w' → w' = w)
    (hf : ∀ c c', v = .map c → f (some c) = .ok (some c') → Frames N (.map c) (.map c')) : Frames N v v' := by
  unfold Configmigrate.onElemObj at h
  cases v with
  | map c =>
    obtain ⟨o, ho, h⟩ := bind_eq_ok.1 h
    cases h
    cases o with
    | none => exact .refl _ _
    | some c' => exact hf c c' rfl ho
  | nilMap =>
    obtain ⟨o, ho, h⟩ := bind_eq_ok.1 h
    cases h
    rw [hnil o ho]
    exact .refl _ _
  | _ =>
    cases hother _ _ h
    exact .refl _ _

end AdGuardHome.Configmigrate
