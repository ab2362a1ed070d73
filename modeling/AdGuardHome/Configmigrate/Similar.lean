import AdGuardHome.Configmigrate.Migrations

/-!
# Trees with the same document

Two trees are similar if they have the same document and each has values that no document has only under the keys
where the migrations put them.  No migration asks for a value under such a key in a way that tells the two apart, so
each operation of the migrations takes similar objects to similar ones, or fails on both.
-/

namespace AdGuardHome.Configmigrate

open AdGuardHome.Lib

/-! ## Failures -/

/-- Whether the failure is a panic. -/
def Err.panics : Err → Bool
  | .nilMap => true
  | .migrating _ _ err => err.panics
  | _ => false

/-- Both computations return an error, both panic, or both succeed with related results. -/
abbrev Same {α β : Type} : (α → β → Prop) → Except Err α → Except Err β → Prop :=
  Agree fun err err' => err.panics = err'.panics

/-! ## Similar values -/

mutual

/-- A value under the key may have a type of its own only if the migrations put one there. -/
def Ok : String → Val → Prop
  | _, .list l => OkList l
  | _, .map m => OkFields m
  | k, .nilMap => k = "safe_search" ∨ k = "blocked_services"
  | k, .dur _ => k = "querylog_interval" ∨ k = "interval"
  | k, .mode _ => k = "upstream_mode"
  | k, .strs _ => k = "safe_fs_patterns"
  | _, _ => True

def OkList : List Val → Prop
  | [] => True
  | v :: l => Ok "" v ∧ OkList l

def OkFields : List (String × Val) → Prop
  | [] => True
  | (k, v) :: m => Ok k v ∧ OkFields m

end

variable (env : Env)

/-- The values under the key have the same document. -/
structure Sim (k : String) (v v' : Val) : Prop where
  encode : v.encode env = v'.encode env
  ok : Ok k v
  ok' : Ok k v'

/-- The elements are similar, one by one. -/
abbrev SimList : List Val → List Val → Prop := List.Forall₂ (Sim env "")

/-- The fields are similar, one by one. -/
abbrev SimFields : Fields → Fields → Prop := List.Forall₂ fun p p' => p.1 = p'.1 ∧ Sim env p.1 p.2 p'.2

variable {env} {k : String} {v v' : Val} {m m' : Fields}

theorem Sim.refl (h : Ok k v) : Sim env k v v := ⟨rfl, h, h⟩

theorem simList_iff {l l' : List Val} :
    SimList env l l' ↔ encodeList env l = encodeList env l' ∧ OkList l ∧ OkList l' := by
  induction l generalizing l' with
  | nil => cases l' <;> simp [encodeList, OkList]
  | cons v l ih =>
    cases l' with
    | nil => simp [encodeList]
    | cons v' l' =>
      have hcons : SimList env (v :: l) (v' :: l') ↔ Sim env "" v v' ∧ SimList env l l' := List.forall₂_cons
      rw [hcons, ih]
      simp only [encodeList, OkList, List.cons.injEq]
      constructor
      · rintro ⟨⟨he, ho, ho'⟩, hel, hol, hol'⟩
        exact ⟨⟨he, hel⟩, ⟨ho, hol⟩, ho', hol'⟩
      · rintro ⟨⟨he, hel⟩, ⟨ho, hol⟩, ho', hol'⟩
        exact ⟨⟨he, ho, ho'⟩, hel, hol, hol'⟩

theorem simFields_iff : SimFields env m m' ↔ encodeFields env m = encodeFields env m' ∧ OkFields m ∧ OkFields m' := by
  induction m generalizing m' with
  | nil => cases m' <;> simp [encodeFields, OkFields]
  | cons p m ih =>
    obtain ⟨k, v⟩ := p
    cases m' with
    | nil => simp [encodeFields]
    | cons p' m' =>
      obtain ⟨k', v'⟩ := p'
      have hcons : SimFields env ((k, v) :: m) ((k', v') :: m') ↔ (k = k' ∧ Sim env k v v') ∧ SimFields env m m' :=
        List.forall₂_cons
      rw [hcons, ih]
      simp only [encodeFields, OkFields, List.cons.injEq, Prod.mk.injEq]
      constructor
      · rintro ⟨⟨rfl, he, ho, ho'⟩, hem, hom, hom'⟩
        exact ⟨⟨⟨rfl, he⟩, hem⟩, ⟨ho, hom⟩, ho', hom'⟩
      · rintro ⟨⟨⟨rfl, he⟩, hem⟩, ⟨ho, hom⟩, ho', hom'⟩
        exact ⟨⟨rfl, he, ho, ho'⟩, hem, hom, hom'⟩

theorem sim_iff : Sim env k v v' ↔ v.encode env = v'.encode env ∧ Ok k v ∧ Ok k v' :=
  ⟨fun h => ⟨h.encode, h.ok, h.ok'⟩, fun h => ⟨h.1, h.2.1, h.2.2⟩⟩

theorem sim_list_iff {l l' : List Val} : Sim env k (.list l) (.list l') ↔ SimList env l l' := by
  rw [simList_iff, sim_iff]
  simp [Val.encode, Ok]

theorem sim_map_iff : Sim env k (.map m) (.map m') ↔ SimFields env m m' := by
  rw [simFields_iff, sim_iff]
  simp [Val.encode, Ok]

theorem SimFields.refl (h : OkFields m) : SimFields env m m := simFields_iff.2 ⟨rfl, h, h⟩

/-! ## Fields -/

theorem SimFields.get (h : SimFields env m m') (k : String) :
    Option.Rel (Sim env k) (Fields.get m k) (Fields.get m' k) := by
  unfold Fields.get
  induction h with
  | nil => exact .none
  | @cons p p' m m' hp _ ih =>
    obtain ⟨k₀, v⟩ := p
    obtain ⟨k₀', v'⟩ := p'
    obtain ⟨rfl, hv⟩ := hp
    rw [List.lookup_cons, List.lookup_cons]
    by_cases hk : k = k₀
    · subst hk
      simpa using Option.Rel.some hv
    · have : (k == k₀) = false := by simpa using hk
      simpa [this] using ih

theorem SimFields.set (h : SimFields env m m') (hv : Sim env k v v') :
    SimFields env (Fields.set m k v) (Fields.set m' k v') := by
  induction h with
  | nil => exact .cons ⟨rfl, hv⟩ .nil
  | @cons p p' m m' hp hm ih =>
    obtain ⟨k₀, w⟩ := p
    obtain ⟨k₀', w'⟩ := p'
    obtain ⟨rfl, hw⟩ := hp
    simp only [Fields.set]
    split
    · exact .cons ⟨rfl, hv⟩ hm
    · exact .cons ⟨rfl, hw⟩ ih

theorem SimFields.del (h : SimFields env m m') (k : String) : SimFields env (Fields.del m k) (Fields.del m' k) := by
  unfold Fields.del
  induction h with
  | nil => exact .nil
  | @cons p p' m m' hp _ ih =>
    obtain ⟨k₀, w⟩ := p
    obtain ⟨k₀', w'⟩ := p'
    obtain ⟨rfl, hw⟩ := hp
    by_cases hk : k₀ = k
    · rw [List.filter_cons_of_neg (by simpa using hk), List.filter_cons_of_neg (by simpa using hk)]
      exact ih
    · rw [List.filter_cons_of_pos (by simpa using hk), List.filter_cons_of_pos (by simpa using hk)]
      exact .cons ⟨rfl, hw⟩ ih

theorem lookup_cons_ite {α : Type} (k k₀ : String) (a : α) (l : List (String × α)) :
    ((k₀, a) :: l).lookup k = if k = k₀ then some a else l.lookup k := by
  rw [List.lookup_cons]
  by_cases hk : k = k₀
  · simp [hk]
  · have : (k == k₀) = false := by simpa using hk
    simp [this, hk]

theorem Fields.get_cons (k k₀ : String) (v : Val) (m : Fields) :
    Fields.get ((k₀, v) :: m) k = if k = k₀ then some v else Fields.get m k :=
  lookup_cons_ite k k₀ v m

theorem Fields.get_set (m : Fields) (k k' : String) (v : Val) :
    Fields.get (Fields.set m k v) k' = if k' = k then some v else Fields.get m k' := by
  induction m with
  | nil => simp [Fields.set, Fields.get_cons]
  | cons p m ih =>
    obtain ⟨k₀, w⟩ := p
    simp only [Fields.set]
    by_cases hk₀ : k₀ = k
    · subst hk₀
      rw [if_pos rfl, Fields.get_cons, Fields.get_cons]
      by_cases hk : k' = k₀ <;> simp [hk]
    · rw [if_neg hk₀, Fields.get_cons, Fields.get_cons, ih]
      by_cases hk : k' = k₀
      · rw [if_pos hk, if_pos hk, if_neg (by rw [hk]; exact hk₀)]
      · rw [if_neg hk, if_neg hk]

theorem Fields.get_del_ne (m : Fields) {k k' : String} (hk : k' ≠ k) :
    Fields.get (Fields.del m k) k' = Fields.get m k' := by
  unfold Fields.del
  induction m with
  | nil => rfl
  | cons p m ih =>
    obtain ⟨k₀, w⟩ := p
    by_cases hk₀ : k₀ = k
    · rw [List.filter_cons_of_neg (by simpa using hk₀), ih, Fields.get_cons, if_neg (by rw [hk₀]; exact hk)]
    · rw [List.filter_cons_of_pos (by simpa using hk₀), Fields.get_cons, Fields.get_cons, ih]

/-! ## Objects -/

variable (env)

/-- The objects are similar and, if `n` is a number, have it as their schema version. -/
structure Rel (n : Option ℤ) (m m' : Fields) : Prop where
  sim : SimFields env m m'
  version : ∀ i, n = some i → Fields.get m "schema_version" = some (.int i)

/-- The same for objects that may be nil. -/
abbrev ObjRel (n : Option ℤ) : Obj → Obj → Prop := Option.Rel (Rel env n)

variable {env}

/-- An assignment to the key does not change the schema version. -/
def Free (n : Option ℤ) (k : String) : Prop := n = none ∨ k ≠ "schema_version"

instance (n : Option ℤ) (k : String) : Decidable (Free n k) := inferInstanceAs (Decidable (_ ∨ _))

variable {n : Option ℤ} {o o' : Obj}

theorem Rel.of_sim (h : SimFields env m m') : Rel env none m m' := ⟨h, by simp⟩

theorem Rel.set (h : Rel env n m m') (hk : Free n k) (hv : Sim env k v v') :
    Rel env n (Fields.set m k v) (Fields.set m' k v') where
  sim := h.sim.set hv
  version := by
    rintro i rfl
    rw [Fields.get_set, if_neg (hk.resolve_left (by simp)).symm]
    exact h.version i rfl

theorem Rel.del (h : Rel env n m m') (hk : Free n k) : Rel env n (Fields.del m k) (Fields.del m' k) where
  sim := h.sim.del k
  version := by
    rintro i rfl
    rw [Fields.get_del_ne _ (hk.resolve_left (by simp)).symm]
    exact h.version i rfl

theorem Rel.store (h : Rel env n m m') (hk : Free n k) (ho : ObjRel env none o o') :
    Rel env n (store m k o) (store m' k o') := by
  cases ho with
  | none => exact h
  | some ho => exact h.set hk (sim_map_iff.2 ho.sim)

theorem ObjRel.put (h : ObjRel env n o o') (hk : Free n k) (hv : Sim env k v v') :
    Same (ObjRel env n) (put o k v) (put o' k v') := by
  cases h with
  | none => exact Agree.error rfl
  | some h => exact Agree.ok (.some (h.set hk hv))

theorem ObjRel.drop (h : ObjRel env n o o') (hk : Free n k) : ObjRel env n (drop o k) (drop o' k) := by
  cases h with
  | none => exact .none
  | some h => exact .some (h.del hk)

theorem ObjRel.getD (h : ObjRel env n o o') (hm : Rel env n m m') : Rel env n (o.getD m) (o'.getD m') := by
  cases h with
  | none => exact hm
  | some h => exact h

theorem setVersion_rel (i : ℤ) (h : SimFields env m m') : Rel env (some i) (setVersion i m) (setVersion i m') where
  sim := h.set (Sim.refl (by simp [Ok]))
  version := by
    intro j hj
    cases hj
    rw [setVersion, Fields.get_set, if_pos rfl]

/-! ## Typed access -/

/-- No value under the key tells a document from a tree when the type is asked for. -/
def Ty.Reads : Ty → String → Prop
  | .str, k => k ≠ "querylog_interval" ∧ k ≠ "interval" ∧ k ≠ "upstream_mode"
  | .arr, k => k ≠ "safe_fs_patterns"
  | _, _ => True

instance (T : Ty) (k : String) : Decidable (T.Reads k) := by
  cases T <;> unfold Ty.Reads <;> infer_instance

/-- No migration puts a value with a type of its own under the key. -/
def Untyped (k : String) : Prop :=
  k ∉ ["safe_search", "blocked_services", "querylog_interval", "interval", "upstream_mode", "safe_fs_patterns"]

instance (k : String) : Decidable (Untyped k) := inferInstanceAs (Decidable (_ ∉ _))

/-- A value of the type under the first key may be under the second one. -/
def Ty.Moves : Ty → String → String → Prop
  | .any, k, k' => k = k' ∨ Untyped k ∨ (k = "querylog_interval" ∧ k' = "interval")
  | .obj, k, k' => k = k' ∧ (k = "safe_search" ∨ k = "blocked_services")
  | _, _, _ => True

instance (T : Ty) (k k' : String) : Decidable (T.Moves k k') := by
  cases T <;> unfold Ty.Moves <;> infer_instance

/-- The type of the document of a value. -/
def Ty.hasYaml : Ty → Yaml → Bool
  | any, _ => true
  | bool, .bool _ => true
  | int, .int _ => true
  | str, .str _ => true
  | arr, .list _ => true
  | obj, .map _ => true
  | _, _ => false

theorem has_eq_hasYaml (env : Env) {T : Ty} (hk : T.Reads k) (h : Ok k v) : T.has v = T.hasYaml (v.encode env) := by
  cases T <;> cases v <;> simp_all [Ty.has, Ty.hasYaml, Val.encode, Ok, Ty.Reads]

theorem eq_null_iff (env : Env) : v = .null ↔ v.encode env = .null := by
  cases v <;> simp [Val.encode]

theorem has_zero (T : Ty) : T.has T.zero = true := by
  cases T <;> rfl

/-- Values that were found under the key: null on both sides, or similar ones of the type. -/
def Got (env : Env) (T : Ty) (k : String) (v v' : Val) : Prop :=
  (v = T.zero ∧ v' = T.zero) ∨ (Sim env k v v' ∧ T.has v = true ∧ T.has v' = true)

theorem Got.has {T : Ty} (h : Got env T k v v') : T.has v = true ∧ T.has v' = true := by
  obtain ⟨rfl, rfl⟩ | ⟨-, hT⟩ := h
  · exact ⟨has_zero T, has_zero T⟩
  · exact hT

theorem fieldVal_eq {T : Ty} (hv : v ≠ .null) (hget : (o.bind fun m => Fields.get m k) = some v) :
    fieldVal T o k = if T.has v then .ok (some v) else .error (.unexpectedType k v.goType) := by
  unfold fieldVal
  rw [hget]
  cases v <;> first | rfl | exact absurd rfl hv

theorem ObjRel.fieldVal {T : Ty} (h : ObjRel env n o o') (hk : T.Reads k) :
    Same (Option.Rel (Got env T k)) (fieldVal T o k) (fieldVal T o' k) := by
  have hget : Option.Rel (Sim env k) (o.bind fun m => Fields.get m k) (o'.bind fun m => Fields.get m k) := by
    cases h with
    | none => exact .none
    | some h => exact h.sim.get k
  generalize hx : (o.bind fun m => Fields.get m k) = x at hget
  generalize hx' : (o'.bind fun m => Fields.get m k) = x' at hget
  cases hget with
  | none =>
    rw [Configmigrate.fieldVal, hx, Configmigrate.fieldVal, hx']
    exact Agree.ok .none
  | @some v v' hv =>
    by_cases hnull : v = .null
    · have hnull' : v' = .null := (eq_null_iff env).2 (hv.encode ▸ (eq_null_iff env).1 hnull)
      rw [Configmigrate.fieldVal, hx, hnull, Configmigrate.fieldVal, hx', hnull']
      exact Agree.ok (.some (.inl ⟨rfl, rfl⟩))
    · have hnull' : v' ≠ .null := fun h => hnull ((eq_null_iff env).2 (hv.encode ▸ (eq_null_iff env).1 h))
      have hhas : T.has v = T.has v' := by
        rw [has_eq_hasYaml env hk hv.ok, has_eq_hasYaml env hk hv.ok', hv.encode]
      rw [fieldVal_eq hnull hx, fieldVal_eq hnull' hx', ← hhas]
      split
      · rename_i hT
        exact Agree.ok (.some (.inr ⟨hv, hT, hhas ▸ hT⟩))
      · exact Agree.error rfl

theorem ok_of_moves {T : Ty} {k' : String} (hm : T.Moves k k') (hT : T.has v = true) (h : Ok k v) : Ok k' v := by
  cases v with
  | nilMap | dur | mode | strs =>
    cases T <;> simp_all [Ty.has, Ty.Moves, Untyped, Ok]
    all_goals aesop
  | _ => simp_all [Ok]

/-- A value that was found may be put under another key. -/
theorem Got.sim {T : Ty} {k' : String} (h : Got env T k v v') (hm : T.Moves k k') : Sim env k' v v' := by
  obtain ⟨rfl, rfl⟩ | ⟨hv, hT, hT'⟩ := h
  · refine Sim.refl ?_
    cases T with
    | obj =>
      obtain ⟨rfl, hk⟩ := hm
      simpa [Ty.zero, Ok] using hk
    | _ => simp [Ty.zero, Ok]
  · exact ⟨hv.encode, ok_of_moves hm hT hv.ok, ok_of_moves hm hT' hv.ok'⟩

/-- The types whose values are their own documents. -/
def Ty.Plain (T : Ty) : Prop := T = .bool ∨ T = .int ∨ T = .str

theorem Got.eq {T : Ty} (hT : T.Plain) (h : Got env T k v v') : v = v' := by
  obtain ⟨rfl, rfl⟩ | ⟨hv, hv₁, hv₂⟩ := h
  · rfl
  · have he := hv.encode
    obtain rfl | rfl | rfl := hT <;> cases v <;> cases hv₁ <;> cases v' <;> cases hv₂ <;>
      simpa [Val.encode] using he

theorem Got.toList (h : Got env .arr k v v') : SimList env v.toList v'.toList := by
  obtain ⟨rfl, rfl⟩ | ⟨hv, hT, hT'⟩ := h
  · exact .nil
  · rw [simList_iff]
    have he := hv.encode
    have ho := hv.ok
    have ho' := hv.ok'
    cases v <;> cases hT <;> cases v' <;> cases hT' <;>
      simp_all [Val.toList, Val.encode, Ok, encodeList, OkList]

theorem Got.toObj (h : Got env .obj k v v') (hk : Untyped k) : ObjRel env none v.toObj v'.toObj := by
  obtain ⟨rfl, rfl⟩ | ⟨hv, hT, hT'⟩ := h
  · exact .none
  · have ho := hv.ok
    have ho' := hv.ok'
    cases v <;> cases hT
    · cases v' <;> cases hT'
      · exact .some (Rel.of_sim (sim_map_iff.1 hv))
      · simp [Ok, Untyped] at ho' hk
        tauto
    · simp [Ok, Untyped] at ho hk
      tauto

theorem ObjRel.plainVal {T : Ty} (h : ObjRel env n o o') (hT : T.Plain) (hk : T.Reads k) :
    Same Eq (Configmigrate.fieldVal T o k) (Configmigrate.fieldVal T o' k) := by
  obtain ⟨e, e', he, he', hpanics⟩ | ⟨x, x', hx, hx', hxx⟩ := (h.fieldVal hk).cases
  · rw [he, he']
    exact Agree.error hpanics
  · rw [hx, hx']
    cases hxx with
    | none => exact Agree.ok rfl
    | some hgot => exact Agree.ok (congrArg some (hgot.eq hT))

theorem ObjRel.boolVal (h : ObjRel env n o o') (k : String) : Same Eq (boolVal o k) (boolVal o' k) :=
  (h.plainVal (.inl rfl) trivial).map fun _ _ => congrArg _

theorem ObjRel.intVal (h : ObjRel env n o o') (k : String) : Same Eq (intVal o k) (intVal o' k) :=
  (h.plainVal (.inr (.inl rfl)) trivial).map fun _ _ => congrArg _

theorem ObjRel.strVal (h : ObjRel env n o o') (hk : Ty.str.Reads k) : Same Eq (strVal o k) (strVal o' k) :=
  (h.plainVal (.inr (.inr rfl)) hk).map fun _ _ => congrArg _

theorem ObjRel.objVal (h : ObjRel env n o o') (hk : Untyped k) :
    Same (Option.Rel (ObjRel env none)) (objVal o k) (objVal o' k) := by
  refine (h.fieldVal (T := .obj) trivial).map fun _ _ hgot => ?_
  cases hgot with
  | none => exact .none
  | some hgot => exact .some (hgot.toObj hk)

theorem ObjRel.flag (h : ObjRel env n o o') (k : String) : flag o k = flag o' k := by
  unfold Configmigrate.flag
  obtain ⟨e, e', he, he', -⟩ | ⟨b, b', hb, hb', rfl⟩ := (h.boolVal k).cases
  · rw [he, he']
  · rw [hb, hb']

/-! ## Moves -/

variable (env)

/-- An object and the fields that were moved out of it. -/
def PairRel (n : Option ℤ) (p p' : Obj × Fields) : Prop := ObjRel env n p.1 p'.1 ∧ SimFields env p.2 p'.2

variable {env} {T : Ty} {k' : String} {d d' : Fields}

theorem ObjRel.moveVal (h : ObjRel env n o o') (hd : SimFields env d d') (hk : Free n k) (hr : T.Reads k)
    (hm : T.Moves k k') : Same (PairRel env n) (moveVal T o d k k') (moveVal T o' d' k k') := by
  refine (h.fieldVal hr).bindOption (Agree.ok ⟨h, hd⟩) fun v v' hv => ?_
  exact Agree.ok ⟨h.drop hk, hd.set (hv.sim hm)⟩

theorem ObjRel.renameVal (h : ObjRel env n o o') (hk : Free n k) (hk' : Free n k') (hr : T.Reads k)
    (hm : T.Moves k k') : Same (ObjRel env n) (renameVal T o k k') (renameVal T o' k k') := by
  refine (h.fieldVal hr).bindOption (Agree.ok h) fun v v' hv => ?_
  exact (h.put hk' (hv.sim hm)).bind fun o o' ho => Agree.ok (ho.drop hk)

/-- A move that does not tell similar objects apart. -/
def Move.Fits (mv : Move) : Prop :=
  mv.srcKey ≠ "schema_version" ∧ mv.ty.Reads mv.srcKey ∧ mv.ty.Moves mv.srcKey mv.dstKey

instance (mv : Move) : Decidable mv.Fits := inferInstanceAs (Decidable (_ ∧ _ ∧ _))

theorem ObjRel.moveAll {mvs : List Move} (hmvs : ∀ mv ∈ mvs, mv.Fits) (h : ObjRel env n o o')
    (hd : SimFields env d d') : Same (PairRel env n) (moveAll mvs o d) (moveAll mvs o' d') := by
  induction mvs generalizing o o' d d' with
  | nil => exact Agree.ok ⟨h, hd⟩
  | cons mv mvs ih =>
    obtain ⟨hk, hr, hm⟩ := hmvs mv (by simp)
    have hmv := h.moveVal hd (.inr hk) hr hm
    unfold Configmigrate.moveAll
    obtain ⟨e, e', he, he', -⟩ | ⟨p, p', hp, hp', hpp⟩ := hmv.cases
    · -- the joined errors may differ, but both sides fail
      rw [he, he']
      dsimp only
      split <;> split <;> exact Agree.error rfl
    · rw [hp, hp']
      exact ih (fun mv hmv => hmvs mv (by simp [hmv])) hpp.1 hpp.2

/-! ## Changes in place -/

theorem Rel.onObj {f : Obj → Except Err Obj} (h : Rel env n m m') (hk : Free n k) (hu : Untyped k)
    (hf : ∀ o o', ObjRel env none o o' → Same (ObjRel env none) (f o) (f o')) :
    Same (Rel env n) (onObj k f m) (onObj k f m') := by
  refine (ObjRel.objVal (.some h) hu).bindOption (Agree.ok h) fun o o' ho => ?_
  exact (hf _ _ ho).bind fun o o' ho => Agree.ok (h.store hk ho)

theorem Rel.onDoc {f : Obj → Except Err Obj} (h : Rel env n m m')
    (hf : ∀ o o', ObjRel env n o o' → Same (ObjRel env n) (f o) (f o')) :
    Same (Rel env n) (onDoc f m) (onDoc f m') := by
  refine (hf _ _ (.some h)).bind fun o o' ho => ?_
  exact Agree.ok (ObjRel.getD ho h)

theorem Got.onElems {f : ℕ → Val → Except Err Val} (h : Got env .arr k v v')
    (hf : ∀ i w w', Sim env "" w w' → Same (Sim env "") (f i w) (f i w')) :
    Same (Sim env k') (onElems f v) (onElems f v') := by
  have hl := h.toList
  obtain ⟨hT, hT'⟩ := h.has
  cases v <;> cases hT <;> cases v' <;> cases hT'
  · exact (Agree.mapIdxM hf hl 0).bind fun w w' hw => Agree.ok (sim_list_iff.2 hw)
  -- a list without elements may be nil on one side only
  · cases hl
    exact Agree.ok ⟨rfl, trivial, trivial⟩
  · cases hl
    exact Agree.ok ⟨rfl, trivial, trivial⟩
  · exact Agree.ok (Sim.refl trivial)

theorem Got.elems {x x' : Option Val} (h : Option.Rel (Got env .arr k) x x') : SimList env (elems x) (elems x') := by
  cases h with
  | none => exact .nil
  | some h => exact h.toList

theorem ObjRel.onArrElems {f : ℕ → Val → Except Err Val} {l l' : List Val} (h : ObjRel env n o o') (hk : Free n k)
    (hl : SimList env l l') (hf : ∀ i w w', Sim env "" w w' → Same (Sim env "") (f i w) (f i w')) :
    Same (ObjRel env n) (onArrElems k f o l) (onArrElems k f o' l') := by
  cases hl with
  | nil => exact Agree.ok h
  | cons hv hl =>
    refine (Agree.mapIdxM hf (.cons hv hl) 0).bind fun w w' hw => ?_
    exact h.put hk (sim_list_iff.2 hw)

theorem ObjRel.onArr {f : ℕ → Val → Except Err Val} (h : ObjRel env n o o') (hk : Free n k) (hr : Ty.arr.Reads k)
    (hf : ∀ i w w', Sim env "" w w' → Same (Sim env "") (f i w) (f i w')) :
    Same (ObjRel env n) (onArr k f o) (onArr k f o') :=
  (h.fieldVal hr).bind fun _ _ hx => h.onArrElems hk (Got.elems hx) hf

theorem ObjRel.onArrAnyway {f : ℕ → Val → Except Err Val} (h : ObjRel env n o o') (hk : Free n k)
    (hr : Ty.arr.Reads k) (hf : ∀ i w w', Sim env "" w w' → Same (Sim env "") (f i w) (f i w')) :
    Same (ObjRel env n) (onArrAnyway k f o) (onArrAnyway k f o') := by
  unfold Configmigrate.onArrAnyway
  obtain ⟨e, e', he, he', -⟩ | ⟨x, x', hx, hx', hxx⟩ := (h.fieldVal hr).cases
  · rw [he, he']
    exact Agree.ok h
  · rw [hx, hx']
    exact h.onArrElems hk (Got.elems hxx) hf

/-- An element is an object on both sides, or on none. -/
theorem Sim.assertObj (h : Sim env "" v v') : Option.Rel (ObjRel env none) v.assertObj v'.assertObj := by
  have he := h.encode
  have ho := h.ok
  have ho' := h.ok'
  cases v with
  | map m =>
    cases v' with
    | map m' => exact .some (.some (Rel.of_sim (sim_map_iff.1 h)))
    | nilMap => simp [Ok] at ho'
    | _ => simp [Val.encode] at he
  | nilMap => simp [Ok] at ho
  | _ =>
    cases v' with
    | map m' => simp [Val.encode] at he
    | nilMap => simp [Ok] at ho'
    | _ => exact .none

theorem Sim.onElemObj {f : Obj → Except Err Obj} {other : Val → Except Err Val} (h : Sim env "" v v')
    (hf : ∀ o o', ObjRel env none o o' → Same (ObjRel env none) (f o) (f o'))
    (hother : Same (Sim env "") (other v) (other v')) :
    Same (Sim env "") (onElemObj f other v) (onElemObj f other v') := by
  unfold Configmigrate.onElemObj
  have hobj := h.assertObj
  generalize v.assertObj = x at hobj
  generalize v'.assertObj = x' at hobj
  cases hobj with
  | none => exact hother
  | some ho =>
    refine (hf _ _ ho).bind fun o o' ho => Agree.ok ?_
    cases ho with
    | none => exact h
    | some ho => exact sim_map_iff.2 ho.sim

end AdGuardHome.Configmigrate
