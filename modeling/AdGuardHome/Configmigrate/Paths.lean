import AdGuardHome.Configmigrate.PathIndependence

/-!
# Values at a path

What is at a path of a tree, and changes of a tree that keep it.  `Frames N v v'` says that everything in `v` is in
`v'` at the same path, but for the paths that `N` names.
-/

namespace AdGuardHome.Configmigrate

open AdGuardHome.Lib

/-! ## Paths -/

/-- A step into a value: a key of an object, or an index of a list. -/
inductive Seg
  | key (k : String)
  | idx (i : ℕ)

instance : Coe String Seg := ⟨.key⟩

abbrev Path := List Seg

/-- The value one step into a value. -/
def Val.child : Val → Seg → Option Val
  | .map m, .key k => Fields.get m k
  | .list l, .idx i => l[i]?
  | _, _ => none

/-- The value at a path. -/
def Val.walk (v : Val) : Path → Option Val
  | [] => some v
  | s :: p => (v.child s).bind fun w => w.walk p

/-- The value at a path of a document. -/
abbrev Fields.walk (m : Fields) (p : Path) : Option Val := (Val.map m).walk p

/-- The documents one step into a document. -/
def Yaml.child : Yaml → Seg → Option Yaml
  | .map m, .key k => m.lookup k
  | .list l, .idx i => l[i]?
  | _, _ => none

/-- The document at a path. -/
def Yaml.walk (y : Yaml) : Path → Option Yaml
  | [] => some y
  | s :: p => (y.child s).bind fun z => z.walk p

variable {v v' w : Val} {m m' : Fields} {k k' : String} {p q : Path} {i : ℤ}

theorem walk_append (v : Val) (p q : Path) : v.walk (p ++ q) = (v.walk p).bind fun w => w.walk q := by
  induction p generalizing v with
  | nil => rfl
  | cons s p ih =>
    rw [List.cons_append, Val.walk, Val.walk]
    cases v.child s with
    | none => rfl
    | some w => exact ih w

theorem walk_of_get (h : Fields.get m k = some v) : Fields.walk m (.key k :: p) = v.walk p := by
  rw [Fields.walk, Val.walk, Val.child, h]
  rfl

/-- What is under a key of a section is in an object. -/
theorem walk_section (h : Fields.walk m (.key k :: .key k' :: p) = some v) :
    ∃ o, Fields.get m k = some (.map o) ∧ Fields.walk o (.key k' :: p) = some v := by
  rw [Fields.walk, Val.walk, Val.child, Option.bind_eq_some_iff] at h
  obtain ⟨w, hw, h⟩ := h
  cases w with
  | map o => exact ⟨o, hw, h⟩
  | _ => cases h

/-- What is under an index is in a list. -/
theorem walk_index {j : ℕ} (h : Fields.walk m (.key k :: .idx j :: p) = some v) :
    ∃ l a, Fields.get m k = some (.list l) ∧ l[j]? = some a ∧ a.walk p = some v := by
  rw [Fields.walk, Val.walk, Val.child, Option.bind_eq_some_iff] at h
  obtain ⟨w, hw, h⟩ := h
  cases w with
  | list l =>
    rw [Val.walk, Val.child, Option.bind_eq_some_iff] at h
    obtain ⟨a, ha, h⟩ := h
    exact ⟨l, a, hw, ha, h⟩
  | _ => cases h

theorem walk_element {j : ℕ} (h : Fields.walk m (.key k :: .idx j :: .key k' :: p) = some v) :
    ∃ l o, Fields.get m k = some (.list l) ∧ l[j]? = some (.map o) ∧ Fields.walk o (.key k' :: p) = some v := by
  obtain ⟨l, a, hl, ha, h⟩ := walk_index h
  cases a with
  | map o => exact ⟨l, o, hl, ha, h⟩
  | _ => cases h

theorem walk_one : Fields.walk m [.key k] = Fields.get m k := by
  rw [Fields.walk, Val.walk, Val.child]
  cases Fields.get m k <;> rfl

theorem walk_two (h : Fields.walk m [.key k, .key k'] = some v) :
    ∃ o, Fields.get m k = some (.map o) ∧ Fields.get o k' = some v := by
  obtain ⟨o, ho, h⟩ := walk_section h
  exact ⟨o, ho, walk_one.symm.trans h⟩

theorem walk_pair {o : Fields} (h : Fields.get m k = some (.map o)) :
    Fields.walk m [.key k, .key k'] = Fields.get o k' := by
  rw [walk_of_get h]
  exact walk_one

/-- A key of the object at a path. -/
theorem walk_key {o : Fields} (h : Fields.walk m p = some (.map o)) :
    Fields.walk m (p ++ [.key k]) = Fields.get o k := by
  rw [Fields.walk] at h ⊢
  rw [walk_append, h]
  exact walk_one

theorem get_set_self (m : Fields) (k : String) (v : Val) : Fields.get (Fields.set m k v) k = some v := by
  rw [Fields.get_set, if_pos rfl]

theorem get_set_ne (v : Val) (h : k' ≠ k) : Fields.get (Fields.set m k v) k' = Fields.get m k' := by
  rw [Fields.get_set, if_neg h]

theorem walk_set_self (m : Fields) (k : String) (v : Val) :
    Fields.walk (Fields.set m k v) (.key k :: p) = v.walk p :=
  walk_of_get (get_set_self m k v)

theorem walk_congr (h : Fields.get m' k = Fields.get m k) :
    Fields.walk m' (.key k :: p) = Fields.walk m (.key k :: p) := by
  rw [Fields.walk, Val.walk, Val.child, h]
  rfl

theorem walk_set_ne (v : Val) (h : k' ≠ k) :
    Fields.walk (Fields.set m k v) (.key k' :: p) = Fields.walk m (.key k' :: p) :=
  walk_congr (get_set_ne v h)

theorem walk_del_ne (h : k' ≠ k) :
    Fields.walk (Fields.del m k) (.key k' :: p) = Fields.walk m (.key k' :: p) :=
  walk_congr (Fields.get_del_ne m h)

theorem get_setVersion (hk : k ≠ "schema_version") : Fields.get (setVersion i m) k = Fields.get m k :=
  get_set_ne _ hk

theorem walk_setVersion (hk : k ≠ "schema_version") :
    Fields.walk (setVersion i m) (.key k :: p) = Fields.walk m (.key k :: p) := walk_set_ne _ hk

/-! ## Kept values -/

/-- A value is kept if it is the same, or if it is still an object, or a list of the same length: what these hold is
kept or not on its own. -/
inductive Kept : Val → Val → Prop
  | same (v : Val) : Kept v v
  | map (m m' : Fields) : Kept (.map m) (.map m')
  | list (l l' : List Val) : l'.length = l.length → Kept (.list l) (.list l')

theorem Kept.trans (h : Kept v v') (h' : Kept v' w) : Kept v w := by
  cases h with
  | same => exact h'
  | map m m' =>
    cases h' with
    | same => exact .map m m'
    | map _ m'' => exact .map m m''
  | list l l' hlen =>
    cases h' with
    | same => exact .list l l' hlen
    | list _ l'' hlen' => exact .list l l'' (hlen'.trans hlen)

/-- Everything in the first value is in the second one at the same path, but for the paths that `N` names. -/
def Frames (N : Path → Prop) (v v' : Val) : Prop :=
  ∀ p w, v.walk p = some w → ¬ N p → ∃ w', v'.walk p = some w' ∧ Kept w w'

variable {N : Path → Prop}

theorem Frames.refl (N : Path → Prop) (v : Val) : Frames N v v := fun _ w hw _ => ⟨w, hw, .same w⟩

theorem Frames.trans (h : Frames N v v') (h' : Frames N v' w) : Frames N v w := by
  intro p x hx hN
  obtain ⟨x', hx', hk⟩ := h p x hx hN
  obtain ⟨x'', hx'', hk'⟩ := h' p x' hx' hN
  exact ⟨x'', hx'', hk.trans hk'⟩

/-- A change under a name. -/
theorem Frames.of_named (h : ∀ p, N p) : Frames N v v' := fun p _ _ hN => absurd (h p) hN

/-- A change is framed if it is framed one step into the value. -/
theorem Frames.of_child (hroot : N [] ∨ Kept v v')
    (hchild : ∀ s w, v.child s = some w → (∀ p, N (s :: p)) ∨
      ∃ w', v'.child s = some w' ∧ Frames (fun p => N (s :: p)) w w') : Frames N v v' := by
  rintro (_ | ⟨s, p⟩) x hx hN
  · cases hx
    exact ⟨v', rfl, hroot.resolve_left hN⟩
  · rw [Val.walk, Option.bind_eq_some_iff] at hx
    obtain ⟨w, hw, hx⟩ := hx
    rcases hchild s w hw with hs | ⟨w', hw', hframes⟩
    · exact absurd (hs p) hN
    · obtain ⟨x', hx', hk⟩ := hframes p x hx hN
      refine ⟨x', ?_, hk⟩
      rw [Val.walk, hw']
      exact hx'

/-- A value that holds nothing may become any value if it is named, and any object if it is an object. -/
theorem Frames.of_hollow (hroot : N [] ∨ Kept v v') (h : ∀ s, v.child s = none) : Frames N v v' :=
  .of_child hroot fun s w hw => by rw [h s] at hw; cases hw

/-- A change of an object is framed if it is framed under each key. -/
theorem Frames.of_get (h : ∀ k w, Fields.get m k = some w → (∀ p, N (.key k :: p)) ∨
    ∃ w', Fields.get m' k = some w' ∧ Frames (fun p => N (.key k :: p)) w w') : Frames N (.map m) (.map m') := by
  refine .of_child (.inr (.map _ _)) fun s w hw => ?_
  cases s with
  | idx => cases hw
  | key k => exact h k w hw

theorem Frames.set (h : ∀ w, Fields.get m k = some w → Frames (fun p => N (.key k :: p)) w v) :
    Frames N (.map m) (.map (Fields.set m k v)) := by
  refine .of_get fun k' w hw => .inr ?_
  by_cases hk : k' = k
  · subst hk
    exact ⟨v, get_set_self m k' v, h w hw⟩
  · exact ⟨w, (get_set_ne v hk).trans hw, .refl _ _⟩

/-- A key that is not there may be set. -/
theorem Frames.set_new (h : Fields.get m k = none) : Frames N (.map m) (.map (Fields.set m k v)) :=
  .set fun w hw => by rw [h] at hw; cases hw

/-- A key that is named may be set. -/
theorem Frames.set_named (h : ∀ p, N (.key k :: p)) : Frames N (.map m) (.map (Fields.set m k v)) :=
  .set fun _ _ => .of_named h

/-- An empty object may become any object. -/
theorem frames_empty : Frames N (.map []) (.map m') := by
  refine .of_hollow (.inr (.map _ _)) fun s => ?_
  cases s <;> rfl

theorem Frames.set_empty (h : ∀ w, Fields.get m k = some w → w = .map []) :
    Frames N (.map m) (.map (Fields.set m k (.map m'))) := by
  refine .set fun w hw => ?_
  rw [h w hw]
  exact frames_empty

theorem Frames.del (h : ∀ p, N (.key k :: p)) : Frames N (.map m) (.map (Fields.del m k)) := by
  refine .of_get fun k' w hw => ?_
  by_cases hk : k' = k
  · subst hk
    exact .inl h
  · exact .inr ⟨w, (Fields.get_del_ne m hk).trans hw, .refl _ _⟩

theorem Frames.list {l l' : List Val} (hlen : l'.length = l.length)
    (h : ∀ j a, l[j]? = some a → ∃ b, l'[j]? = some b ∧ Frames (fun p => N (.idx j :: p)) a b) :
    Frames N (.list l) (.list l') := by
  refine .of_child (.inr (.list _ _ hlen)) fun s w hw => ?_
  cases s with
  | key => cases hw
  | idx j => exact .inr (h j w hw)

theorem frames_setVersion (h : ∀ p, N (.key "schema_version" :: p)) :
    Frames N (.map m) (.map (setVersion i m)) := .set_named h

end AdGuardHome.Configmigrate
