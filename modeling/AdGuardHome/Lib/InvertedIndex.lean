import AdGuardHome.Lib.GoMap

/-!
# Inverted indexes

A table maps owners `U` to values `C`, each value carrying a list of identifiers `ids c`.  A map from
identifiers to owners *inverts* the table when an identifier is mapped to an owner exactly if the
owner's value carries it.  Adding a value none of whose identifiers is taken and removing a value
keep the relation, and an inverted index has no identifier in two values.
-/

namespace AdGuardHome.Lib

variable {I U C : Type} [DecidableEq I] [DecidableEq U]

/-- `m` maps an identifier to an owner exactly if the value of that owner carries the identifier. -/
def Inverts (m : GoMap I U) (table : GoMap U C) (ids : C → List I) : Prop :=
  ∀ i u, m.get i = some u ↔ ∃ c, table.get u = some c ∧ i ∈ ids c

variable {m : GoMap I U} {table : GoMap U C} {ids : C → List I}

theorem inverts_empty : Inverts (GoMap.empty : GoMap I U) (GoMap.empty : GoMap U C) ids := by
  intro i u
  simp

theorem Inverts.congr {m' : GoMap I U} (h : Inverts m table ids) (hm : ∀ i, m'.get i = m.get i) :
    Inverts m' table ids := fun i u => by rw [hm, h i u]

/-- No identifier belongs to two values. -/
theorem Inverts.owner_unique (h : Inverts m table ids) {i : I} {u₁ u₂ : U} {c₁ c₂ : C}
    (h₁ : table.get u₁ = some c₁) (h₂ : table.get u₂ = some c₂) (hi₁ : i ∈ ids c₁) (hi₂ : i ∈ ids c₂) :
    u₁ = u₂ := by
  have e₁ := (h i u₁).2 ⟨c₁, h₁, hi₁⟩
  have e₂ := (h i u₂).2 ⟨c₂, h₂, hi₂⟩
  exact Option.some.inj (e₁.symm.trans e₂)

/-- Adding a value under a free owner, all of its identifiers being free. -/
theorem Inverts.add (h : Inverts m table ids) {u : U} {c : C} (hu : table.get u = none)
    (hfree : ∀ i ∈ ids c, m.get i = none) :
    Inverts (m.setAll (ids c) u) (table.set u c) ids := by
  intro i w
  rw [GoMap.get_setAll]
  by_cases hi : i ∈ ids c
  · simp only [hi, if_true, Option.some.injEq]
    constructor
    · rintro rfl
      exact ⟨c, by simp, hi⟩
    · rintro ⟨d, hd, hid⟩
      by_contra hne
      rw [GoMap.get_set_ne _ (Ne.symm hne)] at hd
      have := (h i w).2 ⟨d, hd, hid⟩
      rw [hfree i hi] at this
      cases this
  · simp only [hi, if_false]
    rw [h i w]
    constructor
    · rintro ⟨d, hd, hid⟩
      have hne : w ≠ u := by rintro rfl; rw [hu] at hd; cases hd
      exact ⟨d, by rw [GoMap.get_set_ne _ hne]; exact hd, hid⟩
    · rintro ⟨d, hd, hid⟩
      by_cases hwu : w = u
      · subst hwu
        rw [GoMap.get_set_self, Option.some.injEq] at hd
        subst hd
        exact absurd hid hi
      · rw [GoMap.get_set_ne _ hwu] at hd
        exact ⟨d, hd, hid⟩

/-- Removing a value together with its identifiers. -/
theorem Inverts.remove (h : Inverts m table ids) {u : U} {c : C} (hu : table.get u = some c) :
    Inverts (m.delAll (ids c)) (table.del u) ids := by
  intro i w
  rw [GoMap.get_delAll]
  by_cases hi : i ∈ ids c
  · simp only [hi, if_true, reduceCtorEq, false_iff]
    rintro ⟨d, hd, hid⟩
    by_cases hwu : w = u
    · subst hwu; simp at hd
    · rw [GoMap.get_del_ne _ hwu] at hd
      exact hwu (h.owner_unique hd hu hid hi)
  · simp only [hi, if_false]
    rw [h i w]
    constructor
    · rintro ⟨d, hd, hid⟩
      have hwu : w ≠ u := by
        rintro rfl
        rw [hu, Option.some.injEq] at hd
        subst hd
        exact hi hid
      exact ⟨d, by rw [GoMap.get_del_ne _ hwu]; exact hd, hid⟩
    · rintro ⟨d, hd, hid⟩
      have hwu : w ≠ u := by rintro rfl; simp at hd
      rw [GoMap.get_del_ne _ hwu] at hd
      exact ⟨d, hd, hid⟩

/-- An identifier that is free or belongs to the value being removed is free afterwards. -/
theorem Inverts.free_after_remove (h : Inverts m table ids) {u : U} {c : C} (hu : table.get u = some c)
    {i : I} (hi : ∀ w, m.get i = some w → w = u) : (m.delAll (ids c)).get i = none := by
  rw [GoMap.get_delAll]
  by_cases hic : i ∈ ids c
  · simp [hic]
  · simp only [hic, if_false]
    cases hw : m.get i with
    | none => rfl
    | some w =>
      obtain rfl := hi w hw
      obtain ⟨d, hd, hid⟩ := (h i w).1 hw
      rw [hu, Option.some.injEq] at hd
      subst hd
      exact absurd hid hic

end AdGuardHome.Lib
