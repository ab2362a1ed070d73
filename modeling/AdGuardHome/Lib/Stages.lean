import Mathlib.Data.List.Forall2

/-!
# Runs of stages

A run passes a state through a list of stages.  A stage returns the state and a code, and `ends` says whether the code
ends the run and with which outcome.  `Leads` and `Ends` are the pre- and postconditions of one stage and of a list of
them, `LeadsBoth` and `EndsBoth` those of the runs from two states, and `outcome` is what stages end with whose codes are
known.
-/

namespace AdGuardHome.Lib.Stages

variable {σ κ ω : Type} (ends : σ → κ → Option ω) (last : σ → σ × ω)

/-- The run of the stages from a state, with `last` after all of them. -/
def run : List (σ → σ × κ) → σ → σ × ω
  | [], x => last x
  | f :: fs, x =>
    match ends (f x).1 (f x).2 with
    | none => run fs (f x).1
    | some o => ((f x).1, o)

/-- The result of a stage goes on with `Q` or ends the run with `R`. -/
def Post (Q : σ → Prop) (R : σ → ω → Prop) (res : σ × κ) : Prop :=
  match ends res.1 res.2 with
  | none => Q res.1
  | some o => R res.1 o

/-- From a state with `P` the stage goes on with `Q` or ends the run with `R`. -/
def Leads (f : σ → σ × κ) (P Q : σ → Prop) (R : σ → ω → Prop) : Prop := ∀ x, P x → Post ends Q R (f x)

/-- From a state with `P` the run ends with `R`. -/
def Ends (fs : List (σ → σ × κ)) (P : σ → Prop) (R : σ → ω → Prop) : Prop :=
  ∀ x, P x → R (run ends last fs x).1 (run ends last fs x).2

variable {ends last} {f : σ → σ × κ} {fs : List (σ → σ × κ)} {P Q : σ → Prop} {R : σ → ω → Prop}

theorem run_cons_next {x : σ} (h : ends (f x).1 (f x).2 = none) :
    run ends last (f :: fs) x = run ends last fs (f x).1 := by
  rw [run, h]

theorem run_cons_stop {x : σ} {o : ω} (h : ends (f x).1 (f x).2 = some o) :
    run ends last (f :: fs) x = ((f x).1, o) := by
  rw [run, h]

theorem Post.of_forall {res : σ × κ} (hQ : Q res.1) (hR : ∀ o, R res.1 o) : Post ends Q R res := by
  unfold Post
  split
  · exact hQ
  · exact hR _

theorem Ends.nil (h : ∀ x, P x → R (last x).1 (last x).2) : Ends ends last [] P R := h

theorem Ends.cons (hf : Leads ends f P Q R) (hfs : Ends ends last fs Q R) : Ends ends last (f :: fs) P R := by
  intro x hx
  have h := hf x hx
  unfold Post at h
  cases hend : ends (f x).1 (f x).2 with
  | none =>
    rw [hend] at h
    rw [run_cons_next hend]
    exact hfs _ h
  | some o =>
    rw [hend] at h
    rw [run_cons_stop hend]
    exact h

/-! ## Stages with known codes -/

/-- The outcome of stages that end with the codes. -/
def outcome (ends : κ → Option ω) (o : ω) (codes : List κ) : ω := (codes.findSome? ends).getD o

/-- If every stage has its code in all states with `I` and keeps `I`, the codes give the outcome of a run. -/
theorem run_eq_outcome {ends' : κ → Option ω} {o : ω} {I : σ → Prop} {codes : List κ}
    (hends : ∀ x k, ends x k = ends' k) (hlast : ∀ x, last x = (x, o))
    (hfs : List.Forall₂ (fun f k => ∀ x, I x → I (f x).1 ∧ (f x).2 = k) fs codes) {x : σ} (hx : I x) :
    I (run ends last fs x).1 ∧ (run ends last fs x).2 = outcome ends' o codes := by
  induction hfs generalizing x with
  | nil =>
    rw [run, hlast]
    exact ⟨hx, rfl⟩
  | @cons f k fs ks hf _ ih =>
    obtain ⟨hkeep, hcode⟩ := hf x hx
    unfold outcome
    cases hend : ends' k with
    | none =>
      rw [run_cons_next (by rw [hends, hcode, hend]), List.findSome?_cons_of_isNone (by rw [hend]; rfl)]
      exact ih hkeep
    | some o' =>
      rw [run_cons_stop (by rw [hends, hcode, hend]), List.findSome?_cons_of_isSome (by rw [hend]; rfl), hend]
      exact ⟨hkeep, rfl⟩

/-- Stages that take related states to related ones, with the same codes, have such runs. -/
theorem run_related {S : σ → σ → Prop} {gs : List (σ → σ × κ)}
    (hfs : List.Forall₂ (fun f g => ∀ x y, S x y → S (f x).1 (g y).1 ∧ (f x).2 = (g y).2) fs gs)
    (hends : ∀ x y k, S x y → ends x k = ends y k)
    (hlast : ∀ x y, S x y → S (last x).1 (last y).1 ∧ (last x).2 = (last y).2) {x y : σ} (hxy : S x y) :
    S (run ends last fs x).1 (run ends last gs y).1 ∧ (run ends last fs x).2 = (run ends last gs y).2 := by
  induction hfs generalizing x y with
  | nil => exact hlast x y hxy
  | @cons f g fs gs hf _ ih =>
    obtain ⟨hstep, hcode⟩ := hf x y hxy
    have hsame : ends (f x).1 (f x).2 = ends (g y).1 (g y).2 := hcode ▸ hends _ _ _ hstep
    cases hend : ends (f x).1 (f x).2 with
    | none =>
      rw [run_cons_next hend, run_cons_next (hsame ▸ hend)]
      exact ih hstep
    | some o =>
      rw [run_cons_stop hend, run_cons_stop (hsame ▸ hend)]
      exact ⟨hstep, rfl⟩

/-! ## Runs from two states -/

section Both

variable (ends last) in
/-- The two results of a stage go on with `Q` or end the runs with `R`. -/
def PostBoth (Q : σ → σ → Prop) (R : σ × ω → σ × ω → Prop) (a b : σ × κ) : Prop :=
  match ends a.1 a.2, ends b.1 b.2 with
  | none, none => Q a.1 b.1
  | some o, some o' => R (a.1, o) (b.1, o')
  | _, _ => False

variable (ends) in
/-- From two states with `P` the stage goes on with `Q` or ends the runs with `R`. -/
def LeadsBoth (f : σ → σ × κ) (P Q : σ → σ → Prop) (R : σ × ω → σ × ω → Prop) : Prop :=
  ∀ x y, P x y → PostBoth ends Q R (f x) (f y)

variable (ends last) in
/-- From two states with `P` the runs end with `R`. -/
def EndsBoth (fs : List (σ → σ × κ)) (P : σ → σ → Prop) (R : σ × ω → σ × ω → Prop) : Prop :=
  ∀ x y, P x y → R (run ends last fs x) (run ends last fs y)

variable {P Q : σ → σ → Prop} {R : σ × ω → σ × ω → Prop}

theorem EndsBoth.cons (hf : LeadsBoth ends f P Q R) (hfs : EndsBoth ends last fs Q R) :
    EndsBoth ends last (f :: fs) P R := by
  intro x y hxy
  have h := hf x y hxy
  unfold PostBoth at h
  cases hx : ends (f x).1 (f x).2 with
  | none =>
    cases hy : ends (f y).1 (f y).2 with
    | none =>
      rw [hx, hy] at h
      rw [run_cons_next hx, run_cons_next hy]
      exact hfs _ _ h
    | some o =>
      rw [hx, hy] at h
      exact h.elim
  | some o =>
    cases hy : ends (f y).1 (f y).2 with
    | none =>
      rw [hx, hy] at h
      exact h.elim
    | some o' =>
      rw [hx, hy] at h
      rw [run_cons_stop hx, run_cons_stop hy]
      exact h

theorem EndsBoth.of_forall (hfs : ∀ f ∈ fs, LeadsBoth ends f P P R) (hlast : ∀ x y, P x y → R (last x) (last y)) :
    EndsBoth ends last fs P R := by
  induction fs with
  | nil => exact hlast
  | cons f fs ih => exact .cons (hfs f List.mem_cons_self) (ih fun g hg => hfs g (List.mem_cons_of_mem _ hg))

end Both

end AdGuardHome.Lib.Stages
