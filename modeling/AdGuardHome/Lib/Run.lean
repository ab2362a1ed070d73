import Mathlib.Data.List.Basic

/-!
# Runs of a transition function

`run step s ops` is the state after the operations `ops` from `s`.  `Meets step ok s ops` says that
every operation of the run meets `ok` in the state it is applied to, `Along step P s ops` that every
state of the run meets `P`.  An invariant that every step keeps holds after every run
(`run_invariant`); one that only the steps meeting `ok` keep holds after every run that meets `ok`
(`run_invariant_of_meets`), one about the operations already done after the whole list
(`run_invariant_of_done`).  Where a step that does not meet `ok` makes `P` false, the runs along
which `P` holds are those that meet `ok` (`along_iff_meets`), and conditions that agree under an
invariant are met by the same runs (`meets_iff_meets`).
-/

namespace AdGuardHome.Lib

variable {S O : Type} (step : S → O → S)

/-- The state after the operations, applied from left to right. -/
def run (s : S) (ops : List O) : S := ops.foldl step s

/-- Every operation of the run meets `ok` in the state before it. -/
def Meets (ok : S → O → Prop) : S → List O → Prop
  | _, [] => True
  | s, o :: os => ok s o ∧ Meets ok (step s o) os

/-- Every state of the run meets `P`, the first and the last one included. -/
def Along (P : S → Prop) : S → List O → Prop
  | s, [] => P s
  | s, o :: os => P s ∧ Along P (step s o) os

instance Meets.decidable {ok : S → O → Prop} [∀ s o, Decidable (ok s o)] :
    ∀ (s : S) (ops : List O), Decidable (Meets step ok s ops)
  | _, [] => inferInstanceAs (Decidable True)
  | s, o :: os => @instDecidableAnd _ _ _ (Meets.decidable (step s o) os)

variable {step}

theorem run_invariant {I : S → Prop} (hstep : ∀ s o, I s → I (step s o)) {s : S} (h : I s)
    (ops : List O) : I (run step s ops) := by
  induction ops generalizing s with
  | nil => exact h
  | cons o os ih => exact ih (hstep s o h)

theorem run_invariant_of_meets {I : S → Prop} {ok : S → O → Prop}
    (hstep : ∀ s o, I s → ok s o → I (step s o)) {s : S} (h : I s) {ops : List O}
    (hops : Meets step ok s ops) : I (run step s ops) := by
  induction ops generalizing s with
  | nil => exact h
  | cons o os ih =>
    obtain ⟨ho, hos⟩ := hops
    exact ih (hstep s o h ho) hos

theorem run_append (s : S) (as bs : List O) : run step s (as ++ bs) = run step (run step s as) bs := List.foldl_append

theorem meets_append_iff {ok : S → O → Prop} (s : S) (as bs : List O) :
    Meets step ok s (as ++ bs) ↔ Meets step ok s as ∧ Meets step ok (run step s as) bs := by
  induction as generalizing s with
  | nil => exact ⟨fun h => ⟨trivial, h⟩, And.right⟩
  | cons a as ih =>
    rw [List.cons_append, Meets, Meets, ih, and_assoc]
    rfl

/-- An invariant that speaks of the operations already done. -/
theorem run_invariant_of_done {I : List O → S → Prop} {ops : List O}
    (hstep : ∀ done ⊆ ops, ∀ o ∈ ops, ∀ s, I done s → I (done ++ [o]) (step s o)) {s : S} (h : I [] s) :
    I ops (run step s ops) := by
  have hrun : ∀ (rest done : List O) (s : S), done ++ rest = ops → I done s → I ops (run step s rest) := by
    intro rest
    induction rest with
    | nil =>
      intro done s heq h
      rw [List.append_nil] at heq
      exact heq ▸ h
    | cons o rest ih =>
      intro done s heq h
      subst heq
      exact ih (done ++ [o]) _ (by simp) (hstep done (List.subset_append_left _ _) o (by simp) s h)
  exact hrun ops [] s rfl h

theorem Along.mono {P Q : S → Prop} {s : S} {ops : List O} (h : Along step P s ops) (hPQ : ∀ s, P s → Q s) :
    Along step Q s ops := by
  induction ops generalizing s with
  | nil => exact hPQ s h
  | cons o os ih => exact ⟨hPQ s h.1, ih h.2⟩

theorem Meets.and {ok ok' : S → O → Prop} {s : S} {ops : List O} (h : Meets step ok s ops)
    (h' : Meets step ok' s ops) : Meets step (fun s o => ok s o ∧ ok' s o) s ops := by
  induction ops generalizing s with
  | nil => trivial
  | cons o os ih => exact ⟨⟨h.1, h'.1⟩, ih h.2 h'.2⟩

/-- A condition that follows from another one where an invariant holds. -/
theorem Meets.imp {I : S → Prop} {ok ok' : S → O → Prop} (hok : ∀ s o, I s → ok s o → ok' s o)
    (hstep : ∀ s o, I s → ok s o → I (step s o)) {s : S} (h : I s) {ops : List O} (hops : Meets step ok s ops) :
    Meets step ok' s ops := by
  induction ops generalizing s with
  | nil => trivial
  | cons o os ih => exact ⟨hok s o h hops.1, ih (hstep s o h hops.1) hops.2⟩

/-- An invariant holds in every state of a run. -/
theorem along_of_invariant {I : S → Prop} (hstep : ∀ s o, I s → I (step s o)) {s : S} (h : I s) (ops : List O) :
    Along step I s ops := by
  induction ops generalizing s with
  | nil => exact h
  | cons o os ih => exact ⟨h, ih (hstep s o h)⟩

/-- Runs of operations that meet `dom`. -/
theorem along_iff_meets_of_meets {I P : S → Prop} {dom ok : S → O → Prop} (hP : ∀ s, I s → P s)
    (hstep : ∀ s o, I s → dom s o → ok s o → I (step s o))
    (hbad : ∀ s o, I s → dom s o → ¬ ok s o → ¬ P (step s o)) {s : S} (h : I s) {ops : List O}
    (hdom : Meets step dom s ops) : Along step P s ops ↔ Meets step ok s ops := by
  induction ops generalizing s with
  | nil => exact iff_of_true (hP s h) trivial
  | cons o os ih =>
    by_cases ho : ok s o
    · have hos := ih (hstep s o h hdom.1 ho) hdom.2
      exact ⟨fun hrun => ⟨ho, hos.1 hrun.2⟩, fun hrun => ⟨hP s h, hos.2 hrun.2⟩⟩
    · have hnot := hbad s o h hdom.1 ho
      refine iff_of_false (fun hrun => hnot ?_) fun hrun => ho hrun.1
      cases os with
      | nil => exact hrun.2
      | cons o' os => exact hrun.2.1

/-- Two conditions that agree where the invariant holds, which they keep. -/
theorem meets_iff_meets {I : S → Prop} {ok ok' : S → O → Prop} (hiff : ∀ s o, I s → (ok s o ↔ ok' s o))
    (hstep : ∀ s o, I s → ok' s o → I (step s o)) {s : S} (h : I s) (ops : List O) :
    Meets step ok s ops ↔ Meets step ok' s ops := by
  induction ops generalizing s with
  | nil => exact Iff.rfl
  | cons o os ih =>
    constructor
    · rintro ⟨ho, hos⟩
      have ho' := (hiff s o h).1 ho
      exact ⟨ho', (ih (hstep s o h ho')).1 hos⟩
    · rintro ⟨ho', hos⟩
      exact ⟨(hiff s o h).2 ho', (ih (hstep s o h ho')).2 hos⟩

/-- A condition on the operations alone is met by every run of operations that meet it. -/
theorem meets_of_forall {ok : S → O → Prop} {ops : List O} (h : ∀ o ∈ ops, ∀ s, ok s o) (s : S) :
    Meets step ok s ops := by
  induction ops generalizing s with
  | nil => trivial
  | cons o os ih => exact ⟨h o (by simp) s, ih (fun o' ho' => h o' (List.mem_cons_of_mem _ ho')) _⟩

theorem along_iff_meets {I P : S → Prop} {ok : S → O → Prop} (hP : ∀ s, I s → P s)
    (hstep : ∀ s o, I s → ok s o → I (step s o)) (hbad : ∀ s o, I s → ¬ ok s o → ¬ P (step s o)) {s : S}
    (h : I s) (ops : List O) : Along step P s ops ↔ Meets step ok s ops :=
  along_iff_meets_of_meets hP (fun s o h _ => hstep s o h) (fun s o h _ => hbad s o h) h
    (show Meets step (fun _ _ => True) s ops from meets_of_forall (fun _ _ _ => trivial) s)

end AdGuardHome.Lib
