import AdGuardHome.Lib.Run

/-!
# The interval of the filter updates

The loop of the updates waits for an interval, which it takes from the last attempt.  A network error doubles the
interval and then makes it an hour at least, not at most: the second network error in a row, or one after a success,
takes it above the hour.
-/

namespace AdGuardHome.Filtering

open AdGuardHome.Lib

/-- How an attempt to refresh the filters ends. -/
inductive RefreshOutcome
  | success
  | networkError
  /-- Another refresh has the lock. -/
  | running
deriving DecidableEq

/-- The last two results of `tryRefreshFilters`. -/
def tryRefreshFilters : RefreshOutcome → Bool × Bool
  | .success => (false, true)
  | .networkError => (true, true)
  | .running => (false, false)

namespace Backoff

/-- The interval that `updatesLoop` starts with, five seconds in nanoseconds. -/
def initialInterval : Int64 := 5000000000

/-- An hour in nanoseconds. -/
def maxInterval : Int64 := 3600000000000

/-- The next interval, for the hours between updates in the settings and the outcome of the attempt. -/
def periodicallyRefreshFilters (filtersUpdateIntervalHours : UInt32) (outcome : RefreshOutcome) (ivl : Int64) :
    Int64 :=
  if filtersUpdateIntervalHours = 0 then ivl
  else
    let (isNetErr, ok) := tryRefreshFilters outcome
    if ok && !isNetErr then maxInterval
    else if isNetErr then max (ivl * 2) maxInterval
    else ivl

/-- A turn of `updatesLoop` after its timer. -/
def step (ivl : Int64) (attempt : UInt32 × RefreshOutcome) : Int64 :=
  periodicallyRefreshFilters attempt.1 attempt.2 ivl

variable {ivl : Int64} {attempt : UInt32 × RefreshOutcome} {attempts : List (UInt32 × RefreshOutcome)}

/-! ## One turn -/

theorem step_success (hon : attempt.1 ≠ 0) (h : attempt.2 = .success) : step ivl attempt = maxInterval := by
  simp [step, periodicallyRefreshFilters, tryRefreshFilters, hon, h]

theorem step_networkError (hon : attempt.1 ≠ 0) (h : attempt.2 = .networkError) :
    step ivl attempt = max (ivl * 2) maxInterval := by
  simp [step, periodicallyRefreshFilters, tryRefreshFilters, hon, h]

theorem step_running (h : attempt.2 = .running) : step ivl attempt = ivl := by
  simp [step, periodicallyRefreshFilters, tryRefreshFilters, h]

theorem doubled_initialInterval : max (initialInterval * 2) maxInterval = maxInterval := by decide

/-- From the first interval, every attempt that is made leads to the hour. -/
theorem step_initialInterval (hon : attempt.1 ≠ 0) :
    step initialInterval attempt = if attempt.2 = .running then initialInterval else maxInterval := by
  cases h : attempt.2 with
  | success => exact step_success hon h
  | networkError => exact (step_networkError hon h).trans doubled_initialInterval
  | running => exact step_running h

theorem step_maxInterval (hon : attempt.1 ≠ 0) (h : attempt.2 ≠ .networkError) :
    step maxInterval attempt = maxInterval := by
  cases hattempt : attempt.2 with
  | success => exact step_success hon hattempt
  | networkError => exact absurd hattempt h
  | running => exact step_running hattempt

theorem maxInterval_le_max : maxInterval ≤ max ivl maxInterval := by
  change maxInterval ≤ if ivl ≤ maxInterval then maxInterval else ivl
  split
  · exact Int64.le_refl _
  · rename_i h
    exact Int64.le_of_lt (Int64.not_le.1 h)

/-- An overflow cannot make the interval less than the hour. -/
theorem step_pos (attempt : UInt32 × RefreshOutcome) (h : 0 < ivl) : 0 < step ivl attempt := by
  have hmax : (0 : Int64) < maxInterval := by decide
  by_cases hon : attempt.1 = 0
  · rw [step, periodicallyRefreshFilters, if_pos hon]
    exact h
  · cases hattempt : attempt.2 with
    | success =>
      rw [step_success hon hattempt]
      exact hmax
    | networkError =>
      rw [step_networkError hon hattempt]
      exact Int64.lt_of_lt_of_le hmax maxInterval_le_max
    | running =>
      rw [step_running hattempt]
      exact h

/-! ## Runs -/

/-- The interval is positive and an hour at most in every state of the run, and no network error makes it less. -/
def Bounded (attempts : List (UInt32 × RefreshOutcome)) : Prop :=
  Along step (fun ivl => 0 < ivl ∧ ivl ≤ maxInterval) initialInterval attempts ∧
    Meets step (fun ivl attempt => attempt.2 = .networkError → ivl ≤ step ivl attempt) initialInterval attempts

/-- The intervals of a run without a network error too many. -/
def Regular (ivl : Int64) : Prop := ivl = initialInterval ∨ ivl = maxInterval

/-- A network error comes at the first interval only. -/
def ErrorAtFirst (ivl : Int64) (attempt : UInt32 × RefreshOutcome) : Prop :=
  attempt.2 = .networkError → ivl = initialInterval

theorem regular_step (h : Regular ivl) (hon : attempt.1 ≠ 0) (hok : ErrorAtFirst ivl attempt) :
    Regular (step ivl attempt) := by
  rcases h with rfl | rfl
  · rw [step_initialInterval hon]
    split
    · exact .inl rfl
    · exact .inr rfl
  · have herr : attempt.2 ≠ .networkError := fun herr => absurd (hok herr) (by decide)
    exact .inr (step_maxInterval hon herr)

/-- The runs within the bounds are those with a network error at the first interval only. -/
theorem along_iff_errorAtFirst (hon : Meets step (fun _ attempt => attempt.1 ≠ 0) initialInterval attempts) :
    Along step (fun ivl => 0 < ivl ∧ ivl ≤ maxInterval) initialInterval attempts ↔
      Meets step ErrorAtFirst initialInterval attempts := by
  refine along_iff_meets_of_meets (I := Regular) ?_ (fun _ _ h hon hok => regular_step h hon hok) ?_ (.inl rfl) hon
  · rintro ivl (rfl | rfl) <;> decide
  · intro ivl attempt h hon hbad
    obtain ⟨herr, hne⟩ := Classical.not_imp.1 hbad
    have hmax := h.resolve_left hne
    subst hmax
    rw [step_networkError hon herr]
    exact fun hbound => absurd hbound.2 (by decide)

theorem meets_maxInterval (hon : ∀ attempt ∈ attempts, attempt.1 ≠ 0) :
    Meets step ErrorAtFirst maxInterval attempts ↔ ∀ o ∈ attempts.map Prod.snd, o ≠ .networkError := by
  induction attempts with
  | nil => simp [Meets]
  | cons attempt attempts ih =>
    obtain ⟨hon, hrest⟩ := List.forall_mem_cons.1 hon
    rw [List.map_cons, List.forall_mem_cons, Meets]
    by_cases herr : attempt.2 = .networkError
    · have hnot : ¬ ErrorAtFirst maxInterval attempt := fun h => absurd (h herr) (by decide)
      exact iff_of_false (fun h => hnot h.1) fun h => h.1 herr
    · rw [step_maxInterval hon herr, ih hrest]
      exact and_congr_left fun _ => iff_of_true (fun h => absurd h herr) herr

/-- The condition on the states as one on the outcomes. -/
theorem meets_initialInterval (hon : ∀ attempt ∈ attempts, attempt.1 ≠ 0) :
    Meets step ErrorAtFirst initialInterval attempts ↔
      (attempts.map Prod.snd).Pairwise fun before o => o = .networkError → before = .running := by
  induction attempts with
  | nil => simp [Meets]
  | cons attempt attempts ih =>
    obtain ⟨hon, hrest⟩ := List.forall_mem_cons.1 hon
    have hfirst : ErrorAtFirst initialInterval attempt := fun _ => rfl
    rw [List.map_cons, List.pairwise_cons, Meets, step_initialInterval hon, and_iff_right hfirst]
    by_cases hrunning : attempt.2 = .running
    · rw [if_pos hrunning, ih hrest]
      exact (and_iff_right fun _ _ _ => hrunning).symm
    · rw [if_neg hrunning, meets_maxInterval hrest]
      constructor
      · intro hnone
        refine ⟨fun o ho herr => absurd herr (hnone o ho), ?_⟩
        exact List.pairwise_of_forall_mem_list fun _ _ o ho herr => absurd herr (hnone o ho)
      · rintro ⟨hbefore, -⟩ o ho herr
        exact hrunning (hbefore o ho herr)

theorem grows_of_errorAtFirst (hon : Meets step (fun _ attempt => attempt.1 ≠ 0) initialInterval attempts)
    (h : Meets step ErrorAtFirst initialInterval attempts) :
    Meets step (fun ivl attempt => attempt.2 = .networkError → ivl ≤ step ivl attempt) initialInterval attempts := by
  refine (hon.and h).imp (I := Regular) ?_ (fun _ _ hI hok => regular_step hI hok.1 hok.2) (.inl rfl)
  rintro ivl attempt - ⟨hon, hok⟩ herr
  rw [hok herr, step_networkError hon herr]
  decide

/-- With automatic updates, the interval is always positive.  It stays within the hour exactly in the runs where all
attempts before a network error found another refresh running. -/
theorem bounded_iff (hon : ∀ attempt ∈ attempts, attempt.1 ≠ 0) :
    Along step (fun ivl => 0 < ivl) initialInterval attempts ∧
      (Bounded attempts ↔
        (attempts.map Prod.snd).Pairwise fun before o => o = .networkError → before = .running) := by
  have hdom : Meets step (fun _ attempt => attempt.1 ≠ 0) initialInterval attempts :=
    meets_of_forall (fun o ho _ => hon o ho) _
  refine ⟨along_of_invariant (fun _ attempt h => step_pos attempt h) (by decide) attempts, ?_⟩
  rw [← meets_initialInterval hon, ← along_iff_errorAtFirst hdom]
  exact and_iff_left_of_imp fun h => grows_of_errorAtFirst hdom ((along_iff_errorAtFirst hdom).1 h)

/-- A network error after a refresh that was running, and then a success. -/
theorem bounded_three : Bounded [(24, .running), (24, .networkError), (24, .success)] :=
  (bounded_iff (by decide)).2.2 (by decide)

/-- Two network errors in a row make it two hours. -/
theorem not_bounded_two : ¬ Bounded [(24, .networkError), (24, .networkError)] := by
  rintro ⟨⟨-, -, hbound⟩, -⟩
  exact absurd hbound.2 (by decide)

end Backoff

end AdGuardHome.Filtering
