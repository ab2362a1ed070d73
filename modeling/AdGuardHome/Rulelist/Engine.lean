import AdGuardHome.Rulelist.Parser
import Mathlib.Data.List.ReduceOption

/-!
# Refreshes of a rule-list engine (`internal/filtering/rulelist/engine.go`, `filter.go`)

A refresh updates the enabled filters one after another and makes a new engine of the rule lists of those that did not
fail.  If the context is done before one of them, the loop stops with this as its only error, and `Engine.Refresh` then
leaves the engine alone, but it returns the error of something else, which is nil.  It does so too if just one filter
has failed and the error is that of a context, as with a slow server, although the loop has gone on
(`reported_iff`).
-/

namespace AdGuardHome.Rulelist

open AdGuardHome.Lib

/-! ## Filters -/

/-- An error, and whether it is `context.Canceled` or `context.DeadlineExceeded` to `errors.Is`. -/
structure RefreshError where
  text : String
  isTimeout : Bool
deriving DecidableEq

/-- `fmt.Errorf` with the error at the end. -/
def RefreshError.wrap (err : RefreshError) (text : String) : RefreshError := { err with text := text ++ err.text }

/-- The schemes that `NewFilter` accepts. -/
inductive Scheme
  | http
  | https
  | file
deriving DecidableEq

/-- `filterlist.Interface`: the rules and the ID of a list. -/
structure RuleList where
  id : ℤ
  rulesText : List UInt8
deriving DecidableEq

structure Filter where
  scheme : Scheme
  /-- `none` for nil. -/
  ruleList : Option RuleList
  updated : ℕ
  name : String
  uid : String
  urlFilterID : ℤ
  rulesCount : ℕ
  checksum : UInt32
  enabled : Bool
deriving DecidableEq

/-- What is there for a filter when it is refreshed. -/
structure Download where
  /-- `readFromHTTP` or `parseIntoCache`, with the rules that are written. -/
  read : Except RefreshError (ParseResult × List UInt8)
  /-- The error of closing the old rule list. -/
  close : Option RefreshError
  /-- The error of `filterlist.NewFile`. -/
  newFile : Option RefreshError
  now : ℕ

namespace Filter

/-- `Filter.setFromHTTP` -/
def setFromHTTP (f : Filter) (dl : Download) : Filter × Except RefreshError ParseResult :=
  match dl.read with
  | .error err => (f, .error (err.wrap "setting from http: "))
  | .ok (parseRes, data) => ({ f with ruleList := some ⟨f.urlFilterID, data⟩ }, .ok parseRes)

/-- `Filter.Close` -/
def close (f : Filter) (dl : Download) : Option RefreshError :=
  match f.ruleList with
  | none => none
  | some _ => dl.close

/-- `Filter.setFromFile` -/
def setFromFile (f : Filter) (dl : Download) : Filter × Except RefreshError ParseResult :=
  match dl.read with
  | .error err => (f, .error (err.wrap "setting from file: "))
  | .ok (parseRes, data) =>
    match f.close dl with
    | some err => (f, .error (err.wrap "setting from file: closing old rule list: "))
    | none =>
      match dl.newFile with
      | some err => (f, .error (err.wrap "setting from file: opening new rule list: "))
      | none => ({ f with ruleList := some ⟨f.urlFilterID, data⟩ }, .ok parseRes)

/-- `Filter.setName` -/
def setName (f : Filter) (title : List UInt8) : Filter :=
  if f.name ≠ "" then f
  else if title ≠ [] then { f with name := String.ofList (runes title) }
  else { f with name := "List " ++ f.uid }

/-- `Filter.Refresh` -/
def refresh (f : Filter) (dl : Download) : Filter × Except RefreshError ParseResult :=
  match if f.scheme = .file then f.setFromFile dl else f.setFromHTTP dl with
  | (f, .error err) => (f, .error err)
  | (f, .ok parseRes) =>
    if f.checksum ≠ parseRes.checksum then
      ({ { f with checksum := parseRes.checksum, rulesCount := parseRes.rulesCount }.setName parseRes.title with
          updated := dl.now }, .ok parseRes)
    else (f, .ok parseRes)

end Filter

/-! ## The engine -/

/-- `context.Context.Err` of a context that is done. -/
inductive ContextErr
  | canceled
  | deadlineExceeded
deriving DecidableEq

def ContextErr.error : ContextErr → RefreshError
  | .canceled => ⟨"context canceled", true⟩
  | .deadlineExceeded => ⟨"context deadline exceeded", true⟩

structure Engine where
  name : String
  filters : List Filter
  /-- The rule lists in the storage of the engine, `none` for a nil engine. -/
  engine : Option (List RuleList)
deriving DecidableEq

/-- What is outside the engine during a refresh. -/
structure Env where
  /-- The context when it is looked at before the enabled filter of a number. -/
  ctx : ℕ → Option ContextErr
  /-- What is there for the enabled filter of a number. -/
  download : ℕ → Download
  /-- The error of `filterlist.NewRuleStorage`. -/
  newRuleStorage : List RuleList → Option RefreshError

/-- `isOneTimeoutError` -/
def isOneTimeoutError (errs : List RefreshError) : Bool :=
  match errs with
  | [err] => err.isTimeout
  | _ => false

/-- `engineRefresh.processFilter` -/
def processFilter (f : Filter) (dl : Download) : Filter × Option RefreshError :=
  match f.refresh dl with
  | (f', .error err) => (f', some (err.wrap ("updating " ++ f.uid ++ ": ")))
  | (f', .ok _) => (f', none)

/-- `engineRefresh.process` from the enabled filter `i` on: the rule lists, the errors and the filters.  The filters
that are not enabled are passed over. -/
def process (env : Env) (i : ℕ) (ruleLists : List (Option RuleList)) (errs : List RefreshError) :
    List Filter → (List (Option RuleList) × List RefreshError) × List Filter
  | [] => ((ruleLists, errs), [])
  | f :: filters =>
    if f.enabled = false then
      match process env i ruleLists errs filters with
      | (res, filters) => (res, f :: filters)
    else
      match env.ctx i with
      | some err => (([], [err.error.wrap ("timeout after updating " ++ Nat.repr i ++ " filters: ")]), f :: filters)
      | none =>
        match processFilter f (env.download i) with
        | (f, none) =>
          match process env (i + 1) (ruleLists ++ [f.ruleList]) errs filters with
          | (res, filters) => (res, f :: filters)
        | (f, some err) =>
          match process env (i + 1) ruleLists (errs ++ [err]) filters with
          | (res, filters) => (res, f :: filters)

/-- `errors.Join` -/
def join : List RefreshError → Option RefreshError
  | [] => none
  | errs => some ⟨"\n".intercalate (errs.map (·.text)), errs.any (·.isTimeout)⟩

/-- `Engine.Refresh` -/
def Engine.refresh (e : Engine) (env : Env) : Engine × Option RefreshError :=
  let annotate (err : Option RefreshError) := err.map (·.wrap ("updating engine \"" ++ e.name ++ "\": "))
  if e.filters.all (!·.enabled) then (e, none)
  else
    match process env 0 [] [] e.filters with
    | ((ruleLists, errs), filters) =>
      let e := { e with filters := filters }
      -- the error that is returned here is that of the named result, which nothing has set
      if isOneTimeoutError errs then (e, none)
      else
        match env.newRuleStorage ruleLists.reduceOption with
        | some err => (e, annotate (join (errs ++ [err.wrap "creating rule storage: "])))
        | none => ({ e with engine := some ruleLists.reduceOption }, annotate (join errs))

/-! ## Interrupted refreshes -/

/-- The context is done when it is looked at before some enabled filter. -/
def Stops (env : Env) (i : ℕ) (filters : List Filter) : Prop :=
  ∃ j, i ≤ j ∧ j < i + filters.countP (·.enabled) ∧ env.ctx j ≠ none

/-- The enabled filters as their refreshes leave them, with the errors. -/
def outcomes (dl : ℕ → Download) : ℕ → List Filter → List (Filter × Option RefreshError)
  | _, [] => []
  | i, f :: filters =>
    if f.enabled = false then outcomes dl i filters else processFilter f (dl i) :: outcomes dl (i + 1) filters

/-- The errors of the refreshes. -/
def failures (dl : ℕ → Download) (filters : List Filter) : List RefreshError := (outcomes dl 0 filters).filterMap (·.2)

/-- The filter has a rule list, and it is in the engine. -/
def Contains (engine : Option (List RuleList)) (f : Filter) : Prop := ∃ rl ∈ engine.getD [], f.ruleList = some rl

/-- A refresh whose loop stops returns an error and leaves the engine, and one that returns no error leaves an engine
with the rule lists of all enabled filters. -/
structure Reported (e : Engine) (env : Env) : Prop where
  stopped : Stops env 0 e.filters → (e.refresh env).2 ≠ none ∧ (e.refresh env).1.engine = e.engine
  ok : (e.refresh env).2 = none → ∀ f ∈ (e.refresh env).1.filters, f.enabled = true →
    Contains (e.refresh env).1.engine f

section Process

variable {env : Env} {f : Filter} {filters : List Filter} {i : ℕ} {dl : Download}

@[simp] theorem setName_enabled (f : Filter) (title : List UInt8) : (f.setName title).enabled = f.enabled := by
  unfold Filter.setName
  split
  · rfl
  · split <;> rfl

@[simp] theorem setName_ruleList (f : Filter) (title : List UInt8) : (f.setName title).ruleList = f.ruleList := by
  unfold Filter.setName
  split
  · rfl
  · split <;> rfl

/-- A refresh leaves the flag, and a rule list if it does not fail. -/
theorem setFrom_cases (f : Filter) (dl : Download) :
    (∃ err, (if f.scheme = .file then f.setFromFile dl else f.setFromHTTP dl) = (f, .error err)) ∨
      ∃ parseRes rl, (if f.scheme = .file then f.setFromFile dl else f.setFromHTTP dl) =
        ({ f with ruleList := some rl }, .ok parseRes) := by
  unfold Filter.setFromFile Filter.setFromHTTP
  cases dl.read with
  | error err => split <;> exact .inl ⟨_, rfl⟩
  | ok r =>
    obtain ⟨parseRes, data⟩ := r
    dsimp only
    split
    · cases f.close dl with
      | some err => exact .inl ⟨_, rfl⟩
      | none =>
        cases dl.newFile with
        | some err => exact .inl ⟨_, rfl⟩
        | none => exact .inr ⟨_, _, rfl⟩
    · exact .inr ⟨_, _, rfl⟩

theorem processFilter_enabled (f : Filter) (dl : Download) : (processFilter f dl).1.enabled = f.enabled := by
  unfold processFilter Filter.refresh
  rcases setFrom_cases f dl with ⟨err, h⟩ | ⟨parseRes, rl, h⟩
  · rw [h]
  · rw [h]
    dsimp only
    split
    · rename_i heq
      split at heq <;> cases heq
    · rename_i heq
      split at heq
      · cases heq
        simp
      · cases heq
        rfl

theorem ruleList_processFilter (h : (processFilter f dl).2 = none) :
    ∃ rl, (processFilter f dl).1.ruleList = some rl := by
  unfold processFilter Filter.refresh at h ⊢
  rcases setFrom_cases f dl with ⟨err, heq⟩ | ⟨parseRes, rl, heq⟩
  · rw [heq] at h
    cases h
  · rw [heq] at h ⊢
    refine ⟨rl, ?_⟩
    dsimp only
    split
    · rename_i hres
      split at hres <;> cases hres
    · rename_i hres
      split at hres
      · cases hres
        simp
      · cases hres
        rfl

/-- The loop that does not stop goes over all enabled filters. -/
theorem process_eq (ruleLists : List (Option RuleList)) (errs : List RefreshError) (hstops : ¬ Stops env i filters) :
    (process env i ruleLists errs filters).1 =
        (ruleLists ++ ((outcomes env.download i filters).filter (·.2.isNone)).map (·.1.ruleList),
          errs ++ (outcomes env.download i filters).filterMap (·.2)) ∧
      (process env i ruleLists errs filters).2.filter (·.enabled) = (outcomes env.download i filters).map (·.1) := by
  induction filters generalizing i ruleLists errs with
  | nil => simp [process, outcomes]
  | cons f filters ih =>
    unfold process outcomes
    by_cases henabled : f.enabled = false
    · have hrest : ¬ Stops env i filters := by
        rintro ⟨j, hle, hlt, hdone⟩
        exact hstops ⟨j, hle, by rwa [List.countP_cons_of_neg (by simp [henabled])], hdone⟩
      obtain ⟨hres, hfilters⟩ := ih ruleLists errs hrest
      rw [if_pos henabled, if_pos henabled]
      refine ⟨hres, ?_⟩
      rw [← hfilters, List.filter_cons_of_neg (by simp [henabled])]
    · have htrue : f.enabled = true := Bool.not_eq_false _ ▸ henabled
      have hcount : (f :: filters).countP (·.enabled) = filters.countP (·.enabled) + 1 :=
        List.countP_cons_of_pos htrue
      have hnone : env.ctx i = none := by
        by_contra hdone
        exact hstops ⟨i, le_rfl, by omega, hdone⟩
      have hrest : ¬ Stops env (i + 1) filters := by
        rintro ⟨j, hle, hlt, hdone⟩
        exact hstops ⟨j, by omega, by omega, hdone⟩
      have hkeep := (processFilter_enabled f (env.download i)).trans htrue
      rw [if_neg henabled, if_neg henabled, hnone]
      dsimp only
      rcases hfilter : processFilter f (env.download i) with ⟨f', err⟩
      rw [hfilter] at hkeep
      cases err with
      | none =>
        obtain ⟨hres, hfilters⟩ := ih (ruleLists ++ [f'.ruleList]) errs hrest
        refine ⟨?_, ?_⟩
        · dsimp only
          rw [hres]
          simp
        · dsimp only
          rw [List.filter_cons_of_pos hkeep, hfilters]
          rfl
      | some err =>
        obtain ⟨hres, hfilters⟩ := ih ruleLists (errs ++ [err]) hrest
        refine ⟨?_, ?_⟩
        · dsimp only
          rw [hres]
          simp
        · dsimp only
          rw [List.filter_cons_of_pos hkeep, hfilters]
          rfl

/-- The loop that stops leaves the error of the context and nothing else. -/
theorem process_stopped (ruleLists : List (Option RuleList)) (errs : List RefreshError) (hstops : Stops env i filters) :
    ∃ err, (process env i ruleLists errs filters).1 = ([], [err]) ∧ err.isTimeout = true := by
  induction filters generalizing i ruleLists errs with
  | nil =>
    obtain ⟨j, hle, hlt, -⟩ := hstops
    rw [List.countP_nil] at hlt
    omega
  | cons f filters ih =>
    obtain ⟨j, hle, hlt, hdone⟩ := hstops
    unfold process
    by_cases henabled : f.enabled = false
    · rw [List.countP_cons_of_neg (by simp [henabled])] at hlt
      obtain ⟨err, hres, htimeout⟩ := ih ruleLists errs ⟨j, hle, hlt, hdone⟩
      rw [if_pos henabled]
      exact ⟨err, hres, htimeout⟩
    · rw [List.countP_cons_of_pos (by simpa using henabled)] at hlt
      rw [if_neg henabled]
      cases hctx : env.ctx i with
      | some err =>
        refine ⟨_, rfl, ?_⟩
        cases err <;> rfl
      | none =>
        have hne : j ≠ i := by
          rintro rfl
          exact hdone hctx
        have hrest : Stops env (i + 1) filters := ⟨j, by omega, by omega, hdone⟩
        dsimp only
        rcases processFilter f (env.download i) with ⟨f', err⟩
        cases err with
        | none =>
          obtain ⟨err, hres, htimeout⟩ := ih (ruleLists ++ [f'.ruleList]) errs hrest
          exact ⟨err, hres, htimeout⟩
        | some err =>
          obtain ⟨err, hres, htimeout⟩ := ih ruleLists (errs ++ [err]) hrest
          exact ⟨err, hres, htimeout⟩

theorem stops_enabled (hstops : Stops env i filters) : filters.all (!·.enabled) = false := by
  obtain ⟨j, hle, hlt, -⟩ := hstops
  have hcount : 0 < filters.countP (·.enabled) := by omega
  obtain ⟨f, hf, henabled⟩ := List.countP_pos_iff.1 hcount
  exact List.all_eq_false.2 ⟨f, hf, by simp [henabled]⟩

theorem outcomes_disabled (h : filters.all (!·.enabled) = true) : outcomes env.download i filters = [] := by
  induction filters with
  | nil => rfl
  | cons f filters ih =>
    rw [List.all_cons, Bool.and_eq_true] at h
    unfold outcomes
    rw [if_pos (by simpa using h.1), ih h.2]

theorem mem_outcomes {o : Filter × Option RefreshError} (ho : o ∈ outcomes env.download i filters)
    (hok : o.2 = none) : ∃ rl, o.1.ruleList = some rl := by
  induction filters generalizing i with
  | nil => cases ho
  | cons f filters ih =>
    unfold outcomes at ho
    split at ho
    · exact ih ho
    · rcases List.mem_cons.1 ho with rfl | ho
      · exact ruleList_processFilter hok
      · exact ih ho

theorem join_eq_none {errs : List RefreshError} : join errs = none ↔ errs = [] := by
  cases errs <;> simp [join]

/-- A refresh whose loop stops returns nil: the error of the context is dropped. -/
theorem refresh_of_stops {e : Engine} (hstops : Stops env 0 e.filters) : (e.refresh env).2 = none := by
  obtain ⟨err, hres, htimeout⟩ := process_stopped [] [] hstops
  unfold Engine.refresh
  rw [if_neg (by simp [stops_enabled hstops])]
  rcases hprocess : process env 0 [] [] e.filters with ⟨⟨ruleLists, errs⟩, filters⟩
  rw [hprocess] at hres
  cases hres
  simp [isOneTimeoutError, htimeout]

/-- A refresh whose loop does not stop goes over all filters.  Where it returns nil, it has replaced the engine and no
filter has failed, or just one with the error of a context. -/
theorem refresh_of_not_stops {e : Engine} (hstops : ¬ Stops env 0 e.filters)
    (hdisabled : ¬ e.filters.all (!·.enabled) = true) :
    ∃ filters, filters.filter (·.enabled) = (outcomes env.download 0 e.filters).map (·.1) ∧
      (isOneTimeoutError (failures env.download e.filters) = true →
        e.refresh env = ({ e with filters := filters }, none)) ∧
      (¬ isOneTimeoutError (failures env.download e.filters) = true → (e.refresh env).2 = none →
        failures env.download e.filters = [] ∧
          (e.refresh env).1 =
            { e with
              filters := filters
              engine := some (((outcomes env.download 0 e.filters).filter
                (·.2.isNone)).map (·.1.ruleList)).reduceOption }) := by
  obtain ⟨hres, hfilters⟩ := process_eq [] [] hstops
  rcases hprocess : process env 0 [] [] e.filters with ⟨⟨ruleLists, errs⟩, filters⟩
  rw [hprocess] at hres hfilters
  obtain ⟨hlists, herrs⟩ := Prod.mk.inj hres
  rw [List.nil_append] at hlists herrs
  replace herrs : errs = failures env.download e.filters := herrs
  rw [← herrs, ← hlists]
  refine ⟨filters, hfilters, fun hone => ?_, fun hone => ?_⟩
  all_goals
    unfold Engine.refresh
    rw [if_neg hdisabled, hprocess]
    dsimp only
  · rw [if_pos hone]
  · rw [if_neg hone]
    cases env.newRuleStorage ruleLists.reduceOption with
    | some err => exact fun hnone => absurd (join_eq_none.1 (Option.map_eq_none_iff.1 hnone)) (by simp)
    | none => exact fun hnone => ⟨join_eq_none.1 (Option.map_eq_none_iff.1 hnone), rfl⟩

end Process

/-- A refresh stops without its error exactly if the context is done before an enabled filter, and returns nil with a
rule list missing if just one filter fails, with the error of a context, and the engine in use lacks the list of some
enabled filter. -/
theorem reported_iff (e : Engine) (env : Env) :
    Reported e env ↔ ¬ Stops env 0 e.filters ∧
      (isOneTimeoutError (failures env.download e.filters) = true →
        ∀ o ∈ outcomes env.download 0 e.filters, Contains e.engine o.1) := by
  by_cases hstops : Stops env 0 e.filters
  · exact iff_of_false (fun hreported => (hreported.stopped hstops).1 (refresh_of_stops hstops)) (fun h => h.1 hstops)
  by_cases hdisabled : e.filters.all (!·.enabled) = true
  · refine iff_of_true ⟨fun h => absurd h hstops, fun _ f hf henabled => ?_⟩ ⟨hstops, fun _ o ho => ?_⟩
    · unfold Engine.refresh at hf
      rw [if_pos hdisabled] at hf
      simpa [henabled] using List.all_eq_true.1 hdisabled f hf
    · rw [outcomes_disabled hdisabled] at ho
      cases ho
  obtain ⟨filters, hfilters, hrefresh, hrefresh'⟩ := refresh_of_not_stops hstops hdisabled
  have hmem (f : Filter) : (f ∈ filters ∧ f.enabled = true) ↔ ∃ o ∈ outcomes env.download 0 e.filters, o.1 = f := by
    rw [← List.mem_map, ← hfilters, List.mem_filter]
  by_cases hone : isOneTimeoutError (failures env.download e.filters) = true
  · have heq := hrefresh hone
    constructor
    · intro hreported
      refine ⟨hstops, fun _ o ho => ?_⟩
      have hin := (hmem o.1).2 ⟨o, ho, rfl⟩
      have hcontains := hreported.ok
      rw [heq] at hcontains
      exact hcontains rfl o.1 hin.1 hin.2
    · rintro ⟨-, hcontains⟩
      refine ⟨fun h => absurd h hstops, fun _ f hf henabled => ?_⟩
      rw [heq] at hf ⊢
      obtain ⟨o, ho, rfl⟩ := (hmem f).1 ⟨hf, henabled⟩
      exact hcontains hone o ho
  · refine iff_of_true ⟨fun h => absurd h hstops, fun hnone f hf henabled => ?_⟩ ⟨hstops, fun h => absurd h hone⟩
    obtain ⟨hempty, heq⟩ := hrefresh' hone hnone
    rw [heq] at hf ⊢
    obtain ⟨o, ho, rfl⟩ := (hmem f).1 ⟨hf, henabled⟩
    -- no filter has failed, so each has a rule list, and it is in the new engine
    have hok : o.2 = none := List.filterMap_eq_nil_iff.1 hempty o ho
    obtain ⟨rl, hrl⟩ := mem_outcomes ho hok
    refine ⟨rl, ?_, hrl⟩
    rw [Option.getD_some, List.reduceOption_mem_iff, ← hrl]
    exact List.mem_map.2 ⟨o, List.mem_filter.2 ⟨ho, by simp [hok]⟩, rfl⟩

/-- A context that is cancelled before the first filter is looked at gives no error. -/
theorem not_reported_canceled : ¬ ∀ (e : Engine) (env : Env), Reported e env := by
  intro h
  let f : Filter := ⟨.http, none, 0, "", "1", 1, 0, 0, true⟩
  let e : Engine := ⟨"block", [f], none⟩
  let env : Env :=
    { ctx := fun _ => some .canceled
      download := fun _ => ⟨.error ⟨"", false⟩, none, none, 0⟩
      newRuleStorage := fun _ => none }
  have hreported : Reported e env := h e env
  exact (hreported.stopped ⟨0, le_rfl, by decide, by simp [env]⟩).1 rfl

end AdGuardHome.Rulelist
