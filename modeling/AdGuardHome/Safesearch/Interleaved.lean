import AdGuardHome.Lib.Run
import AdGuardHome.Safesearch.Saved
import Mathlib.Logic.Function.Basic

/-!
# Lookups and updates at the same time (`internal/filtering/safesearch/safesearch.go`)

A lookup reads the cache, searches the engine under the read lock and stores what it has found in the cache, and an
update replaces the engine and clears the cache under the write lock.  The store is not under the lock, so a lookup that
has searched the engine before an update may store its result after it.  If no lookup stores what the engine in use does
not say, then every lookup gives what the engine of the last update says (`upToDate_run`).
-/

namespace AdGuardHome.Safesearch

open AdGuardHome.Lib AdGuardHome.Filtering

namespace Interleaved

/-- How far a call of `CheckHost` has come. -/
inductive Phase
  | reading
  | searching
  | storing (res : Result)
  | done (res : Except String Result)

structure Call where
  host : String
  qtype : UInt16
  phase : Phase

structure State where
  filter : Default
  /-- The calls that were made, by number. -/
  calls : ℕ → Option Call

inductive Step
  | begin (id : ℕ) (host : String) (qtype : UInt16)
  | read (id : ℕ) (now : ℤ)
  | search (id : ℕ)
  | store (id : ℕ) (now : ℤ)
  /-- The critical section of `Update`. -/
  | update (conf : SafeSearchConfig)
  /-- The cache drops entries on its own. -/
  | evict (keys : List String)

/-- The type is one that `CheckHost` goes on with. -/
def Checked (qtype : UInt16) : Prop := qtype = typeA ∨ qtype = typeAAAA ∨ qtype = typeHTTPS

instance (qtype : UInt16) : Decidable (Checked qtype) := inferInstanceAs (Decidable (_ ∨ _))

/-- The call has come to the phase. -/
def State.advance (s : State) (id : ℕ) (call : Call) (phase : Phase) : State :=
  { s with calls := Function.update s.calls id (some { call with phase := phase }) }

variable (env : RuleEngine)

/-- What a call does next: `Default.CheckHost` in steps. -/
def step (s : State) : Step → State
  | .begin id host qtype =>
    match s.calls id with
    | some _ => s
    | none => s.advance id ⟨host, qtype, .reading⟩ (if Checked qtype then .reading else .done (.ok {}))
  | .read id now =>
    match s.calls id with
    | some ⟨host, qtype, .reading⟩ =>
      match s.filter.getCachedResult host qtype now with
      | (filter, some res) => { s with filter := filter }.advance id ⟨host, qtype, .reading⟩ (.done (.ok res))
      | (filter, none) => { s with filter := filter }.advance id ⟨host, qtype, .reading⟩ .searching
    | _ => s
  | .search id =>
    match s.calls id with
    | some ⟨host, qtype, .searching⟩ =>
      match s.filter.searchHost env host qtype with
      | none => s.advance id ⟨host, qtype, .searching⟩ (.done (.ok {}))
      | some rewrite =>
        match Default.newResult rewrite qtype with
        | .error err => s.advance id ⟨host, qtype, .searching⟩ (.done (.error err))
        | .ok res => s.advance id ⟨host, qtype, .searching⟩ (.storing res)
    | _ => s
  | .store id now =>
    match s.calls id with
    | some ⟨host, qtype, .storing res⟩ =>
      { s with filter := s.filter.setCacheResult host qtype res now }.advance id ⟨host, qtype, .storing res⟩
        (.done (.ok res))
    | _ => s
  | .update conf =>
    match s.filter.update env conf with
    | .error _ => s
    | .ok filter => { s with filter := filter }
  | .evict keys => { s with filter := { s.filter with cache := s.filter.cache.delAll keys } }

/-- No call has been made. -/
def start (filter : Default) : State := ⟨filter, fun _ => none⟩

/-- What `CheckHost` returns if it searches the engine of these services. -/
def answer (services : List Service) (host : String) (qtype : UInt16) : Except String Result :=
  if Checked qtype then Default.search env ⟨some services, GoMap.empty, 0⟩ host qtype else .ok {}

/-- Every call that begins after an update that enables a configuration and ends before the next update returns what the
engine of the update says. -/
def UpToDate (s : State) (steps : List Step) : Prop :=
  ∀ (before between after : List Step) (conf : SafeSearchConfig), steps = before ++ .update conf :: (between ++ after) →
    conf.enabled = true → (∃ filter, (run (step env) s before).filter.update env conf = .ok filter) →
      (∀ conf', .update conf' ∉ between) →
        ∀ id call res, (run (step env) s before).calls id = none →
          (run (step env) s (before ++ .update conf :: between)).calls id = some call → call.phase = .done res →
            res = answer env (selected conf) call.host call.qtype

/-- A result that is stored is what the engine in use says. -/
def StoresCurrent (s : State) : Step → Prop
  | .store id _ => ∀ host qtype res, s.calls id = some ⟨host, qtype, .storing res⟩ →
    s.filter.search env host qtype = .ok res
  | _ => True

variable {env} {s : State}

/-! ## The steps of one call -/

@[simp] theorem advance_filter (s : State) (id : ℕ) (call : Call) (phase : Phase) :
    (s.advance id call phase).filter = s.filter := rfl

@[simp] theorem advance_calls (s : State) (id : ℕ) (call : Call) (phase : Phase) :
    (s.advance id call phase).calls = Function.update s.calls id (some { call with phase := phase }) := rfl

/-- A call whose steps come one after another is `CheckHost`. -/
theorem run_call (id : ℕ) (host : String) (qtype : UInt16) (now stored : ℤ) (hnew : s.calls id = none) :
    ∃ phase, run (step env) s [.begin id host qtype, .read id now, .search id, .store id stored] =
      State.advance { s with filter := (s.filter.checkHost env host qtype now stored).1 } id ⟨host, qtype, .reading⟩
        phase ∧
        phase = .done (s.filter.checkHost env host qtype now stored).2 := by
  have hbegin : step env s (.begin id host qtype) =
      s.advance id ⟨host, qtype, .reading⟩ (if Checked qtype then .reading else .done (.ok {})) := by
    rw [step, hnew]
  refine ⟨_, ?_, rfl⟩
  rw [run, List.foldl_cons, hbegin]
  unfold Default.checkHost
  by_cases hq : Checked qtype
  · have hgo : ¬ (qtype ≠ typeA ∧ qtype ≠ typeAAAA ∧ qtype ≠ typeHTTPS) := by
      rintro ⟨h₁, h₂, h₃⟩
      rcases hq with hq | hq | hq <;> contradiction
    rw [if_pos hq, if_neg hgo]
    rcases hread : s.filter.getCachedResult host qtype now with ⟨filter, found⟩
    cases found with
    | some res => simp [step, hread, State.advance]
    | none =>
      cases hsearch : filter.searchHost env host qtype with
      | none => simp [step, hread, hsearch, State.advance]
      | some rewrite =>
        cases hres : Default.newResult rewrite qtype with
        | error err => simp [step, hread, hsearch, hres, State.advance]
        | ok res => simp [step, hread, hsearch, hres, State.advance]
  · have hstop : qtype ≠ typeA ∧ qtype ≠ typeAAAA ∧ qtype ≠ typeHTTPS := by
      simpa [Checked] using hq
    rw [if_neg hq, if_pos hstop]
    simp [step, State.advance]

/-! ## What the calls return -/

/-- The cache has what the engine says, and the calls that are going on are for types that are looked up. -/
structure Sound (env : RuleEngine) (s : State) : Prop where
  cached : s.filter.Cached env
  checked : ∀ id call, s.calls id = some call → Checked call.qtype ∨ ∃ res, call.phase = .done res

/-- A call has or returns what the engine says. -/
def Call.Answers (env : RuleEngine) (services : List Service) (call : Call) : Prop :=
  match call.phase with
  | .storing res => answer env services call.host call.qtype = .ok res
  | .done res => answer env services call.host call.qtype = res
  | _ => True

/-- The engine is that of the services, and the calls other than the old ones answer from it. -/
structure Answering (env : RuleEngine) (services : List Service) (old : ℕ → Option Call) (s : State) : Prop where
  engine : s.filter.engine = some services
  answers : ∀ id call, old id = none → s.calls id = some call → call.Answers env services

section Steps

variable {services : List Service} {old : ℕ → Option Call} {filter : Default} {id : ℕ} {call : Call} {phase : Phase}

theorem answer_eq_search {host : String} {qtype : UInt16} (hq : Checked qtype)
    (hengine : filter.engine = some services) :
    answer env services host qtype = filter.search env host qtype := by
  rw [answer, if_pos hq]
  exact Default.search_eq_of_engine hengine.symm host qtype

theorem Sound.withFilter (h : Sound env s) (hcached : filter.Cached env) : Sound env { s with filter := filter } :=
  ⟨hcached, h.checked⟩

theorem Sound.advance (h : Sound env s) (hphase : Checked call.qtype ∨ ∃ res, phase = .done res) :
    Sound env (s.advance id call phase) := by
  refine ⟨h.cached, fun id' call' hget => ?_⟩
  rw [advance_calls, Function.update_apply] at hget
  split at hget
  · cases hget
    exact hphase
  · exact h.checked id' call' hget

theorem Answering.withFilter (h : Answering env services old s) (hengine : filter.engine = s.filter.engine) :
    Answering env services old { s with filter := filter } := ⟨hengine.trans h.engine, h.answers⟩

theorem Answering.advance (h : Answering env services old s)
    (hphase : old id = none → ({ call with phase := phase } : Call).Answers env services) :
    Answering env services old (s.advance id call phase) := by
  refine ⟨h.engine, fun id' call' hold hget => ?_⟩
  rw [advance_calls, Function.update_apply] at hget
  split at hget
  · rename_i hid
    cases hget
    exact hphase (hid ▸ hold)
  · exact h.answers id' call' hold hget

theorem cached_update {conf : SafeSearchConfig} (h : s.filter.Cached env) :
    (step env s (.update conf)).filter.Cached env := by
  cases hreset : s.filter.resetEngine env conf with
  | error err =>
    rw [step, Default.update, hreset]
    exact h
  | ok ss =>
    rw [step, Default.update, hreset]
    exact Default.cached_empty _ _

/-- A call that has not ended is for a type that is looked up. -/
theorem Sound.looksUp {host : String} {qtype : UInt16} (h : Sound env s) (hcall : s.calls id = some ⟨host, qtype, phase⟩)
    (hphase : ∀ res, phase ≠ .done res) : Checked qtype :=
  (h.checked id _ hcall).resolve_right fun ⟨res, hres⟩ => hphase res hres

theorem Sound.begin (h : Sound env s) (id : ℕ) (host : String) (qtype : UInt16) :
    Sound env (step env s (.begin id host qtype)) ∧
      (Answering env services old s → Answering env services old (step env s (.begin id host qtype))) := by
  dsimp only [step]
  split
  · exact ⟨h, fun ha => ha⟩
  · by_cases hq : Checked qtype
    · rw [if_pos hq]
      exact ⟨h.advance (.inl hq), fun ha => ha.advance fun _ => trivial⟩
    · rw [if_neg hq]
      exact ⟨h.advance (.inr ⟨_, rfl⟩), fun ha => ha.advance fun _ => if_neg hq⟩

/-- What a call reads in the cache is what the engine says. -/
theorem Sound.read (h : Sound env s) (id : ℕ) (now : ℤ) : Sound env (step env s (.read id now)) ∧
    (Answering env services old s → Answering env services old (step env s (.read id now))) := by
  dsimp only [step]
  split
  · rename_i host qtype hcall
    have hq : Checked qtype := h.looksUp hcall fun _ => Phase.noConfusion
    obtain ⟨hcached, hengine, hfound⟩ := h.cached.getCachedResult host qtype now
    split
    · rename_i filter res hget
      rw [hget] at hcached hengine hfound
      refine ⟨(h.withFilter hcached).advance (.inl hq), fun ha => (ha.withFilter hengine).advance fun _ => ?_⟩
      exact (answer_eq_search hq ha.engine).trans (hfound res hq rfl)
    · rename_i filter hget
      rw [hget] at hcached hengine
      exact ⟨(h.withFilter hcached).advance (.inl hq), fun ha => (ha.withFilter hengine).advance fun _ => trivial⟩
  · exact ⟨h, fun ha => ha⟩

/-- What a call finds is what the engine says. -/
theorem Sound.search (h : Sound env s) (id : ℕ) : Sound env (step env s (.search id)) ∧
    (Answering env services old s → Answering env services old (step env s (.search id))) := by
  dsimp only [step]
  split
  · rename_i host qtype hcall
    have hq : Checked qtype := h.looksUp hcall fun _ => Phase.noConfusion
    have hsearch : s.filter.search env host qtype = match s.filter.searchHost env host qtype with
      | none => .ok {}
      | some rewrite => Default.newResult rewrite qtype := rfl
    split
    · rename_i hnone
      rw [hnone] at hsearch
      refine ⟨h.advance (.inl hq), fun ha => ha.advance fun _ => ?_⟩
      exact (answer_eq_search hq ha.engine).trans hsearch
    · rename_i rewrite hrewrite
      rw [hrewrite] at hsearch
      dsimp only at hsearch
      split
      · rename_i err herr
        refine ⟨h.advance (.inl hq), fun ha => ha.advance fun _ => ?_⟩
        exact (answer_eq_search hq ha.engine).trans (hsearch.trans herr)
      · rename_i res hres
        refine ⟨h.advance (.inl hq), fun ha => ha.advance fun _ => ?_⟩
        exact (answer_eq_search hq ha.engine).trans (hsearch.trans hres)
  · exact ⟨h, fun ha => ha⟩

/-- Where a call stores what the engine in use says, the cache has what the engine says. -/
theorem Sound.store (h : Sound env s) (id : ℕ) (now : ℤ) (ho : StoresCurrent env s (.store id now)) :
    Sound env (step env s (.store id now)) ∧
      (Answering env services old s → Answering env services old (step env s (.store id now))) := by
  dsimp only [step]
  split
  · rename_i host qtype res hcall
    have hq : Checked qtype := h.looksUp hcall fun _ => Phase.noConfusion
    have hcurrent : s.filter.search env host qtype = .ok res := ho host qtype res hcall
    have hcached : (s.filter.setCacheResult host qtype res now).Cached env := by
      refine GoMap.All.set h.cached fun host' qtype' hq' hkey => ?_
      obtain ⟨rfl, rfl⟩ := Default.cacheKey_inj hq hq' hkey
      exact hcurrent
    refine ⟨(h.withFilter hcached).advance (.inl hq), fun ha => ?_⟩
    have hstored : Answering env services old { s with filter := s.filter.setCacheResult host qtype res now } :=
      ha.withFilter rfl
    exact hstored.advance fun _ => (answer_eq_search hq ha.engine).trans hcurrent
  · exact ⟨h, fun ha => ha⟩

/-- A step that stores what the engine in use says keeps the cache sound, and if it is no update, the calls that have
begun with the engine answer from it. -/
theorem Sound.next {o : Step} (h : Sound env s) (ho : StoresCurrent env s o) :
    Sound env (step env s o) ∧ ((∀ conf, o ≠ .update conf) →
      Answering env services old s → Answering env services old (step env s o)) := by
  cases o with
  | begin id host qtype => exact (h.begin id host qtype).imp_right fun ha _ => ha
  | read id now => exact (h.read id now).imp_right fun ha _ => ha
  | search id => exact (h.search id).imp_right fun ha _ => ha
  | store id now => exact (h.store id now ho).imp_right fun ha _ => ha
  | update conf =>
    refine ⟨⟨cached_update h.cached, ?_⟩, fun hno => absurd rfl (hno conf)⟩
    dsimp only [step]
    split
    · exact h.checked
    · exact h.checked
  | evict keys => exact ⟨h.withFilter (h.cached.evict keys), fun _ ha => ha.withFilter rfl⟩

end Steps

theorem Sound.kept {o : Step} (h : Sound env s) (ho : StoresCurrent env s o) : Sound env (step env s o) :=
  (@Sound.next env s [] s.calls o h ho).1

/-- The invariant holds along the steps that store what the engine in use says. -/
theorem Sound.along {steps : List Step} (h : Sound env s) (hsteps : Meets (step env) (StoresCurrent env) s steps) :
    Sound env (run (step env) s steps) :=
  run_invariant_of_meets (fun _ _ h ho => h.kept ho) h hsteps

theorem sound_start {conf : SafeSearchConfig} {cacheTTL : ℤ} {filter : Default}
    (hnew : Default.newDefault env conf cacheTTL = .ok filter) : Sound env (start filter) := by
  refine ⟨?_, fun id call hget => by cases hget⟩
  unfold Default.newDefault Default.resetEngine at hnew
  split at hnew
  · cases hnew
    exact Default.cached_empty _ _
  · dsimp only at hnew
    split at hnew
    · cases hnew
    · cases hnew
      exact Default.cached_empty _ _

/-- The engine after an update that has not failed is that of its configuration. -/
theorem engine_update {conf : SafeSearchConfig} {filter : Default} (henabled : conf.enabled = true)
    (hok : s.filter.update env conf = .ok filter) : filter.engine = some (selected conf) := by
  unfold Default.update Default.resetEngine at hok
  rw [henabled, Bool.not_true, if_neg Bool.false_ne_true] at hok
  dsimp only at hok
  split at hok
  · cases hok
  · rename_i heq
    split at heq
    · cases heq
    · cases heq
      cases hok
      rfl

/-- If no call stores what the engine in use does not say, then the calls between two updates return what the engine of
the first of them says. -/
theorem upToDate_run {conf : SafeSearchConfig} {cacheTTL : ℤ} {filter : Default} {steps : List Step}
    (hnew : Default.newDefault env conf cacheTTL = .ok filter)
    (hsteps : Meets (step env) (StoresCurrent env) (start filter) steps) : UpToDate env (start filter) steps := by
  intro before between after conf' hsplit henabled hok hbetween id call res hid hcall hdone
  obtain ⟨filter', hupdate⟩ := hok
  subst hsplit
  obtain ⟨hbefore, hstore, hrest⟩ := (meets_append_iff _ _ _).1 hsteps
  obtain ⟨hmeets, -⟩ := (meets_append_iff _ _ _).1 hrest
  rw [run_append] at hcall
  have hsound := (sound_start hnew).along hbefore
  generalize run (step env) (start filter) before = s₁ at *
  have hstep : step env s₁ (.update conf') = { s₁ with filter := filter' } := by
    rw [step, hupdate]
  -- no call has begun with the engine of the update yet
  have hnone : Answering env (selected conf') s₁.calls (step env s₁ (.update conf')) := by
    rw [hstep]
    exact ⟨engine_update henabled hupdate, fun id call hold hget => by rw [hold] at hget; cases hget⟩
  have hafter : Sound env (step env s₁ (.update conf')) := hsound.kept hstore
  have hno : Meets (step env) (fun _ o => ∀ conf, o ≠ .update conf) (step env s₁ (.update conf')) between :=
    meets_of_forall (by rintro o ho _ conf rfl; exact hbetween conf ho) _
  obtain ⟨-, hanswers⟩ := run_invariant_of_meets
    (I := fun s => Sound env s ∧ Answering env (selected conf') s₁.calls s)
    (fun _ _ h ho => ⟨h.1.kept ho.1, (h.1.next ho.1).2 ho.2 h.2⟩)
    ⟨hafter, hnone⟩ (hmeets.and hno)
  have hanswer := hanswers.answers id call hid hcall
  rw [Call.Answers, hdone] at hanswer
  exact hanswer.symm

/-- The filter of a new safe search for Bing, with results that are kept for half an hour. -/
def bingFilter : Default := ⟨some (selected (DNSFilter.onlyBing true)), GoMap.empty, 1800 * 10 ^ 9⟩

theorem newDefault_onlyBing :
    Default.newDefault DNSFilter.oneHostEngine (DNSFilter.onlyBing true) (1800 * 10 ^ 9) = .ok bingFilter := rfl

/-- The configuration without any service. -/
def noServices : SafeSearchConfig := { enabled := true }

/-- A lookup of "www.bing.com" before the services are switched off, and one after it. -/
theorem upToDate_oneAfterAnother : UpToDate DNSFilter.oneHostEngine (start bingFilter)
    [.begin 0 "www.bing.com" typeA, .read 0 0, .search 0, .store 0 0, .update noServices,
      .begin 1 "www.bing.com" typeA, .read 1 0, .search 1] := by
  refine upToDate_run newDefault_onlyBing ⟨trivial, trivial, trivial, ?_, trivial, trivial, trivial, trivial, trivial⟩
  rintro host qtype res ⟨⟩
  rfl

/-- The services are switched off between the search and the store of the lookup, and the next lookup gets the
rewrite. -/
theorem not_upToDate_stored :
    ¬ ∀ (env : RuleEngine) (conf : SafeSearchConfig) (cacheTTL : ℤ) (filter : Default),
      Default.newDefault env conf cacheTTL = .ok filter → ∀ steps, UpToDate env (start filter) steps := by
  intro h
  have hstale := h DNSFilter.oneHostEngine _ _ _ newDefault_onlyBing _
    [.begin 0 "www.bing.com" typeA, .read 0 0, .search 0] [.store 0 0, .begin 1 "www.bing.com" typeA, .read 1 0] []
    noServices rfl rfl ⟨_, rfl⟩ (by simp) 1 _ _ rfl rfl rfl
  have hname : "strict.bing.com" = "" := congrArg Result.canonName (Except.ok.inj hstale)
  exact absurd hname (by decide)

end Interleaved

end AdGuardHome.Safesearch
