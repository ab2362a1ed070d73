import Mathlib.Data.List.Induction
import AdGuardHome.Aghuser.SessionStorage

/-!
# Histories of the session storage

What a history of operations says about a token, and that the storage answers as the history says.
-/

namespace AdGuardHome.Aghuser

open AdGuardHome.Lib

/-- The session as it is read from its record. -/
def Session.truncated (s : Session) : Session := { s with expire := unix s.expire * second }

@[simp] theorem Session.truncated_truncated (s : Session) : s.truncated.truncated = s.truncated := by
  simp [Session.truncated, unix_mul_second]

theorem truncated_expire_le (s : Session) : s.truncated.expire ≤ s.expire := by
  have := Int.emod_add_mul_ediv s.expire second
  have := Int.emod_nonneg s.expire (show second ≠ 0 by decide)
  have hfdiv : s.expire.fdiv second = s.expire / second := Int.fdiv_eq_ediv_of_nonneg _ (by decide)
  show s.expire.fdiv second * second ≤ s.expire
  rw [hfdiv, mul_comm]
  omega

theorem bboltEncode_truncated (s : Session) : bboltEncode s.truncated = bboltEncode s := by
  simp [bboltEncode, Session.truncated, unix_mul_second]

theorem Session.Representable.truncated {s : Session} (h : s.Representable) : s.truncated.Representable := by
  have hunix : unix s.truncated.expire = unix s.expire := unix_mul_second _
  exact ⟨h.login_lt, hunix ▸ h.expire_nonneg, hunix ▸ h.expire_lt⟩

namespace DefaultSessionStorage

variable {c : DefaultSessionStorageConfig}

/-! ## Issued tokens -/

/-- The session after the operations: a restart cuts its expiry to whole seconds. -/
def restarted (s : Session) (after : List (Op × ℤ)) : Session :=
  if ∃ o ∈ after, o.1 = .restart then s.truncated else s

theorem restarted_concat (s : Session) (after : List (Op × ℤ)) (o : Op × ℤ) :
    restarted s (after ++ [o]) = if o.1 = .restart then (restarted s after).truncated else restarted s after := by
  have hmem : (∃ o' ∈ after ++ [o], o'.1 = .restart) ↔ (∃ o' ∈ after, o'.1 = .restart) ∨ o.1 = .restart := by
    simp [or_and_right, exists_or]
  unfold restarted
  by_cases hafter : ∃ o' ∈ after, o'.1 = .restart
  · rw [if_pos (hmem.2 (.inl hafter)), if_pos hafter]
    split <;> simp
  · by_cases ho : o.1 = .restart
    · rw [if_pos (hmem.2 (.inr ho)), if_neg hafter, if_pos ho]
    · rw [if_neg (mt hmem.1 (not_or.2 ⟨hafter, ho⟩)), if_neg hafter, if_neg ho]

/-- The token has been issued for the session and has not been deleted since. -/
def Issued (c : DefaultSessionStorageConfig) (ops : List (Op × ℤ)) (t : SessionToken) (s : Session) : Prop :=
  ∃ before after u at_, ops = before ++ (.new t u, at_) :: after ∧ (∀ o ∈ after, o.1 ≠ .deleteByToken t) ∧
    s = restarted (newSession c t u at_) after

theorem not_issued_nil {t : SessionToken} {s : Session} : ¬ Issued c [] t s := by
  rintro ⟨before, after, u, at_, h, -⟩
  cases before <;> cases h

/-- What the last operation of a history changes. -/
theorem issued_concat {ops : List (Op × ℤ)} {o : Op × ℤ} {t : SessionToken} {s : Session} :
    Issued c (ops ++ [o]) t s ↔ (∃ u, o.1 = .new t u ∧ s = newSession c t u o.2) ∨
      o.1 ≠ .deleteByToken t ∧ ∃ s₀, Issued c ops t s₀ ∧ s = if o.1 = .restart then s₀.truncated else s₀ := by
  constructor
  · rintro ⟨before, after, u, at_, h, hdel, rfl⟩
    rcases List.eq_nil_or_concat after with rfl | ⟨after, o', rfl⟩
    · obtain ⟨rfl, ho⟩ := List.append_inj' h rfl
      cases ho
      exact .inl ⟨u, rfl, by simp [restarted]⟩
    · rw [List.concat_eq_append] at *
      obtain ⟨rfl, ho⟩ := List.append_inj' (h.trans (by simp : _ = (before ++ (.new t u, at_) :: after) ++ [o'])) rfl
      cases ho
      refine .inr ⟨hdel o (by simp), _, ⟨before, after, u, at_, rfl, fun o' ho' => hdel o' (by simp [ho']), rfl⟩, ?_⟩
      exact restarted_concat ..
  · rintro (⟨u, ho, rfl⟩ | ⟨ho, s₀, ⟨before, after, u, at_, rfl, hdel, rfl⟩, rfl⟩)
    · obtain ⟨op, at_⟩ := o
      cases ho
      exact ⟨ops, [], u, at_, rfl, by simp, by simp [restarted]⟩
    · refine ⟨before, after ++ [o], u, at_, by simp, fun o' ho' => ?_, (restarted_concat ..).symm⟩
      rcases List.mem_append.1 ho' with hmem | hmem
      · exact hdel o' hmem
      · cases List.mem_singleton.1 hmem
        exact ho

section Concat

variable {ops : List (Op × ℤ)} {t t' : SessionToken} {s : Session} {at_ : ℤ}

theorem issued_concat_new {u : User} : Issued c (ops ++ [(.new t' u, at_)]) t s ↔
    (t' = t ∧ s = newSession c t' u at_) ∨ Issued c ops t s := by
  rw [issued_concat]
  constructor
  · rintro (⟨u', ho, rfl⟩ | ⟨-, s₀, hs₀, rfl⟩)
    · cases ho
      exact .inl ⟨rfl, rfl⟩
    · exact .inr hs₀
  · rintro (⟨rfl, rfl⟩ | hs)
    · exact .inl ⟨u, rfl, rfl⟩
    · exact .inr ⟨by simp, s, hs, rfl⟩

theorem issued_concat_findByToken : Issued c (ops ++ [(.findByToken t', at_)]) t s ↔ Issued c ops t s := by
  simp [issued_concat]

theorem issued_concat_deleteByToken :
    Issued c (ops ++ [(.deleteByToken t', at_)]) t s ↔ t' ≠ t ∧ Issued c ops t s := by
  simp [issued_concat]

theorem issued_concat_restart :
    Issued c (ops ++ [(.restart, at_)]) t s ↔ ∃ s₀, Issued c ops t s₀ ∧ s = s₀.truncated := by
  simp [issued_concat]

end Concat

/-! ## Valid histories -/

/-- The token that the operation issues. -/
def Op.issues : Op → Option SessionToken
  | .new t _ => some t
  | _ => none

/-- Sessions are issued to users of the database, with distinct tokens and with expiries that a record can hold,
and time does not go back. -/
structure Valid (c : DefaultSessionStorageConfig) (ops : List (Op × ℤ)) (now : ℤ) : Prop where
  sorted : (ops.map (·.2)).Pairwise (· ≤ ·)
  le_now : ∀ o ∈ ops, o.2 ≤ now
  nodup : (ops.filterMap (·.1.issues)).Nodup
  known : ∀ t u at_, (.new t u, at_) ∈ ops → ∃ login, c.userDB.byLogin login = some u
  representable : ∀ t u at_, (.new t u, at_) ∈ ops → (newSession c t u at_).Representable

theorem Valid.concat {ops : List (Op × ℤ)} {o : Op × ℤ} {now : ℤ} (h : Valid c (ops ++ [o]) now) :
    Valid c ops o.2 := by
  have hsorted := h.sorted
  rw [List.map_append, List.pairwise_append] at hsorted
  have hnodup := h.nodup
  rw [List.filterMap_append, List.nodup_append] at hnodup
  refine ⟨hsorted.1, fun o' ho' => ?_, hnodup.1, fun t u at_ hmem => ?_, fun t u at_ hmem => ?_⟩
  · exact hsorted.2.2 o'.2 (List.mem_map_of_mem ho') o.2 (by simp)
  · exact h.known t u at_ (List.mem_append_left _ hmem)
  · exact h.representable t u at_ (List.mem_append_left _ hmem)

/-- A token that is issued last has not been issued before. -/
theorem Valid.not_issued {ops : List (Op × ℤ)} {t : SessionToken} {u : User} {at_ now : ℤ}
    (h : Valid c (ops ++ [(.new t u, at_)]) now) (s : Session) : ¬ Issued c ops t s := by
  rintro ⟨before, after, u', at_', rfl, -⟩
  have hnodup := h.nodup
  rw [List.filterMap_append, List.nodup_append] at hnodup
  refine hnodup.2.2 t ?_ t (by simp [Op.issues]) rfl
  simp [Op.issues]

/-- The record of an issued session says all that is known of it. -/
theorem Valid.issued {ops : List (Op × ℤ)} {now : ℤ} (h : Valid c ops now) {t : SessionToken} {s : Session}
    (hs : Issued c ops t s) :
    s.Representable ∧ s.token = t ∧ ∃ u, c.userDB.byLogin s.userLogin = some u ∧ u.id = s.userID := by
  obtain ⟨before, after, u, at_, rfl, -, rfl⟩ := hs
  obtain ⟨login, hlogin⟩ := h.known t u at_ (by simp)
  have hrep := h.representable t u at_ (by simp)
  have hu : c.userDB.byLogin u.login = some u := by rwa [DefaultDB.login_of_byLogin hlogin]
  unfold restarted
  split
  · exact ⟨hrep.truncated, rfl, u, hu, rfl⟩
  · exact ⟨hrep, rfl, u, hu, rfl⟩

/-- A record that is read again. -/
theorem bboltSessionHandler_bboltEncode {s : Session} {u : User} (hs : s.Representable)
    (hu : c.userDB.byLogin s.userLogin = some u) (hid : u.id = s.userID) (now : ℤ) :
    bboltSessionHandler c now s.token (bboltEncode s)
      = if s.truncated.expire < now then none else some s.truncated := by
  simp only [bboltSessionHandler, bboltDecode_bboltEncode hs, hu, hid, Session.truncated]
  rfl

/-! ## The storage and its history -/

/-- The sessions in memory are those in the database, and those that the history has issued apart from some that
have expired. -/
structure Agrees (c : DefaultSessionStorageConfig) (ops : List (Op × ℤ)) (now : ℤ) (ds : DefaultSessionStorage) :
    Prop where
  stored : ∀ t, (ds.bucket.getD GoMap.empty).get t = (ds.sessions.get t).map bboltEncode
  issued : ∀ t s, ds.sessions.get t = some s → Issued c ops t s
  complete : ∀ t s, Issued c ops t s → ds.sessions.get t = some s ∨ s.expire < now

theorem deleteByToken_cases (ds : DefaultSessionStorage) (t : SessionToken) :
    (ds.bucket = none ∧ ds.deleteByToken t = .error "no bucket") ∨
      ∃ bkt, ds.bucket = some bkt ∧ ds.deleteByToken t = .ok ⟨some (bkt.del t), ds.sessions.del t⟩ := by
  unfold deleteByToken remove
  cases ds.bucket with
  | none => exact .inl ⟨rfl, rfl⟩
  | some bkt => exact .inr ⟨bkt, rfl, rfl⟩

theorem get_new {ds : DefaultSessionStorage} {t : SessionToken} {u : User} {now : ℤ} (t' : SessionToken) :
    (ds.new c t u now).sessions.get t' = if t' = t then some (newSession c t u now) else ds.sessions.get t' :=
  GoMap.get_set ..

namespace Agrees

variable {ops : List (Op × ℤ)} {now now' : ℤ} {ds : DefaultSessionStorage} (h : Agrees c ops now ds)
include h

/-- The time passes. -/
theorem tick (hle : now ≤ now') : Agrees c ops now' ds :=
  ⟨h.stored, h.issued, fun t s hs => (h.complete t s hs).imp_right hle.trans_lt'⟩

theorem bucket_ne_none {t : SessionToken} {s : Session} (hs : ds.sessions.get t = some s) : ds.bucket ≠ none := by
  intro hnone
  have := h.stored t
  rw [hnone, hs] at this
  simp at this

theorem new {t : SessionToken} {u : User} (hnew : ∀ s, ¬ Issued c ops t s) :
    Agrees c (ops ++ [(.new t u, now)]) now (ds.new c t u now) := by
  refine ⟨fun t' => ?_, fun t' s hs => ?_, fun t' s hs => ?_⟩
  · have hbucket : ((ds.new c t u now).bucket.getD GoMap.empty).get t'
        = if t' = t then some (bboltEncode (newSession c t u now)) else (ds.bucket.getD GoMap.empty).get t' :=
      GoMap.get_set ..
    rw [hbucket, get_new, h.stored]
    split <;> rfl
  · rw [get_new] at hs
    rw [issued_concat_new]
    split at hs
    next heq =>
      cases hs
      exact .inl ⟨heq.symm, rfl⟩
    · exact .inr (h.issued t' s hs)
  · rw [get_new]
    rcases issued_concat_new.1 hs with ⟨rfl, rfl⟩ | hs
    · exact .inl (if_pos rfl)
    · have hne : t' ≠ t := fun heq => hnew s (heq ▸ hs)
      rw [if_neg hne]
      exact h.complete t' s hs

/-- The session of a token is removed from the memory and from the database. -/
theorem stored_del {bkt : GoMap SessionToken Bytes} (hbkt : ds.bucket = some bkt) (t t' : SessionToken) :
    (bkt.del t).get t' = ((ds.sessions.del t).get t').map bboltEncode := by
  have hstored := h.stored t'
  rw [hbkt, Option.getD_some] at hstored
  rw [GoMap.get_del, GoMap.get_del, hstored]
  split <;> rfl

theorem findByToken (t : SessionToken) :
    Agrees c (ops ++ [(.findByToken t, now)]) now (ds.findByToken t now).1 := by
  have hsame : Agrees c (ops ++ [(.findByToken t, now)]) now ds :=
    ⟨h.stored, fun t s hs => issued_concat_findByToken.2 (h.issued t s hs),
      fun t s hs => h.complete t s (issued_concat_findByToken.1 hs)⟩
  unfold DefaultSessionStorage.findByToken
  split
  · exact hsame
  next s hs =>
    split
    next hexp =>
      rcases deleteByToken_cases ds t with ⟨-, hdel⟩ | ⟨bkt, hbkt, hdel⟩
      · simp only [hdel]
        exact hsame
      · simp only [hdel]
        refine ⟨h.stored_del hbkt t, fun t' s' hs' => ?_, fun t' s' hs' => ?_⟩
        · rw [GoMap.get_del] at hs'
          split at hs'
          · cases hs'
          · exact hsame.issued t' s' hs'
        · rw [GoMap.get_del]
          rcases hsame.complete t' s' hs' with hget | hexp'
          · by_cases heq : t' = t
            · subst heq
              cases hs.symm.trans hget
              exact .inr hexp
            · exact .inl (by rw [if_neg heq, hget])
          · exact .inr hexp'
    · exact hsame

theorem deleteByToken (t : SessionToken) :
    Agrees c (ops ++ [(.deleteByToken t, now')]) now ((ds.deleteByToken t).toOption.getD ds) := by
  rcases deleteByToken_cases ds t with ⟨hnone, hdel⟩ | ⟨bkt, hbkt, hdel⟩
  · rw [hdel]
    refine ⟨h.stored, fun t' s hs => absurd hnone (h.bucket_ne_none hs), fun t' s hs => ?_⟩
    exact h.complete t' s (issued_concat_deleteByToken.1 hs).2
  · rw [hdel]
    refine ⟨h.stored_del hbkt t, fun t' s hs => ?_, fun t' s hs => ?_⟩
    · have hs' : (ds.sessions.del t).get t' = some s := hs
      rw [GoMap.get_del] at hs'
      split at hs'
      · cases hs'
      next hne => exact issued_concat_deleteByToken.2 ⟨Ne.symm hne, h.issued t' s hs'⟩
    · obtain ⟨hne, hs⟩ := issued_concat_deleteByToken.1 hs
      show (ds.sessions.del t).get t' = some s ∨ _
      rw [GoMap.get_del_ne _ hne.symm]
      exact h.complete t' s hs

/-- What a restart makes of the record of a token. -/
theorem bind_bboltSessionHandler (hvalid : Valid c ops now) (t : SessionToken) :
    ((ds.sessions.get t).map bboltEncode).bind (bboltSessionHandler c now t)
      = (ds.sessions.get t).bind fun s => if s.truncated.expire < now then none else some s.truncated := by
  cases hs : ds.sessions.get t with
  | none => rfl
  | some s =>
    obtain ⟨hrep, rfl, u, hu, hid⟩ := hvalid.issued (h.issued t s hs)
    exact bboltSessionHandler_bboltEncode hrep hu hid now

theorem get_sessions_loadSessions (hvalid : Valid c ops now) (t : SessionToken) :
    (loadSessions c ds.bucket now).sessions.get t
      = (ds.sessions.get t).bind fun s => if s.truncated.expire < now then none else some s.truncated := by
  rw [← h.bind_bboltSessionHandler hvalid, ← h.stored]
  cases ds.bucket with
  | none => rfl
  | some bkt => exact GoMap.get_sift ..

/-- The records that a restart deletes are those it does not read. -/
theorem get_bucket_loadSessions (hvalid : Valid c ops now) (t : SessionToken) :
    ((loadSessions c ds.bucket now).bucket.getD GoMap.empty).get t
      = ((loadSessions c ds.bucket now).sessions.get t).map bboltEncode := by
  have hstored := h.stored t
  rw [h.get_sessions_loadSessions hvalid]
  cases hbkt : ds.bucket with
  | none =>
    rw [hbkt] at hstored
    have hs : ds.sessions.get t = none := by
      simpa [eq_comm] using hstored
    rw [hs]
    rfl
  | some bkt =>
    rw [hbkt, Option.getD_some] at hstored
    have hdel : (loadSessions c (some bkt) now).bucket
        = some (bkt.delAll (bkt.sift (bboltSessionHandler c now)).2) := by
      unfold loadSessions
      dsimp only
      split
      next hlen =>
        rw [List.length_eq_zero_iff.1 hlen]
        rfl
      · rfl
    rw [hdel, Option.getD_some, GoMap.get_delAll_sift, hstored]
    cases hs : ds.sessions.get t with
    | none => rfl
    | some s =>
      obtain ⟨hrep, rfl, u, hu, hid⟩ := hvalid.issued (h.issued t s hs)
      simp only [Option.map_some, Option.filter, bboltSessionHandler_bboltEncode hrep hu hid, Option.bind_some]
      split
      · rfl
      · rw [Option.map_some, bboltEncode_truncated]
        rfl

theorem restart (hvalid : Valid c ops now) :
    Agrees c (ops ++ [(.restart, now)]) now (loadSessions c ds.bucket now) := by
  refine ⟨h.get_bucket_loadSessions hvalid, fun t s hs => ?_, fun t s hs => ?_⟩
  · rw [h.get_sessions_loadSessions hvalid] at hs
    obtain ⟨s₀, hs₀, hload⟩ := Option.bind_eq_some_iff.1 hs
    split at hload
    · cases hload
    · cases hload
      exact issued_concat_restart.2 ⟨s₀, h.issued t s₀ hs₀, rfl⟩
  · obtain ⟨s₀, hs₀, rfl⟩ := issued_concat_restart.1 hs
    rw [h.get_sessions_loadSessions hvalid]
    rcases h.complete t s₀ hs₀ with hget | hexp
    · rw [hget, Option.bind_some]
      split
      next hexp => exact .inr hexp
      · exact .inl rfl
    · exact .inr (lt_of_le_of_lt (truncated_expire_le s₀) hexp)

end Agrees

theorem agrees_run (ops : List (Op × ℤ)) {now : ℤ} (hvalid : Valid c ops now) :
    Agrees c ops now (run (step c) fresh ops) := by
  induction ops using List.reverseRecOn generalizing now with
  | nil =>
    refine ⟨fun t => ?_, fun t s hs => ?_, fun t s hs => absurd hs not_issued_nil⟩
    · simp [run, fresh]
    · simp [run, fresh] at hs
  | append_singleton ops o ih =>
    obtain ⟨op, at_⟩ := o
    have hbefore := hvalid.concat
    have hagrees := ih hbefore
    have hrun : run (step c) fresh (ops ++ [(op, at_)]) = step c (run (step c) fresh ops) (op, at_) := by
      simp [run]
    rw [hrun]
    suffices hat : Agrees c (ops ++ [(op, at_)]) at_ (step c (run (step c) fresh ops) (op, at_)) from
      hat.tick (hvalid.le_now (op, at_) (by simp))
    cases op with
    | new t u => exact hagrees.new hvalid.not_issued
    | findByToken t => exact hagrees.findByToken t
    | deleteByToken t => exact hagrees.deleteByToken t
    | restart => exact hagrees.restart hbefore

/-- After any valid history, a token finds a session if and only if the history has issued it and it has not
expired. -/
theorem findByToken_run_iff {ops : List (Op × ℤ)} {now : ℤ} (hvalid : Valid c ops now) (t : SessionToken) (s : Session) :
    ((run (step c) fresh ops).findByToken t now).2 = .ok (some s) ↔ Issued c ops t s ∧ now ≤ s.expire := by
  have h := agrees_run ops hvalid
  generalize run (step c) fresh ops = ds at h
  constructor
  · intro hfind
    unfold findByToken at hfind
    split at hfind
    · cases hfind
    next s' hs' =>
      split at hfind
      · split at hfind <;> cases hfind
      next hexp =>
        cases hfind
        exact ⟨h.issued t s hs', not_lt.1 hexp⟩
  · rintro ⟨hs, hle⟩
    have hget := (h.complete t s hs).resolve_right (not_lt.2 hle)
    simp only [findByToken, hget, if_neg (not_lt.2 hle)]

/-- **The session storage is right**: it finds the sessions that the history says, and reads the records that it
can write. -/
theorem sessions_correct (c : DefaultSessionStorageConfig) :
    (∀ (ops : List (Op × ℤ)) (now : ℤ), Valid c ops now → ∀ (t : SessionToken) (s : Session),
      ((run (step c) fresh ops).findByToken t now).2 = .ok (some s) ↔ Issued c ops t s ∧ now ≤ s.expire) ∧
    ∀ data : Bytes, (∃ r, bboltDecode data = .ok r) ↔ ∃ s : Session, s.Representable ∧ bboltEncode s = data :=
  ⟨fun _ _ hvalid => findByToken_run_iff hvalid, bboltDecode_ok_iff⟩

/-- One user, whose sessions last a minute. -/
def oneUser : DefaultSessionStorageConfig where
  userDB := (DefaultDB.new.create ⟨[97], Vector.replicate 16 1⟩).toOption.getD DefaultDB.new
  sessionTTL := 60 * second

/-- A session that is found after a restart. -/
theorem sessions_correct_restart :
    ((run (step oneUser) fresh [(.new (Vector.replicate 16 2) ⟨[97], Vector.replicate 16 1⟩, 1), (.restart, second)]
      ).findByToken (Vector.replicate 16 2) (2 * second)).2
      = .ok (some ⟨60 * second, [97], Vector.replicate 16 2, Vector.replicate 16 1⟩) := by
  refine ((sessions_correct oneUser).1 _ _ ⟨by decide, by decide, by decide, ?_, ?_⟩ _ _).2 ⟨?_, by decide⟩
  · intro t u at_ h
    simp only [List.mem_cons, Prod.mk.injEq, Op.new.injEq, reduceCtorEq, false_and, List.not_mem_nil, or_false] at h
    obtain ⟨⟨-, rfl⟩, -⟩ := h
    exact ⟨[97], by decide⟩
  · intro t u at_ h
    simp only [List.mem_cons, Prod.mk.injEq, Op.new.injEq, reduceCtorEq, false_and, List.not_mem_nil, or_false] at h
    obtain ⟨⟨rfl, rfl⟩, rfl⟩ := h
    exact ⟨by decide, by decide, by decide⟩
  · exact ⟨[], [(.restart, second)], _, _, rfl, by decide, by decide⟩

end DefaultSessionStorage

end AdGuardHome.Aghuser
