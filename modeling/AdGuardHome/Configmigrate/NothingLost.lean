import AdGuardHome.Lib.Each
import AdGuardHome.Configmigrate.Keeps

/-!
# Settings that the migrations lose

A run of migrations keeps every setting if the document before each of them is clear for it.  A migration that writes
an object over one that is there loses what this one holds, and so does one that removes a value before it finds that
it has nothing to do with it.
-/

namespace AdGuardHome.Configmigrate

open AdGuardHome.Lib

/-! ## Runs -/

/-- The migration to the version after `n` keeps what its documentation says on the documents that are clear for it. -/
def KeepsClear (env : Env) (n : ℕ) (f : Fields → Except Err Fields) : Prop :=
  ∀ m m', f m = .ok m' → Clear (n + 1) m → Keeps (doc env (n + 1)) m m'

theorem keepsClear_upgrades (env : Env) : Each (KeepsClear env) 0 (upgrades env) :=
  ⟨fun _ _ h _ => migrateTo1_keeps h, fun _ _ => migrateTo2_keeps, fun _ _ h _ => migrateTo3_keeps h,
    fun _ _ => migrateTo4_keeps, fun _ _ => migrateTo5_keeps, fun _ _ => migrateTo6_keeps,
    fun _ _ => migrateTo7_keeps, fun _ _ => migrateTo8_keeps, fun _ _ => migrateTo9_keeps,
    fun _ _ h _ => migrateTo10_keeps h, fun _ _ => migrateTo11_keeps, fun _ _ => migrateTo12_keeps,
    fun _ _ => migrateTo13_keeps, fun _ _ => migrateTo14_keeps, fun _ _ => migrateTo15_keeps,
    fun _ _ => migrateTo16_keeps, fun _ _ => migrateTo17_keeps, fun _ _ => migrateTo18_keeps,
    fun _ _ => migrateTo19_keeps, fun _ _ => migrateTo20_keeps, fun _ _ => migrateTo21_keeps,
    fun _ _ => migrateTo22_keeps, fun _ _ => migrateTo23_keeps, fun _ _ => migrateTo24_keeps,
    fun _ _ => migrateTo25_keeps, fun _ _ => migrateTo26_keeps, fun _ _ h _ => migrateTo27_keeps h,
    fun _ _ => migrateTo28_keeps, fun _ _ => migrateTo29_keeps, fun _ _ => migrateTo30_keeps,
    fun _ _ => migrateTo31_keeps, fun _ _ => migrateTo32_keeps, fun _ _ => migrateTo33_keeps,
    fun _ _ => migrateTo34_keeps, trivial⟩

/-- Each document of the run is clear for the migration that it is given to. -/
def ClearRun : ℕ → List (Fields → Except Err Fields) → Fields → Prop
  | _, [], _ => True
  | cur, f :: fs, m => Clear (cur + 1) m ∧ ∀ m', f m = .ok m' → ClearRun (cur + 1) fs m'

/-- Where the documentation of all the migrations of a run has the value at a path in the end, and what it is there. -/
def Fate (env : Env) : ℕ → List (Fields → Except Err Fields) → Fields → Path → Val → Path → Val → Prop
  | _, [], _, p, v, p', v' => p' = p ∧ v' = v
  | cur, f :: fs, m, p, v, p', v' => ∃ m₁ p₁ v₁, f m = .ok m₁ ∧ (doc env (cur + 1)).Takes m p v p₁ v₁ ∧
      Fate env (cur + 1) fs m₁ p₁ v₁ p' v'

variable {env : Env} {d : Doc} {m m' : Fields} {p p' : Path} {v v' w : Val} {cur : ℕ}
  {fs : List (Fields → Except Err Fields)}

/-- A step of a run: what is kept of a value so far is kept further, where the documentation has it. -/
theorem Keeps.takes (h : Keeps d m m') (ht : d.Takes m p v p' v') (hw : Fields.walk m p = some w) (hk : Kept v w) :
    ∃ w', Fields.walk m' p' = some w' ∧ Kept v' w' := by
  cases ht with
  | stays _ _ hN =>
    obtain ⟨w', hw', hk'⟩ := h.frame p w hw hN
    exact ⟨w', hw', hk.trans hk'⟩
  | moved src dst q _ hmem =>
    rw [Fields.walk, walk_append, Option.bind_eq_some_iff] at hw
    obtain ⟨u, hu, hw⟩ := hw
    refine ⟨w, ?_, hk⟩
    rw [Fields.walk, walk_append, Option.bind_eq_some_iff]
    exact ⟨u, h.moved src dst hmem u hu, hw⟩
  | converted c _ hmem => exact ⟨c.conv m w, h.converted c hmem w hw, c.keeps m v w hk⟩

theorem walk_of_fate {out : Fields} (hfs : Each (KeepsClear env) cur fs) (hrun : runUpgrades cur fs m = .ok out)
    (hclear : ClearRun cur fs m) (hfate : Fate env cur fs m p v p' v') (hw : Fields.walk m p = some w)
    (hk : Kept v w) : ∃ w', Fields.walk out p' = some w' ∧ Kept v' w' := by
  induction fs generalizing cur m p v w with
  | nil =>
    cases hrun
    obtain ⟨rfl, rfl⟩ := hfate
    exact ⟨w, hw, hk⟩
  | cons f fs ih =>
    obtain ⟨m₁, p₁, v₁, hf, ht, hfate⟩ := hfate
    rw [runUpgrades, hf] at hrun
    obtain ⟨w₁, hw₁, hk₁⟩ := (hfs.1 m m₁ hf hclear.1).takes ht hw hk
    exact ih hfs.2 hrun (hclear.2 m₁ hf) hfate hw₁ hk₁

/-- A path that no documentation names stays what it is. -/
theorem fate_of_not_named {out : Fields} (hrun : runUpgrades cur fs m = .ok out)
    (h : ∀ n, cur < n → n ≤ cur + fs.length → ¬ (doc env n).Named p) (v : Val) : Fate env cur fs m p v p v := by
  induction fs generalizing cur m with
  | nil => exact ⟨rfl, rfl⟩
  | cons f fs ih =>
    rw [List.length_cons] at h
    rw [runUpgrades] at hrun
    cases hf : f m with
    | error err =>
      rw [hf] at hrun
      cases hrun
    | ok m₁ =>
      rw [hf] at hrun
      exact ⟨m₁, p, v, hf, .stays p v (h (cur + 1) (by omega) (by omega)),
        ih hrun fun n hn hn' => h n (by omega) (by omega)⟩

/-! ## Documents -/

/-- A document is kept if it is the same, or if it is still an object, or a list of the same length. -/
inductive Yaml.Kept : Yaml → Yaml → Prop
  | same (y : Yaml) : Kept y y
  | map (m m' : List (String × Yaml)) : Kept (.map m) (.map m')
  | list (l l' : List Yaml) : l'.length = l.length → Kept (.list l) (.list l')

theorem length_encodeList (env : Env) (l : List Val) : (encodeList env l).length = l.length := by
  induction l with
  | nil => rfl
  | cons v l ih => rw [encodeList, List.length_cons, List.length_cons, ih]

theorem Kept.encode (env : Env) (h : Kept v w) : Yaml.Kept (v.encode env) (w.encode env) := by
  cases h with
  | same => exact .same _
  | map m m' => exact .map _ _
  | list l l' hlen =>
    refine .list _ _ ?_
    rw [length_encodeList, length_encodeList, hlen]

theorem lookup_encodeFields {k : String} (h : Fields.get m k = some v) :
    (encodeFields env m).lookup k = some (v.encode env) := by
  induction m with
  | nil => cases h
  | cons q m ih =>
    obtain ⟨k₀, w⟩ := q
    rw [Fields.get_cons] at h
    rw [encodeFields, lookup_cons_ite]
    by_cases hk : k = k₀
    · rw [if_pos hk] at h ⊢
      cases h
      rfl
    · rw [if_neg hk] at h ⊢
      exact ih h

theorem getElem?_encodeList {l : List Val} {i : ℕ} (h : l[i]? = some v) :
    (encodeList env l)[i]? = some (v.encode env) := by
  induction l generalizing i with
  | nil => cases h
  | cons w l ih =>
    cases i with
    | zero =>
      cases h
      rfl
    | succ i => exact ih h

theorem walk_encode (h : v.walk p = some w) : (v.encode env).walk p = some (w.encode env) := by
  induction p generalizing v with
  | nil =>
    cases h
    rfl
  | cons s p ih =>
    rw [Val.walk, Option.bind_eq_some_iff] at h
    obtain ⟨u, hu, h⟩ := h
    have hchild : (v.encode env).child s = some (u.encode env) := by
      cases v with
      | map m =>
        cases s with
        | key k => exact lookup_encodeFields hu
        | idx => cases hu
      | list l =>
        cases s with
        | key => cases hu
        | idx i => exact getElem?_encodeList hu
      | _ => cases hu
    rw [Yaml.walk, hchild]
    exact ih h

theorem get_decodeFields {k : String} {y : Yaml} {b : List (String × Yaml)} (h : b.lookup k = some y) :
    Fields.get (decodeFields b) k = some y.decode := by
  induction b with
  | nil => cases h
  | cons q b ih =>
    obtain ⟨k₀, z⟩ := q
    rw [lookup_cons_ite] at h
    rw [decodeFields, Fields.get_cons]
    by_cases hk : k = k₀
    · rw [if_pos hk] at h ⊢
      cases h
      rfl
    · rw [if_neg hk] at h ⊢
      exact ih h

theorem getElem?_decodeList {l : List Yaml} {i : ℕ} {y : Yaml} (h : l[i]? = some y) :
    (decodeList l)[i]? = some y.decode := by
  induction l generalizing i with
  | nil => cases h
  | cons z l ih =>
    cases i with
    | zero =>
      cases h
      rfl
    | succ i => exact ih h

theorem walk_decode {y z : Yaml} (h : y.walk p = some z) : y.decode.walk p = some z.decode := by
  induction p generalizing y with
  | nil =>
    cases h
    rfl
  | cons s p ih =>
    rw [Yaml.walk, Option.bind_eq_some_iff] at h
    obtain ⟨u, hu, h⟩ := h
    have hchild : y.decode.child s = some u.decode := by
      cases y with
      | map b =>
        cases s with
        | key k => exact get_decodeFields hu
        | idx => cases hu
      | list l =>
        cases s with
        | key => cases hu
        | idx i => exact getElem?_decodeList hu
      | _ => cases hu
    rw [Val.walk, hchild]
    exact ih h

/-! ## The migrator -/

/-- No setting of a document is lost by its migration from a version to another one: what no documentation names is
where it was, and the rest is where the documentation has it. -/
structure NothingLost (env : Env) (current target : ℕ) (body out : List (String × Yaml)) : Prop where
  unnamed : ∀ p y, (Yaml.map body).walk p = some y →
    (∀ n, current < n → n ≤ target → ¬ (doc env n).Named p) → ∃ y', (Yaml.map out).walk p = some y' ∧ y.Kept y'
  named : ∀ p y, (Yaml.map body).walk p = some y → ∀ p' v',
    Fate env current (slice env current target) (decodeFields body) p y.decode p' v' →
      ∃ y', (Yaml.map out).walk p' = some y' ∧ (v'.encode env).Kept y'

theorem migrate_versions {body out : List (String × Yaml)} {current target : ℕ} {changed : Bool}
    (hcur : schemaVersion (decodeFields body) = .ok current) (h : migrate env body target = .ok (out, changed)) :
    current ≤ target ∧ target ≤ lastSchemaVersion := by
  rw [migrate, hcur] at h
  obtain ⟨_, ⟨⟩, h⟩ := bind_eq_ok.1 h
  split at h
  · cases h
  · split at h
    · cases h
    · omega

theorem nothingLost_of_clearRun (env : Env) (body : List (String × Yaml)) {current target : ℕ}
    {out : List (String × Yaml)} {changed : Bool} (hcur : schemaVersion (decodeFields body) = .ok current)
    (h : migrate env body target = .ok (out, changed))
    (hclear : ClearRun current (slice env current target) (decodeFields body)) :
    NothingLost env current target body out := by
  obtain ⟨hle, hlast⟩ := migrate_versions hcur h
  have hmigrated : migrated env body target = .ok out := by
    rw [migrated, h]
    rfl
  rw [migrated_eq hcur hle hlast] at hmigrated
  obtain ⟨tree, hrun, rfl⟩ := map_eq_ok.1 hmigrated
  have hfate : ∀ p y, (Yaml.map body).walk p = some y → ∀ p' v',
      Fate env current (slice env current target) (decodeFields body) p y.decode p' v' →
        ∃ y', (Yaml.map (encodeFields env tree)).walk p' = some y' ∧ (v'.encode env).Kept y' := by
    intro p y hy p' v' hfate
    obtain ⟨w, hw, hk⟩ := walk_of_fate ((keepsClear_upgrades env).slice current target) hrun hclear hfate
      (walk_decode hy) (.same _)
    exact ⟨w.encode env, walk_encode hw, hk.encode env⟩
  refine ⟨fun p y hy hnamed => ?_, hfate⟩
  have hstays := fate_of_not_named (v := y.decode) hrun fun n hn hn' => hnamed n hn (by
    rw [length_slice env current hlast] at hn'
    omega)
  obtain ⟨y', hy', hk⟩ := hfate p y hy p y.decode hstays
  exact ⟨y', hy', by rwa [encode_decode] at hk⟩

/-- A document with settings of the query log and of the statistics among those of the DNS server. -/
def loggingBody : List (String × Yaml) :=
  [("schema_version", .int 14), ("dns", .map [("upstream_dns", .list [.str "1.1.1.1"]),
    ("querylog_enabled", .bool false), ("statistics_interval", .int 7)])]

/-- The document in two sections of its own. -/
def loggingOut : List (String × Yaml) :=
  [("schema_version", .int 16), ("dns", .map [("upstream_dns", .list [.str "1.1.1.1"])]),
    ("querylog", .map [("ignored", .list []), ("enabled", .bool false), ("file_enabled", .bool true),
      ("interval", .str "2160h"), ("size_memory", .int 1000)]),
    ("statistics", .map [("enabled", .bool true), ("interval", .int 7), ("ignored", .list [])])]

theorem nothingLost_loggingBody :
    migrate hoursEnv loggingBody 16 = .ok (loggingOut, true) ∧
      NothingLost hoursEnv 14 16 loggingBody loggingOut := by
  have h : migrate hoursEnv loggingBody 16 = .ok (loggingOut, true) := rfl
  refine ⟨h, nothingLost_of_clearRun hoursEnv loggingBody rfl h ⟨⟨?_, fun _ s => ?_⟩, fun m hm => ⟨fun _ s => ?_, ?_⟩⟩⟩
  · intro mv hmv
    simp only [qlogMoves, List.mem_cons, List.not_mem_nil, or_false] at hmv
    right
    rcases hmv with rfl | rfl | rfl | rfl <;> exact nofun
  · rfl
  · cases hm
    rfl
  · exact fun _ _ => trivial

/-- A document with a directory of the query log, and one with the name of a user but no password. -/
def directoryBody : List (String × Yaml) :=
  [("schema_version", .int 14), ("dns", .map []), ("querylog", .map [("dir_path", .str "/var/log")])]

def nameBody : List (String × Yaml) := [("schema_version", .int 4), ("auth_name", .str "admin")]

/-- The section of the query log is written over, and the name is removed before the password is looked for. -/
theorem not_nothingLost :
    (∃ out, migrate hoursEnv directoryBody 15 = .ok (out, true) ∧ ¬ NothingLost hoursEnv 14 15 directoryBody out) ∧
      ∃ out, migrate hoursEnv nameBody 5 = .ok (out, true) ∧ ¬ NothingLost hoursEnv 4 5 nameBody out := by
  refine ⟨⟨_, rfl, fun h => ?_⟩, ⟨_, rfl, fun h => ?_⟩⟩
  · have hnamed : ∀ n, 14 < n → n ≤ 15 → ¬ (doc hoursEnv n).Named ["querylog", "dir_path"] := by
      intro n hn hn'
      obtain rfl : n = 15 := by omega
      rintro (⟨q, hq⟩ | hsection | ⟨t, ⟨dst, k, -, ⟨⟨⟩⟩⟩ | ⟨c, ⟨⟩, -⟩, ⟨q, hq⟩ | ⟨q, hq⟩⟩)
      · simp at hq
      · cases hsection
      · simp at hq
      · simp at hq
    obtain ⟨y, ⟨⟩, -⟩ := h.unnamed ["querylog", "dir_path"] (.str "/var/log") rfl hnamed
  · obtain ⟨y, ⟨⟩, -⟩ := h.named ["auth_name"] (.str "admin") rfl ["users", .idx 0, "name"] (.str "admin")
      ⟨_, _, _, rfl, .moved ["auth_name"] ["users", .idx 0, "name"] [] (.str "admin") rfl, rfl, rfl⟩

end AdGuardHome.Configmigrate
