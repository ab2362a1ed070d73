import AdGuardHome.Lib.Each
import AdGuardHome.Configmigrate.Respects

/-!
# Migrations in one run or in several

A document that is migrated to a version, written, read and migrated further is the document that is migrated at
once: the tree that is read is similar to the tree that was written, and the migrations respect similar trees.
-/

namespace AdGuardHome.Configmigrate

open AdGuardHome.Lib

/-! ## Reading what was written -/

variable (env : Env)

mutual

theorem encode_decode : ∀ y : Yaml, y.decode.encode env = y
  | .null | .bool _ | .int _ | .str _ => rfl
  | .list l => by rw [Yaml.decode, Val.encode, encodeList_decodeList l]
  | .map m => by rw [Yaml.decode, Val.encode, encodeFields_decodeFields m]

theorem encodeList_decodeList : ∀ l : List Yaml, encodeList env (decodeList l) = l
  | [] => rfl
  | y :: l => by rw [decodeList, encodeList, encode_decode y, encodeList_decodeList l]

theorem encodeFields_decodeFields : ∀ m : List (String × Yaml), encodeFields env (decodeFields m) = m
  | [] => rfl
  | (k, y) :: m => by rw [decodeFields, encodeFields, encode_decode y, encodeFields_decodeFields m]

end

mutual

theorem ok_decode (k : String) : ∀ y : Yaml, Ok k y.decode
  | .null | .bool _ | .int _ | .str _ => trivial
  | .list l => okList_decodeList l
  | .map m => okFields_decodeFields m

theorem okList_decodeList : ∀ l : List Yaml, OkList (decodeList l)
  | [] => trivial
  | y :: l => ⟨ok_decode "" y, okList_decodeList l⟩

theorem okFields_decodeFields : ∀ m : List (String × Yaml), OkFields (decodeFields m)
  | [] => trivial
  | (k, y) :: m => ⟨ok_decode k y, okFields_decodeFields m⟩

end

variable {env} {m m' : Fields} {n : Option ℤ} {cur : ℕ} {fs : List (Fields → Except Err Fields)}

/-- A tree is similar to the one that is read from its document. -/
theorem SimFields.decode_encode (h : OkFields m) : SimFields env m (decodeFields (encodeFields env m)) :=
  simFields_iff.2 ⟨(encodeFields_decodeFields env _).symm, h, okFields_decodeFields _⟩

/-! ## Runs of migrations -/

variable (env)

/-- The migrations respect similar documents, the first of them from the version `cur`. -/
def Chain : ℕ → List (Fields → Except Err Fields) → Prop
  | _, [] => True
  | cur, f :: fs => Respects env (cur + 1 : ℕ) f ∧ Chain (cur + 1) fs

variable {env}

theorem chain_upgrades : Chain env 0 (upgrades env) :=
  ⟨migrateTo1_respects, migrateTo2_respects, migrateTo3_respects, migrateTo4_respects, migrateTo5_respects,
    migrateTo6_respects, migrateTo7_respects, migrateTo8_respects, migrateTo9_respects, migrateTo10_respects,
    migrateTo11_respects, migrateTo12_respects, migrateTo13_respects, migrateTo14_respects, migrateTo15_respects,
    migrateTo16_respects, migrateTo17_respects, migrateTo18_respects, migrateTo19_respects, migrateTo20_respects,
    migrateTo21_respects, migrateTo22_respects, migrateTo23_respects, migrateTo24_respects, migrateTo25_respects,
    migrateTo26_respects, migrateTo27_respects, migrateTo28_respects, migrateTo29_respects, migrateTo30_respects,
    migrateTo31_respects, migrateTo32_respects, migrateTo33_respects, migrateTo34_respects, trivial⟩

theorem chain_iff_each : Chain env cur fs ↔ Each (fun n f => Respects env (n + 1 : ℕ) f) cur fs := by
  induction fs generalizing cur with
  | nil => exact Iff.rfl
  | cons f fs ih => exact and_congr_right fun _ => ih

/-- The migrations from a version to another one. -/
def slice (env : Env) (current target : ℕ) : List (Fields → Except Err Fields) :=
  ((upgrades env).take target).drop current

theorem chain_slice (env : Env) (current target : ℕ) : Chain env current (slice env current target) :=
  chain_iff_each.2 ((chain_iff_each.1 chain_upgrades).slice current target)

theorem length_slice (env : Env) (current : ℕ) {target : ℕ} (ht : target ≤ lastSchemaVersion) :
    (slice env current target).length = target - current := by
  have hlen : (upgrades env).length = lastSchemaVersion := rfl
  rw [slice, List.length_drop, List.length_take, hlen]
  omega

theorem slice_append (env : Env) {v w t : ℕ} (hvw : v ≤ w) (hwt : w ≤ t) (ht : t ≤ lastSchemaVersion) :
    slice env v t = slice env v w ++ slice env w t := by
  have hlen : (upgrades env).length = lastSchemaVersion := rfl
  have hsplit : (upgrades env).take t = (upgrades env).take w ++ ((upgrades env).take t).drop w := by
    conv_lhs => rw [← List.take_append_drop w ((upgrades env).take t)]
    rw [List.take_take, min_eq_left hwt]
  unfold slice
  conv_lhs => rw [hsplit]
  rw [List.drop_append_of_le_length]
  rw [List.length_take, hlen]
  omega

theorem runUpgrades_append (gs : List (Fields → Except Err Fields)) (m : Fields) :
    runUpgrades cur (fs ++ gs) m = runUpgrades cur fs m >>= runUpgrades (cur + fs.length) gs := by
  induction fs generalizing cur m with
  | nil => rfl
  | cons f fs ih =>
    rw [List.cons_append, runUpgrades, runUpgrades]
    cases f m with
    | error err => rfl
    | ok m =>
      dsimp only
      rw [ih, List.length_cons, show cur + 1 + fs.length = cur + (fs.length + 1) by omega]

/-- The version of a document after the migrations. -/
def versionAfter (n : Option ℤ) (cur : ℕ) (fs : List (Fields → Except Err Fields)) : Option ℤ :=
  if fs.isEmpty then n else some (cur + fs.length : ℕ)

theorem versionAfter_cons (f : Fields → Except Err Fields) (fs : List (Fields → Except Err Fields)) :
    versionAfter n cur (f :: fs) = versionAfter (some (cur + 1 : ℕ)) (cur + 1) fs := by
  cases fs with
  | nil => rfl
  | cons g fs =>
    simp only [versionAfter, List.isEmpty_cons, List.length_cons, Bool.false_eq_true, if_false]
    congr 2
    omega

/-- Runs of the migrations on similar documents end in similar documents. -/
theorem Chain.runUpgrades (hc : Chain env cur fs) (h : Rel env n m m') :
    Same (Rel env (versionAfter n cur fs)) (runUpgrades cur fs m) (runUpgrades cur fs m') := by
  induction fs generalizing n cur m m' with
  | nil => exact Agree.ok h
  | cons f fs ih =>
    rw [versionAfter_cons, Configmigrate.runUpgrades, Configmigrate.runUpgrades]
    obtain ⟨e, e', he, he', hpanics⟩ | ⟨x, x', hx, hx', hxx⟩ := (hc.1 _ _ h.sim).cases
    · rw [he, he']
      exact Agree.error hpanics
    · rw [hx, hx']
      exact ih hc.2 hxx

/-! ## The migrator -/

theorem SimFields.schemaVersion (h : SimFields env m m') : Same Eq (schemaVersion m) (schemaVersion m') := by
  refine (ObjRel.intVal (.some (Rel.of_sim h)) _).bind fun x _ hx => ?_
  subst hx
  exact Agree.ok rfl

theorem schemaVersion_of_get {w : ℕ} (hw : w ≤ lastSchemaVersion)
    (h : Fields.get m "schema_version" = some (.int w)) :
    schemaVersion m = .ok w := by
  have hlast : lastSchemaVersion = 34 := rfl
  have hmod : ((w : ℤ) % 2 ^ 64).toNat = w := by omega
  have hfield : fieldVal .int (some m) "schema_version" = .ok (some (.int w)) := by
    rw [fieldVal, Option.bind_some, h]
    rfl
  have hval : intVal (some m) "schema_version" = .ok (some w) := by
    rw [intVal, hfield]
    rfl
  rw [schemaVersion, hval]
  exact congrArg Except.ok hmod

/-- The document after the migrations to the target version. -/
def migrated (env : Env) (body : List (String × Yaml)) (target : ℕ) : Except Err (List (String × Yaml)) :=
  (migrate env body target).map Prod.fst

theorem migrated_eq {body : List (String × Yaml)} {v t : ℕ} (hv : schemaVersion (decodeFields body) = .ok v)
    (hvt : v ≤ t) (ht : t ≤ lastSchemaVersion) :
    migrated env body t = (runUpgrades v (slice env v t) (decodeFields body)).map (encodeFields env) := by
  have hmigrate : migrate env body t = if v = t then .ok (body, false)
      else (runUpgrades v (slice env v t) (decodeFields body)).map
        fun diskConf => (encodeFields env diskConf, true) := by
    unfold migrate
    dsimp only
    rw [hv]
    show (if t < v then _ else _) = _
    rw [if_neg (by omega), if_neg (by omega)]
    split
    · rfl
    · unfold upgradeConfigSchema slice
      cases runUpgrades v (((upgrades env).take t).drop v) (decodeFields body) <;> rfl
  rw [migrated, hmigrate]
  split
  · rename_i hvt
    have hnil : slice env v t = [] := List.length_eq_zero_iff.1 (by rw [length_slice env v ht]; omega)
    rw [hnil, runUpgrades]
    exact congrArg Except.ok (encodeFields_decodeFields env body).symm
  · cases runUpgrades v (slice env v t) (decodeFields body) <;> rfl

/-- What a document has become by the migrations to a version. -/
theorem schemaVersion_runUpgrades {v w : ℕ} {d x : Fields} (hd : OkFields d) (hv : schemaVersion d = .ok v)
    (hvw : v ≤ w) (hw : w ≤ lastSchemaVersion) (hx : runUpgrades v (slice env v w) d = .ok x) :
    OkFields x ∧ schemaVersion x = .ok w := by
  have hlen := length_slice env v hw
  have hrun := (chain_slice env v w).runUpgrades (Rel.of_sim (SimFields.refl hd))
  rw [hx] at hrun
  have hrel : Rel env _ x x := hrun
  refine ⟨(simFields_iff.1 hrel.sim).2.1, ?_⟩
  by_cases hvw' : v = w
  · have hnil : slice env v w = [] := List.length_eq_zero_iff.1 (by rw [hlen]; omega)
    rw [hnil, runUpgrades] at hx
    cases hx
    rw [hv, hvw']
  · refine schemaVersion_of_get hw (hrel.version w ?_)
    unfold versionAfter
    rw [if_neg (by rw [List.isEmpty_iff_length_eq_zero, hlen]; omega), hlen, Nat.add_sub_cancel' hvw]

/-- A migration to a version on the way changes neither the result of the migration nor whether it fails. -/
theorem migrated_path_independent (env : Env) (body : List (String × Yaml)) {v w t : ℕ}
    (hv : schemaVersion (decodeFields body) = .ok v) (hvw : v ≤ w) (hwt : w ≤ t) (ht : t ≤ lastSchemaVersion) :
    Same Eq (migrated env body t) (migrated env body w >>= fun body => migrated env body t) := by
  have hw : w ≤ lastSchemaVersion := Nat.le_trans hwt ht
  have hadd : v + (slice env v w).length = w := by
    rw [length_slice env v hw]
    omega
  rw [migrated_eq hv (Nat.le_trans hvw hwt) ht, migrated_eq hv hvw hw, slice_append env hvw hwt ht,
    runUpgrades_append, hadd]
  cases hrun : runUpgrades v (slice env v w) (decodeFields body) with
  | error err => exact Agree.error rfl
  | ok x =>
    obtain ⟨hok, hversion⟩ := schemaVersion_runUpgrades (okFields_decodeFields body) hv hvw hw hrun
    have hsim : SimFields env x (decodeFields (encodeFields env x)) := SimFields.decode_encode hok
    have hread : schemaVersion (decodeFields (encodeFields env x)) = .ok w := by
      obtain ⟨e, e', he, -⟩ | ⟨a, _, ha, ha', rfl⟩ := hsim.schemaVersion.cases
      · rw [hversion] at he
        cases he
      · rw [ha', ← ha, hversion]
    show Same Eq ((runUpgrades w (slice env w t) x).map (encodeFields env)) (migrated env (encodeFields env x) t)
    rw [migrated_eq hread hwt ht]
    refine ((chain_slice env w t).runUpgrades (Rel.of_sim hsim)).map fun y y' hy => ?_
    exact (simFields_iff.1 hy.sim).1

/-- A system whose durations are whole hours. -/
def hoursEnv : Env where
  durationString d := toString (d / hour) ++ "h"
  modeString
    | .loadBalance => "load_balance"
    | .parallel => "parallel"
    | .fastestAddr => "fastest_addr"
  generateFromPassword _ := none
  parseURL _ := none
  splitHost _ := none
  parseAddr _ := none
  join := "/".intercalate
  isAbs s := s.toList.head? = some '/'
  dataDir := "data"

/-- A document with a query log of a week. -/
def weekBody : List (String × Yaml) := [("schema_version", .int 11), ("dns", .map [("querylog_interval", .int 7)])]

/-- The duration of the query log is a text when the document is read again. -/
theorem migrated_path_independent_weekBody :
    migrated hoursEnv weekBody 12 =
      .ok [("schema_version", .int 12), ("dns", .map [("querylog_interval", .str "168h")])] ∧
    Same Eq (migrated hoursEnv weekBody 15)
      (migrated hoursEnv weekBody 12 >>= fun body => migrated hoursEnv body 15) :=
  ⟨rfl, migrated_path_independent hoursEnv weekBody (v := 11) rfl (by decide) (by decide) (by decide)⟩

end AdGuardHome.Configmigrate
