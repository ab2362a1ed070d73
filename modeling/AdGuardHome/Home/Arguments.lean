import AdGuardHome.Home.Options

/-!
# Options as arguments

The options that are parsed from any arguments are the ones that are parsed from the arguments they are turned into.
The arguments of each option set its field and nothing else, so they restore the options field by field.
-/

namespace AdGuardHome.Home

open AdGuardHome.Aghnet AdGuardHome.Net

/-! ## What is parsed -/

/-- The options have an address with a port only if the address is valid, and they are not those of a service. -/
structure Parsed (o : Options) : Prop where
  bindAddr : o.bindAddr.addr.isValid = false → o.bindAddr = .zero
  runningAsService : o.runningAsService = false

/-- An option that keeps what is parsed so. -/
def KeepsParsed (opt : CmdLineOpt) : Prop :=
  match opt.update with
  | .withValue update => ∀ o v o', update o v = .ok o' → Parsed o → Parsed o'
  | .noValue update => ∀ o, Parsed o → Parsed (update o)
  | .effect _ => True

theorem keepsParsed_stringOpt {get : Options → String} {set : Options → String → Options}
    (h : ∀ o v, Parsed o → Parsed (set o v)) (longName shortName : String) :
    KeepsParsed (stringOpt get set longName shortName) := by
  intro o v o' hset ho
  cases hset
  exact h o v ho

/-- An option that parses its value keeps what is parsed so if its setter does. -/
theorem keepsParsed_parse {β : Type} {opt : CmdLineOpt} {update : Options → String → Except ValueError Options}
    (parse : String → Option β) (set : Options → β → Options) (err : ValueError) (hopt : opt.update = .withValue update)
    (hupdate : ∀ o v, update o v = (parse v).elim (.error err) fun a => .ok (set o a))
    (h : ∀ o v a, parse v = some a → Parsed o → Parsed (set o a)) : KeepsParsed opt := by
  unfold KeepsParsed
  rw [hopt]
  intro o v o' hset ho
  rw [hupdate] at hset
  cases hparse : parse v with
  | none =>
    rw [hparse] at hset
    cases hset
  | some a =>
    rw [hparse] at hset
    cases hset
    exact h o v a hparse ho

theorem keepsParsed_hostOpt : KeepsParsed hostOpt := by
  refine keepsParsed_parse parseAddr (fun o addr => { o with bindHost := addr }) .parseAddr rfl (fun o v => ?_)
    fun o v addr _ ho => ⟨ho.bindAddr, ho.runningAsService⟩
  cases parseAddr v <;> rfl

theorem keepsParsed_portOpt : KeepsParsed portOpt := by
  refine keepsParsed_parse (fun v => parseUint 16 v.toList) (fun o p => { o with bindPort := UInt16.ofNat p })
    .parsingPort rfl (fun o v => ?_) fun o v port _ ho => ⟨ho.bindAddr, ho.runningAsService⟩
  cases parseUint 16 v.toList <;> rfl

theorem keepsParsed_webAddrOpt : KeepsParsed webAddrOpt := by
  refine keepsParsed_parse parseAddrPort (fun o addr => { o with bindAddr := addr }) .parseAddrPort rfl
    (fun o v => ?_) fun o v addr hparse ho => ⟨fun hinvalid => ?_, ho.runningAsService⟩
  · cases parseAddrPort v <;> rfl
  · rw [isValid_of_parseAddrPort hparse] at hinvalid
    cases hinvalid

theorem keepsParsed : ∀ opt ∈ cmdLineOpts, KeepsParsed opt := by
  have hkeep : ∀ o o' : Options, o'.bindAddr = o.bindAddr → o'.runningAsService = o.runningAsService →
      Parsed o → Parsed o' := by
    intro o o' haddr hservice ho
    exact ⟨haddr.symm ▸ ho.bindAddr, hservice.trans ho.runningAsService⟩
  simp only [cmdLineOpts, List.forall_mem_cons]
  refine ⟨?config, ?workDir, keepsParsed_hostOpt, keepsParsed_portOpt, keepsParsed_webAddrOpt, ?service, ?logfile,
    ?pidfile, ?checkConfig, ?noCheckUpdate, ?update, trivial, ?noEtcHosts, ?localFrontend, ?verbose, ?glinet,
    ?noPermcheck, trivial, trivial, fun opt h => absurd h List.not_mem_nil⟩
  case config | workDir | service | logfile | pidfile =>
    apply keepsParsed_stringOpt
    exact fun o v => hkeep o _ rfl rfl
  case checkConfig | noCheckUpdate | update | noEtcHosts | localFrontend | verbose | glinet | noPermcheck =>
    exact fun o => hkeep o _ rfl rfl

theorem parsed_parseArg {cmdName : String} {next rest : List String} {o o' : Options} {eff eff' : List Effect}
    {arg : String} (ho : Parsed o) (h : parseArg cmdName next o eff arg = .ok (o', eff', rest)) : Parsed o' := by
  obtain ⟨opt, hopt, hcases⟩ := parseArg_ok h
  have hkeeps := keepsParsed opt hopt
  unfold KeepsParsed at hkeeps
  rcases hcases with ⟨update, val, hupdate, -, hval⟩ | ⟨update, hupdate, rfl, -⟩ | ⟨-, rfl, -⟩
  · rw [hupdate] at hkeeps
    exact hkeeps o val o' hval ho
  · rw [hupdate] at hkeeps
    exact hkeeps o ho
  · exact ho

/-- By induction on the arguments that are left. -/
theorem parsed_parseFrom (cmdName : String) (i : ℕ) (o : Options) (eff : List Effect) (args : List String) :
    Parsed o → Parsed (parseFrom cmdName i o eff args).1 := by
  induction i, o, eff, args using parseFrom.induct cmdName with
  | case1 i o eff =>
    intro ho
    rw [parseFrom]
    exact ho
  | case2 i o eff arg next err h =>
    intro ho
    rw [parseFrom]
    split
    · exact ho
    · rename_i heq
      rw [h] at heq
      cases heq
  | case3 i o eff arg next o' eff' rest h hlt ih =>
    intro ho
    rw [parseFrom]
    split
    · exact ho
    · rename_i heq
      rw [h] at heq
      cases heq
      exact ih (parsed_parseArg ho h)

/-! ## What is written -/

theorem findMatchingOpt_flag {opt : CmdLineOpt} (hopt : opt ∈ cmdLineOpts) : findMatchingOpt opt.flag = some opt := by
  have hidx : ∀ i : Fin cmdLineOpts.length,
      cmdLineOpts.findIdx (fun opt => argMatches opt cmdLineOpts[i].flag) = i := by decide +kernel
  obtain ⟨i, hi, rfl⟩ := List.mem_iff_getElem.1 hopt
  rw [findMatchingOpt, List.find?_eq_getElem?_findIdx]
  exact (congrArg (cmdLineOpts[·]?) (hidx ⟨i, hi⟩)).trans (List.getElem?_eq_getElem hi)

theorem parseFrom_cons {cmdName : String} {next rest : List String} {o o' : Options} {eff eff' : List Effect}
    {arg : String} (h : parseArg cmdName next o eff arg = .ok (o', eff', rest)) (i : ℕ) :
    ∃ j, parseFrom cmdName i o eff (arg :: next) = parseFrom cmdName j o' eff' rest := by
  refine ⟨i + (next.length + 1 - rest.length), ?_⟩
  rw [parseFrom]
  split
  · rename_i heq
    rw [h] at heq
    cases heq
  · rename_i heq
    rw [h] at heq
    cases heq
    rfl

/-- The arguments turn some options into others, whatever is before and after them. -/
def Restores (args : List String) (o o' : Options) : Prop :=
  ∀ cmdName i eff next, ∃ j, parseFrom cmdName i o eff (args ++ next) = parseFrom cmdName j o' eff next

theorem Restores.nil (o : Options) : Restores [] o o := fun _ i _ _ => ⟨i, rfl⟩

theorem Restores.append {args args' : List String} {o o' o'' : Options} (h : Restores args o o')
    (h' : Restores args' o' o'') : Restores (args ++ args') o o'' := by
  intro cmdName i eff next
  obtain ⟨j, hj⟩ := h cmdName i eff (args' ++ next)
  obtain ⟨k, hk⟩ := h' cmdName j eff next
  exact ⟨k, by rw [List.append_assoc, hj, hk]⟩

variable {o p p' : Options}

theorem restores_withValue {opt : CmdLineOpt} (hopt : opt ∈ cmdLineOpts)
    {update : Options → String → Except ValueError Options} (hupdate : opt.update = .withValue update)
    (hnone : opt.serialize o = none → p = p')
    (hsome : ∀ val, opt.serialize o = some val → val ≠ "" ∧ update p val = .ok p') : Restores (opt.args o) p p' := by
  unfold CmdLineOpt.args
  cases hval : opt.serialize o with
  | none =>
    rw [hnone hval]
    exact .nil p'
  | some val =>
    obtain ⟨hne, hset⟩ := hsome val hval
    intro cmdName i eff next
    have hparse : parseArg cmdName (val :: next) p eff opt.flag = .ok (p', eff, next) := by
      simp only [parseArg, findMatchingOpt_flag hopt, hupdate, hset]
    simp only [if_pos hne]
    exact parseFrom_cons hparse i

theorem restores_flagOpt {get : Options → Bool} {set : Options → Options} {longName shortName : String}
    (put : Options → Bool → Options) (hopt : flagOpt get set longName shortName ∈ cmdLineOpts)
    (hfalse : p = put p false) (htrue : set p = put p true) :
    Restores ((flagOpt get set longName shortName).args o) p (put p (get o)) := by
  cases hget : get o with
  | false =>
    have hargs : (flagOpt get set longName shortName).args o = [] := by simp [CmdLineOpt.args, flagOpt, hget]
    rw [hargs, ← hfalse]
    exact .nil p
  | true =>
    have hargs : (flagOpt get set longName shortName).args o = [(flagOpt get set longName shortName).flag] := by
      simp [CmdLineOpt.args, flagOpt, hget]
    rw [hargs, ← htrue]
    intro cmdName i eff next
    refine parseFrom_cons ?_ i
    simp only [parseArg, findMatchingOpt_flag hopt]
    rfl

theorem restores_stringOpt {get : Options → String} {set : Options → String → Options} {longName shortName : String}
    (hopt : stringOpt get set longName shortName ∈ cmdLineOpts) (hempty : p = set p "") :
    Restores ((stringOpt get set longName shortName).args o) p (set p (get o)) := by
  refine restores_withValue hopt rfl (fun hnone => ?_) fun val hval => ?_
  · by_cases hget : get o = ""
    · rw [hget]
      exact hempty
    · simp [stringOpt, hget] at hnone
  · by_cases hget : get o = ""
    · simp [stringOpt, hget] at hval
    · simp only [stringOpt, ne_eq, hget, not_false_eq_true, if_true, Option.some.injEq] at hval
      rw [← hval]
      exact ⟨hget, rfl⟩

theorem restores_effectOpt (effect : Options → String → List Effect) (longName : String) :
    Restores ((effectOpt effect longName).args o) p p := .nil p

theorem restores_hostOpt (h : p.bindHost = .invalid) :
    Restores (hostOpt.args o) p { p with bindHost := o.bindHost } := by
  refine restores_withValue (by simp [cmdLineOpts]) rfl (fun hnone => ?_) fun val hval => ?_
  · cases haddr : o.bindHost with
    | invalid => rw [← h]
    | v4 a => simp [hostOpt, haddr, Addr.isValid] at hnone
    | v6 a zone => simp [hostOpt, haddr, Addr.isValid] at hnone
  · cases hvalid : o.bindHost.isValid with
    | false => simp [hostOpt, hvalid] at hval
    | true =>
      simp only [hostOpt, hvalid, if_true, Option.some.injEq] at hval
      rw [← hval, parseAddr_addrString hvalid]
      refine ⟨fun hempty => addrString_ne_nil hvalid ?_, rfl⟩
      rw [hempty]
      rfl

theorem restores_portOpt (h : p.bindPort = 0) : Restores (portOpt.args o) p { p with bindPort := o.bindPort } := by
  refine restores_withValue (by simp [cmdLineOpts]) rfl (fun hnone => ?_) fun val hval => ?_
  · by_cases hport : o.bindPort = 0
    · rw [hport, ← h]
    · simp [portOpt, hport] at hnone
  · by_cases hport : o.bindPort = 0
    · simp [portOpt, hport] at hval
    · simp only [portOpt, ne_eq, hport, not_false_eq_true, if_true, Option.some.injEq] at hval
      have hdigits : val.toList = Nat.toDigits 10 o.bindPort.toNat := by simp [← hval]
      constructor
      · intro hempty
        rw [hempty] at hdigits
        exact Nat.toDigits_ne_nil hdigits.symm
      · rw [hdigits, parseUint_toDigits o.bindPort.toNat_lt]
        simp only [UInt16.ofNat_toNat]

theorem restores_webAddrOpt (ho : Parsed o) (h : p.bindAddr = .zero) :
    Restores (webAddrOpt.args o) p { p with bindAddr := o.bindAddr } := by
  refine restores_withValue (by simp [cmdLineOpts]) rfl (fun hnone => ?_) fun val hval => ?_
  · cases hvalid : o.bindAddr.addr.isValid with
    | false => rw [ho.bindAddr hvalid, ← h]
    | true => simp [webAddrOpt, hvalid] at hnone
  · cases hvalid : o.bindAddr.addr.isValid with
    | false => simp [webAddrOpt, hvalid] at hval
    | true =>
      simp only [webAddrOpt, hvalid, if_true, Option.some.injEq] at hval
      have hparse := parseAddrPort_string hvalid
      rw [← hval, hparse]
      refine ⟨fun hempty => ?_, rfl⟩
      rw [hempty] at hparse
      cases hparse

/-- The arguments of the options restore them, one field after the other. -/
theorem restores_optsToArgs (ho : Parsed o) : Restores (optsToArgs o) .zero o := by
  have hservice : o = { o with runningAsService := false } := by rw [← ho.runningAsService]
  have hargs : ∀ p', Restores (optsToArgs o) .zero p' → p' = o → Restores (optsToArgs o) .zero o :=
    fun p' h hp' => hp' ▸ h
  have hmem : ∀ i (hi : i < cmdLineOpts.length), cmdLineOpts[i] ∈ cmdLineOpts := fun _ hi => List.getElem_mem hi
  refine hargs _ ?_ hservice.symm
  simp only [optsToArgs, cmdLineOpts, List.flatMap_cons, List.flatMap_nil]
  -- The options in the order of the table, with their positions in it.
  refine .append (restores_stringOpt (hmem 0 (by decide)) rfl) ?_
  refine .append (restores_stringOpt (hmem 1 (by decide)) rfl) ?_
  refine .append (restores_hostOpt rfl) ?_
  refine .append (restores_portOpt rfl) ?_
  refine .append (restores_webAddrOpt ho rfl) ?_
  refine .append (restores_stringOpt (hmem 5 (by decide)) rfl) ?_
  refine .append (restores_stringOpt (hmem 6 (by decide)) rfl) ?_
  refine .append (restores_stringOpt (hmem 7 (by decide)) rfl) ?_
  refine .append (restores_flagOpt (fun p b => { p with checkConfig := b }) (hmem 8 (by decide)) rfl rfl) ?_
  refine .append (restores_flagOpt (fun p b => { p with disableUpdate := b }) (hmem 9 (by decide)) rfl rfl) ?_
  refine .append (restores_flagOpt (fun p b => { p with performUpdate := b }) (hmem 10 (by decide)) rfl rfl) ?_
  refine .append (restores_effectOpt _ _) ?_
  refine .append (restores_flagOpt (fun p b => { p with noEtcHosts := b }) (hmem 12 (by decide)) rfl rfl) ?_
  refine .append (restores_flagOpt (fun p b => { p with localFrontend := b }) (hmem 13 (by decide)) rfl rfl) ?_
  refine .append (restores_flagOpt (fun p b => { p with verbose := b }) (hmem 14 (by decide)) rfl rfl) ?_
  refine .append (restores_flagOpt (fun p b => { p with glinetMode := b }) (hmem 15 (by decide)) rfl rfl) ?_
  refine .append (restores_flagOpt (fun p b => { p with noPermCheck := b }) (hmem 16 (by decide)) rfl rfl) ?_
  refine .append (restores_effectOpt _ _) ?_
  exact .append (restores_effectOpt _ _) (.nil _)

/-- Options that are parsed are written as arguments that are accepted and give the same options.  This holds of those
before an argument that is not accepted, too. -/
theorem parseCmdOpts_optsToArgs (cmdName cmdName' : String) (args : List String) :
    parseCmdOpts cmdName' (optsToArgs (parseCmdOpts cmdName args).1) = ((parseCmdOpts cmdName args).1, [], none) := by
  have hzero : Parsed .zero := ⟨fun _ => rfl, rfl⟩
  have hparsed : Parsed (parseCmdOpts cmdName args).1 := parsed_parseFrom cmdName 0 .zero [] args hzero
  obtain ⟨j, hj⟩ := restores_optsToArgs hparsed cmdName' 0 [] []
  rw [List.append_nil] at hj
  rw [parseCmdOpts, hj, parseFrom]

/-- The last value of an option is the one that is written. -/
example : optsToArgs (parseCmdOpts "AdGuardHome"
      ["--config", "old.yaml", "-v", "--web-addr", "[::1]:3000", "-c", "agh.yaml"]).1
    = ["-c", "agh.yaml", "--web-addr", "[::1]:3000", "-v"] := by
  decide +kernel

end AdGuardHome.Home
