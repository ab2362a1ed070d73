import AdGuardHome.Aghnet.AddrPort

/-!
# Command-line options (`internal/home/options.go`)

The arguments are parsed by the table of the options, and the options are turned into arguments by the same table.  An
option has one definition under its long name, and options of the same kind have a definition in common.
-/

namespace AdGuardHome.Home

open AdGuardHome.Aghnet AdGuardHome.Net

/-- `options` -/
structure Options where
  confFilename : String
  workDir : String
  logFile : String
  pidFile : String
  serviceControlAction : String
  bindHost : Addr
  bindPort : UInt16
  bindAddr : AddrPort
  checkConfig : Bool
  disableUpdate : Bool
  performUpdate : Bool
  verbose : Bool
  runningAsService : Bool
  glinetMode : Bool
  noEtcHosts : Bool
  localFrontend : Bool
  noPermCheck : Bool
deriving DecidableEq

/-- `options{}` -/
def Options.zero : Options where
  confFilename := ""
  workDir := ""
  logFile := ""
  pidFile := ""
  serviceControlAction := ""
  bindHost := .invalid
  bindPort := 0
  bindAddr := .zero
  checkConfig := false
  disableUpdate := false
  performUpdate := false
  verbose := false
  runningAsService := false
  glinetMode := false
  noEtcHosts := false
  localFrontend := false
  noPermCheck := false

/-- What is done after parsing.  A chain of effects is a list of them, and `nil` is the empty one. -/
inductive Effect
  | version (verbose : Bool)
  | help (exec : String)
deriving DecidableEq

/-- The error of an option that is set to a value. -/
inductive ValueError
  | parseAddr
  | parsingPort
  | parseAddrPort
deriving DecidableEq

/-- The one of `updateWithValue`, `updateNoValue` and `effect` that is run for an option. -/
inductive Update
  | withValue (update : Options → String → Except ValueError Options)
  | noValue (update : Options → Options)
  | effect (effect : Options → String → List Effect)

/-- `cmdLineOpt` -/
structure CmdLineOpt where
  update : Update
  serialize : Options → Option String
  longName : String
  shortName : String

/-! ## The table -/

/-- An option that sets a text, which is written if it is not empty. -/
def stringOpt (get : Options → String) (set : Options → String → Options) (longName shortName : String) :
    CmdLineOpt where
  update := .withValue fun o v => .ok (set o v)
  serialize := fun o => if get o ≠ "" then some (get o) else none
  longName := longName
  shortName := shortName

/-- An option without a value, which is written if it is set. -/
def flagOpt (get : Options → Bool) (set : Options → Options) (longName shortName : String) : CmdLineOpt where
  update := .noValue set
  serialize := fun o => if get o then some "" else none
  longName := longName
  shortName := shortName

/-- An option that sets nothing and is never written. -/
def effectOpt (effect : Options → String → List Effect) (longName : String) : CmdLineOpt where
  update := .effect effect
  serialize := fun _ => none
  longName := longName
  shortName := ""

def configOpt : CmdLineOpt := stringOpt (·.confFilename) (fun o v => { o with confFilename := v }) "config" "c"

def workDirOpt : CmdLineOpt := stringOpt (·.workDir) (fun o v => { o with workDir := v }) "work-dir" "w"

def hostOpt : CmdLineOpt where
  update := .withValue fun o v =>
    match parseAddr v with
    | some addr => .ok { o with bindHost := addr }
    | none => .error .parseAddr
  serialize := fun o => if o.bindHost.isValid then some (addrString o.bindHost) else none
  longName := "host"
  shortName := "h"

def portOpt : CmdLineOpt where
  update := .withValue fun o v =>
    match parseUint 16 v.toList with
    | some p => .ok { o with bindPort := UInt16.ofNat p }
    | none => .error .parsingPort
  serialize := fun o => if o.bindPort ≠ 0 then some (toString o.bindPort.toNat) else none
  longName := "port"
  shortName := "p"

def webAddrOpt : CmdLineOpt where
  update := .withValue fun o v =>
    match parseAddrPort v with
    | some addr => .ok { o with bindAddr := addr }
    | none => .error .parseAddrPort
  serialize := fun o => if o.bindAddr.addr.isValid then some o.bindAddr.string else none
  longName := "web-addr"
  shortName := ""

def serviceOpt : CmdLineOpt :=
  stringOpt (·.serviceControlAction) (fun o v => { o with serviceControlAction := v }) "service" "s"

def logfileOpt : CmdLineOpt := stringOpt (·.logFile) (fun o v => { o with logFile := v }) "logfile" "l"

def pidfileOpt : CmdLineOpt := stringOpt (·.pidFile) (fun o v => { o with pidFile := v }) "pidfile" ""

def checkConfigOpt : CmdLineOpt := flagOpt (·.checkConfig) (fun o => { o with checkConfig := true }) "check-config" ""

def noCheckUpdateOpt : CmdLineOpt :=
  flagOpt (·.disableUpdate) (fun o => { o with disableUpdate := true }) "no-check-update" ""

def updateOpt : CmdLineOpt := flagOpt (·.performUpdate) (fun o => { o with performUpdate := true }) "update" ""

def noMemOptimizationOpt : CmdLineOpt := effectOpt (fun _ _ => []) "no-mem-optimization"

/-- This option has an effect, too, a warning, which is never run. -/
def noEtcHostsOpt : CmdLineOpt := flagOpt (·.noEtcHosts) (fun o => { o with noEtcHosts := true }) "no-etc-hosts" ""

def localFrontendOpt : CmdLineOpt :=
  flagOpt (·.localFrontend) (fun o => { o with localFrontend := true }) "local-frontend" ""

def verboseOpt : CmdLineOpt := flagOpt (·.verbose) (fun o => { o with verbose := true }) "verbose" "v"

def glinetOpt : CmdLineOpt := flagOpt (·.glinetMode) (fun o => { o with glinetMode := true }) "glinet" ""

def noPermcheckOpt : CmdLineOpt := flagOpt (·.noPermCheck) (fun o => { o with noPermCheck := true }) "no-permcheck" ""

def versionOpt : CmdLineOpt := effectOpt (fun o _ => [.version o.verbose]) "version"

/-- The option that `initCmdLineOpts` adds. -/
def helpOpt : CmdLineOpt := effectOpt (fun _ exec => [.help exec]) "help"

def cmdLineOpts : List CmdLineOpt :=
  [configOpt, workDirOpt, hostOpt, portOpt, webAddrOpt, serviceOpt, logfileOpt, pidfileOpt, checkConfigOpt,
    noCheckUpdateOpt, updateOpt, noMemOptimizationOpt, noEtcHostsOpt, localFrontendOpt, verboseOpt, glinetOpt,
    noPermcheckOpt, versionOpt, helpOpt]

/-! ## Parsing -/

inductive ArgError
  | unknownOption (arg : String)
  | withoutArgument (arg : String)
  | applying (arg : String) (err : ValueError)
deriving DecidableEq

def argMatches (opt : CmdLineOpt) (arg : String) : Bool :=
  match arg.toList with
  | '-' :: c :: cs =>
    opt.shortName ≠ "" && c :: cs = opt.shortName.toList || c == '-' && cs = opt.longName.toList
  | _ => false

def findMatchingOpt (arg : String) : Option CmdLineOpt := cmdLineOpts.find? fun opt => argMatches opt arg

def chainEffect (prev next : List Effect) : List Effect := prev ++ next

/-- `parseArg`, with the rest of the arguments before and after. -/
def parseArg (cmdName : String) (next : List String) (o : Options) (eff : List Effect) (arg : String) :
    Except ArgError (Options × List Effect × List String) :=
  match findMatchingOpt arg with
  | none => .error (.unknownOption arg)
  | some opt =>
    match opt.update with
    | .withValue update =>
      match next with
      | [] => .error (.withoutArgument arg)
      | val :: next =>
        match update o val with
        | .error err => .error (.applying arg err)
        | .ok o => .ok (o, eff, next)
    | .noValue update => .ok (update o, eff, next)
    | .effect effect => .ok (o, chainEffect eff (effect o cmdName), next)

/-- An argument that is accepted is that of an option, and sets it to the next argument, sets it, or has an effect. -/
theorem parseArg_ok {cmdName : String} {next rest : List String} {o o' : Options} {eff eff' : List Effect}
    {arg : String} (h : parseArg cmdName next o eff arg = .ok (o', eff', rest)) :
    ∃ opt ∈ cmdLineOpts,
      (∃ update val, opt.update = .withValue update ∧ next = val :: rest ∧ update o val = .ok o') ∨
      (∃ update, opt.update = .noValue update ∧ o' = update o ∧ rest = next) ∨
      (∃ effect, opt.update = .effect effect) ∧ o' = o ∧ rest = next := by
  unfold parseArg at h
  cases hfind : findMatchingOpt arg with
  | none =>
    rw [hfind] at h
    cases h
  | some opt =>
    refine ⟨opt, List.mem_of_find?_eq_some hfind, ?_⟩
    simp only [hfind] at h
    cases hupdate : opt.update with
    | noValue update =>
      rw [hupdate] at h
      cases h
      exact .inr (.inl ⟨update, rfl, rfl, rfl⟩)
    | effect effect =>
      rw [hupdate] at h
      cases h
      exact .inr (.inr ⟨⟨effect, rfl⟩, rfl, rfl⟩)
    | withValue update =>
      rw [hupdate] at h
      cases next with
      | nil => cases h
      | cons val next =>
        simp only at h
        cases hval : update o val with
        | error err =>
          rw [hval] at h
          cases h
        | ok o =>
          rw [hval] at h
          cases h
          exact .inl ⟨update, val, rfl, rfl, hval⟩

theorem length_of_parseArg {cmdName : String} {next rest : List String} {o o' : Options} {eff eff' : List Effect}
    {arg : String} (h : parseArg cmdName next o eff arg = .ok (o', eff', rest)) : rest.length ≤ next.length := by
  obtain ⟨opt, -, ⟨update, val, -, rfl, -⟩ | ⟨update, -, -, rfl⟩ | ⟨-, -, rfl⟩⟩ := parseArg_ok h
  · exact Nat.le_succ _
  · exact le_rfl
  · exact le_rfl

/-- The loop of `parseCmdOpts`, from the argument with an index on. -/
def parseFrom (cmdName : String) (i : ℕ) (o : Options) (eff : List Effect) :
    List String → Options × List Effect × Option (ℕ × ArgError)
  | [] => (o, eff, none)
  | arg :: next =>
    match h : parseArg cmdName next o eff arg with
    | .error err => (o, eff, some (i, err))
    | .ok (o, eff, rest) =>
      have : rest.length < next.length + 1 := Nat.lt_succ_of_le (length_of_parseArg h)
      parseFrom cmdName (i + (next.length + 1 - rest.length)) o eff rest
termination_by args => args.length

/-- `parseCmdOpts`: the options, the effects, and the error with the index of its argument. -/
def parseCmdOpts (cmdName : String) (args : List String) : Options × List Effect × Option (ℕ × ArgError) :=
  parseFrom cmdName 0 .zero [] args

/-! ## Writing -/

/-- The name of an option as an argument. -/
def CmdLineOpt.flag (opt : CmdLineOpt) : String :=
  if opt.shortName ≠ "" then "-" ++ opt.shortName else "--" ++ opt.longName

/-- The arguments of one option. -/
def CmdLineOpt.args (opt : CmdLineOpt) (o : Options) : List String :=
  match opt.serialize o with
  | none => []
  | some val => opt.flag :: if val ≠ "" then [val] else []

/-- `optsToArgs` -/
def optsToArgs (o : Options) : List String := cmdLineOpts.flatMap fun opt => opt.args o

end AdGuardHome.Home
