import AdGuardHome.Querylog.Decode

/-!
# Decoding of all of a log line (`internal/querylog/decode.go`)

The decoder with what `skimLogEntry` reads over: the rules, the addresses and the rewrite of a result.  A
function returns `none` if it panics, or if a loop does not end.  The rules are set by their number, which is how many
closing braces there were in their array, but a field adds no more than one rule: an object without fields is no rule,
and if one with a field comes after it, the index is out of range (`decodeLogEntry_isSome`).
-/

namespace AdGuardHome.Querylog

open AdGuardHome.Aghnet AdGuardHome.Filtering AdGuardHome.Lib AdGuardHome.Net

/-- A value of a record in a decoded rewrite. -/
inductive RRAny
  | str (s : String)
  | ip (ip : IP)
  | addr (ip : Addr)
  /-- A JSON value that is no string. -/
  | json (value : List Token)

structure DecodedRewrite where
  rcode : ℤ := 0
  /-- `none` for a nil map. -/
  response : Option (List (UInt16 × List RRAny)) := none

/-- The entry without the rules and the addresses of its result. -/
def LogEntry.plain (e : LogEntry) : LogEntry := { e with result.rules := [], result.ipList := [] }

/-- An entry that is decoded, with the rewrite of its result in the place of that of `LogEntry`. -/
structure DecodedEntry where
  entry : LogEntry := {}
  rewrite : Option DecodedRewrite := none

/-- What the decoder calls. -/
structure DecodeEnv where
  /-- `netutil.IsValidIPString` -/
  isValidIPString : String → Bool
  /-- `dns.Fqdn` -/
  fqdn : String → String
  /-- What `Decode` leaves in a map when it reads the value at a place. -/
  unmarshal : Decoder → List (UInt16 × List RRAny) → Option (List (UInt16 × List RRAny))

namespace Decoding

/-- A loop that goes on as long as its body returns true; `none` if it does not end in so many rounds. -/
def repeatWhile {σ : Type} (body : σ → Option (Bool × σ)) : ℕ → σ → Option σ
  | 0, _ => none
  | n + 1, s => (body s).bind fun p => if p.1 then repeatWhile body n p.2 else some p.2

/-- The number that `Number.Int64` returns, also beside an error. -/
def int64Value (text : List Char) : ℤ :=
  match parseInt64 text with
  | some i => i
  | none =>
    let ds := if text.head? = some '-' then text.tail else text
    if ds = [] ∨ ds.all Json.isDigit = false then 0 else if text.head? = some '-' then -2 ^ 63 else 2 ^ 63 - 1

/-! ## Rules -/

abbrev rules (ent : DecodedEntry) : List ResultRule := ent.entry.result.rules

def withRules (ent : DecodedEntry) (rules : List ResultRule) : DecodedEntry :=
  { ent with entry.result.rules := rules }

@[simp] theorem rules_withRules (ent : DecodedEntry) (rs : List ResultRule) : rules (withRules ent rs) = rs := rfl

@[simp] theorem withRules_withRules (ent : DecodedEntry) (rs rs' : List ResultRule) :
    withRules (withRules ent rs) rs' = withRules ent rs' := rfl

/-- Sets a field of the rule of a number; `none` is an index out of range. -/
def setRule (ent : DecodedEntry) (idx : ℕ) (set : ResultRule → ResultRule) : Option DecodedEntry :=
  if idx < (rules ent).length then some (withRules ent ((rules ent).modify idx set)) else none

/-- `decodeVTokenAndAddRule` -/
def decodeVTokenAndAddRule (i : ℕ) (d : Decoder) (rules : List ResultRule) :
    Decoder × List ResultRule × Option Token :=
  match d.token with
  | none => (d, rules, none)
  | some (vToken, d) =>
    (d, if rules.length < i + 1 then rules ++ [⟨"", .invalid, 0⟩] else rules, some vToken)

/-- The keys of `decodeResultRuleKey`, with what each sets for a value of its type. -/
def ruleField (key : String) : Option (Token → Option (ResultRule → ResultRule)) :=
  if key = "FilterListID" then
    some fun
      | .number n => some fun r => { r with filterListID := int64Value n }
      | _ => none
  else if key = "IP" then
    some fun
      | .str ipStr => (parseAddr ipStr).map fun ip r => { r with ip := ip }
      | _ => none
  else if key = "Text" then
    some fun
      | .str s => some fun r => { r with text := s }
      | _ => none
  else none

/-- `decodeResultRuleKey` -/
def decodeResultRuleKey (key : String) (idx : ℕ) (d : Decoder) (ent : DecodedEntry) :
    Option (Decoder × DecodedEntry) :=
  match ruleField key with
  | none => some (d, ent)
  | some field =>
    match decodeVTokenAndAddRule idx d (rules ent) with
    | (d, rules, vToken) =>
      match vToken.bind field with
      | none => some (d, withRules ent rules)
      | some set => (setRule (withRules ent rules) idx set).map fun ent => (d, ent)

/-- The loop of `decodeResultRuleToken`, with the number of the closing braces. -/
def decodeResultRuleToken : ℕ → ℕ → Decoder → DecodedEntry → Option (Decoder × DecodedEntry)
  | 0, _, _, _ => none
  | n + 1, i, d, ent =>
    match d.token with
    | none => some (d, ent)
    | some (.delim c, d) =>
      if c = ']' then some (d, ent)
      else if c = '\x7d' then decodeResultRuleToken n (i + 1) d ent
      else decodeResultRuleToken n i d ent
    | some (.str key, d) => (decodeResultRuleKey key i d ent).bind fun p => decodeResultRuleToken n i p.1 p.2
    | some (_, d) => some (d, ent)

/-- `decodeResultRules`, which goes on after another delimiter, too. -/
def decodeResultRules (d : Decoder) (ent : DecodedEntry) : Option (Decoder × DecodedEntry) :=
  match d.token with
  | none => some (d, ent)
  | some (.delim _, d) => decodeResultRuleToken (d.rest.length + 1) 0 d ent
  | some (_, d) => some (d, ent)

/-! ## Addresses and rewrites -/

/-- Appends a value to the records of a type. -/
def addRecord (response : List (UInt16 × List RRAny)) (rrType : UInt16) (v : RRAny) : List (UInt16 × List RRAny) :=
  if response.any (·.1 = rrType) then response.map fun p => if p.1 = rrType then (p.1, p.2 ++ [v]) else p
  else response ++ [(rrType, [v])]

/-- The loop of `decodeResultReverseHosts` and `decodeResultIPList`. -/
def decodeItems (item : String → DecodedEntry → Option DecodedEntry) :
    ℕ → Decoder → DecodedEntry → Option (Decoder × DecodedEntry)
  | 0, _, _ => none
  | n + 1, d, ent =>
    match d.token with
    | none => some (d, ent)
    | some (.delim c, d) => if c = '[' then decodeItems item n d ent else some (d, ent)
    | some (.str v, d) => (item v ent).bind fun ent => decodeItems item n d ent
    | some (_, d) => decodeItems item n d ent

/-- `setPTRRewriteResult` -/
def setPTRRewriteResult (env : DecodeEnv) (v : String) (ent : DecodedEntry) : DecodedEntry :=
  let v := RRAny.str (env.fqdn v)
  match ent.rewrite with
  | none => { ent with rewrite := some { response := some [(12, [v])] } }
  | some rewrite =>
    match rewrite.response with
    | none => { ent with rewrite := some { response := some [(12, [v])] } }
    | some response => { ent with rewrite := some { response := some (addRecord response 12 v) } }

def decodeResultReverseHosts (env : DecodeEnv) (d : Decoder) (ent : DecodedEntry) : Option (Decoder × DecodedEntry) :=
  decodeItems (fun v ent => some (setPTRRewriteResult env v ent)) (d.rest.length + 1) d ent

/-- `appendIfValidIP`; `none` is the panic of `netip.MustParseAddr`. -/
def appendIfValidIP (env : DecodeEnv) (orig : List Addr) (s : String) : Option (List Addr) :=
  if env.isValidIPString s then (parseAddr s).map fun ip => orig ++ [ip] else some orig

def decodeResultIPList (env : DecodeEnv) (d : Decoder) (ent : DecodedEntry) : Option (Decoder × DecodedEntry) :=
  decodeItems (fun v ent => (appendIfValidIP env ent.entry.result.ipList v).map fun ipList =>
    { ent with entry.result.ipList := ipList }) (d.rest.length + 1) d ent

/-- `logEntry.parseDNSRewriteResultIPs`; `none` is a nil rewrite. -/
def parseDNSRewriteResultIPs (ent : DecodedEntry) : Option DecodedEntry :=
  ent.rewrite.map fun rewrite =>
    { ent with
      rewrite := some
        { rewrite with
          response := rewrite.response.map fun response => response.map fun p =>
            if p.1 = 1 ∨ p.1 = 28 then
              (p.1, p.2.map fun
                | .str s => .ip (parseIP s)
                | _ => .ip [])
            else p } }

/-- `decodeResultDNSRewriteResultKey`.  After a text that is no value the decoder of the source can read brackets and
braces yet, but nothing that sets a field; here it can read nothing. -/
def decodeResultDNSRewriteResultKey (env : DecodeEnv) (key : String) (d : Decoder) (ent : DecodedEntry) :
    Option (Decoder × DecodedEntry) :=
  if key = "RCode" then
    match d.token with
    | none => some (d, ent)
    | some (vToken, d) =>
      let rewrite := ent.rewrite.getD {}
      match vToken with
      | .number n => some (d, { ent with rewrite := some { rewrite with rcode := int64Value n } })
      | _ => some (d, { ent with rewrite := some rewrite })
  else if key = "Response" then
    let rewrite := ent.rewrite.getD {}
    let response := env.unmarshal d (rewrite.response.getD [])
    (parseDNSRewriteResultIPs { ent with rewrite := some { rewrite with response := response } }).map fun ent =>
      (d.skipValue, ent)
  else some (d, ent)

/-- The loop of `decodeResultDNSRewriteResult`. -/
def decodeResultDNSRewriteResult (env : DecodeEnv) : ℕ → Decoder → DecodedEntry → Option (Decoder × DecodedEntry)
  | 0, _, _ => none
  | n + 1, d, ent =>
    match parseKeyToken d with
    | (none, d) => some (d, ent)
    | (some key, d) =>
      if key = "" then decodeResultDNSRewriteResult env n d ent
      else
        (decodeResultDNSRewriteResultKey env key d ent).bind fun p => decodeResultDNSRewriteResult env n p.1 p.2

/-- `filtering.RewrittenAutoHosts` -/
def rewrittenAutoHosts : UInt8 := 10

/-- `translateResult` -/
def translateResult (ent : DecodedEntry) : DecodedEntry :=
  if ent.entry.result.reason ≠ rewrittenAutoHosts ∨ ent.entry.result.ipList = [] then ent
  else
    let rewrite := ent.rewrite.getD {}
    let response := ent.entry.result.ipList.foldl
      (fun response ip => addRecord response (if ip.is4 then 1 else 28) (.addr ip)) (rewrite.response.getD [])
    { ent with entry.result.ipList := [], rewrite := some { rewrite with response := some response } }

/-! ## The result and the entry -/

/-- The last rule with a field set, a new one if there is none. -/
def setLastRule (e : LogEntry) (set : ResultRule → ResultRule) : LogEntry :=
  let rules := if e.result.rules = [] then [⟨"", .invalid, 0⟩] else e.result.rules
  { e with result.rules := rules.modify (rules.length - 1) set }

/-- `resultHandlers` -/
def resultHandlers (key : String) : Option LogEntryHandler :=
  if key = "Rule" then some (stringHandler fun s e => (setLastRule e fun r => { r with text := s }, true))
  else if key = "FilterID" then
    some (int64Handler fun id e => setLastRule e fun r => { r with filterListID := id })
  else Querylog.resultHandlers key

/-- `resultDecHandler`; `none` if there is no handler. -/
def resultDecHandler (env : DecodeEnv) (name : String) (d : Decoder) (ent : DecodedEntry) :
    Option (Option (Decoder × DecodedEntry)) :=
  if name = "ReverseHosts" then some (decodeResultReverseHosts env d ent)
  else if name = "IPList" then some (decodeResultIPList env d ent)
  else if name = "Rules" then some (decodeResultRules d ent)
  else if name = "DNSRewriteResult" then some (decodeResultDNSRewriteResult env (d.rest.length + 1) d ent)
  else none

/-- Decodes the value of a key with the handlers; a key without a handler is passed. -/
def decodeValue (handlers : String → Option LogEntryHandler) (key : String) (d : Decoder) (ent : DecodedEntry) :
    Bool × Decoder × DecodedEntry :=
  match Querylog.decodeValue handlers key d ent.entry with
  | (ok, d, entry) => (ok, d, { ent with entry := entry })

def decodeResultKeyValue (env : DecodeEnv) (s : Decoder × DecodedEntry) : Option (Bool × Decoder × DecodedEntry) :=
  match parseKeyToken s.1 with
  | (none, d) => some (false, d, s.2)
  | (some key, d) =>
    if key = "" then some (true, d, s.2)
    else
      match resultDecHandler env key d s.2 with
      | some r => r.map fun s => (true, s)
      | none => some (decodeValue resultHandlers key d s.2)

/-- `decodeResult`, with the deferred call of `translateResult`. -/
def decodeResult (env : DecodeEnv) (s : Decoder × DecodedEntry) : Option (Decoder × DecodedEntry) :=
  (repeatWhile (decodeResultKeyValue env) (s.1.rest.length + 1) s).map fun s => (s.1, translateResult s.2)

def decodeLogEntryKeyValue (env : DecodeEnv) (s : Decoder × DecodedEntry) : Option (Bool × Decoder × DecodedEntry) :=
  match s.1.token with
  | none => some (false, s)
  | some (.delim _, d) => some (true, d, s.2)
  | some (.str key, d) =>
    if key = "Result" then (decodeResult env (d, s.2)).map fun s => (true, s)
    else some (decodeValue logEntryHandlers key d s.2)
  | some (_, d) => some (false, d, s.2)

/-- `decodeLogEntry`; `none` if it panics or does not end. -/
def decodeLogEntry (env : DecodeEnv) (ent : DecodedEntry) (str : Bytes) : Option DecodedEntry :=
  (repeatWhile (decodeLogEntryKeyValue env) ((runes str).length + 1) (Decoder.new (runes str), ent)).map (·.2)

/-! ## The rules of a line -/

/-- What a line does to the rules. -/
inductive RuleEvent
  /-- An array of rules starts. -/
  | rules
  /-- A brace closes an object in the array. -/
  | close
  /-- A field of a rule, and whether its value is of the type of the field. -/
  | field (usable : Bool)
  /-- A rule or a filter ID of the format without the array. -/
  | rule
deriving DecidableEq

/-- The events of a loop that goes on as long as its body returns true. -/
def eventsWhile {σ : Type} (body : σ → Bool × σ) (events : σ → List RuleEvent) : ℕ → σ → List RuleEvent
  | 0, _ => []
  | n + 1, s => events s ++ if (body s).1 then eventsWhile body events n (body s).2 else []

/-- The events of the fields of an array of rules. -/
def ruleTokenEvents : ℕ → Decoder → List RuleEvent
  | 0, _ => []
  | n + 1, d =>
    match d.token with
    | none => []
    | some (.delim c, d) =>
      if c = ']' then [] else if c = '\x7d' then .close :: ruleTokenEvents n d else ruleTokenEvents n d
    | some (.str key, d) =>
      match ruleField key with
      | none => ruleTokenEvents n d
      | some field =>
        match d.token with
        | none => ruleTokenEvents n d
        | some (vToken, d) => .field (field vToken).isSome :: ruleTokenEvents n d
    | some (_, _) => []

/-- The events of the value of a key of a result. -/
def resultEvents (s : Decoder × LogEntry) : List RuleEvent :=
  match parseKeyToken s.1 with
  | (none, _) => []
  | (some key, d) =>
    match d.token with
    | some (.delim _, d) => if key = "Rules" then .rules :: ruleTokenEvents (d.rest.length + 1) d else []
    | some (.str _, _) => if key = "Rule" then [.rule] else []
    | some (.number n, _) => if key = "FilterID" ∧ (parseInt64 n).isSome then [.rule] else []
    | _ => []

/-- The events of the value of a key of an entry. -/
def entryEvents (s : Decoder × LogEntry) : List RuleEvent :=
  match s.1.token with
  | some (.str key, d) =>
    if key = "Result" then eventsWhile Querylog.decodeResultKeyValue resultEvents (d.rest.length + 1) (d, s.2) else []
  | _ => []

/-- The events of a line, in their order. -/
def ruleEvents (str : Bytes) : List RuleEvent :=
  eventsWhile Querylog.decodeLogEntryKeyValue entryEvents ((runes str).length + 1) (Decoder.new (runes str), {})

/-- The number of the braces that were closed in the array and the number of the rules, after an event.  A field adds a
rule if there are not more rules than braces; `none` if it cannot be set, as there are fewer rules than braces. -/
def RuleEvent.count : ℕ × ℕ → RuleEvent → Option (ℕ × ℕ)
  | (_, r), .rules => some (0, r)
  | (i, r), .close => some (i + 1, r)
  | (i, r), .field usable =>
    if usable = true ∧ r < i then none else some (i, if r < i + 1 then r + 1 else r)
  | (i, r), .rule => some (i, max r 1)

/-- In every array, a field with a value of its type comes after no more braces than there are rules. -/
def Fits (r : ℕ) (events : List RuleEvent) : Prop := (events.foldlM RuleEvent.count (0, r)).isSome

instance (r : ℕ) (events : List RuleEvent) : Decidable (Fits r events) := inferInstanceAs (Decidable (_ = true))

/-! ### Progress -/

theorem length_parseKeyToken (d : Decoder) : (parseKeyToken d).2.rest.length ≤ d.rest.length := by
  unfold parseKeyToken
  split
  · exact le_rfl
  all_goals
    rename_i h
    exact (Decoder.length_token h).le

theorem length_parseKeyToken_some {d d' : Decoder} {key : String} (h : parseKeyToken d = (some key, d')) :
    d'.rest.length < d.rest.length := by
  unfold parseKeyToken at h
  split at h
  · cases h
  all_goals
    rename_i htoken
    obtain ⟨-, rfl⟩ := Prod.mk.inj h
    exact Decoder.length_token htoken

theorem length_items (n : ℕ) (d : Decoder) : (decodeResultItems n d).rest.length ≤ d.rest.length := by
  induction n generalizing d with
  | zero => exact le_rfl
  | succ n ih =>
    unfold decodeResultItems
    split
    · exact le_rfl
    · rename_i h
      have := Decoder.length_token h
      split
      · exact (ih _).trans this.le
      · exact this.le
    · rename_i h
      exact (ih _).trans (Decoder.length_token h).le

theorem length_ruleToken (n : ℕ) (d : Decoder) : (Querylog.decodeResultRuleToken n d).rest.length ≤ d.rest.length := by
  induction n generalizing d with
  | zero => exact le_rfl
  | succ n ih =>
    unfold Querylog.decodeResultRuleToken
    split
    · exact le_rfl
    · rename_i h
      have := Decoder.length_token h
      split
      · exact this.le
      · exact (ih _).trans this.le
    · rename_i h
      have := Decoder.length_token h
      split
      · split
        · exact (ih _).trans this.le
        · rename_i h'
          exact (ih _).trans ((Decoder.length_token h').le.trans this.le)
      · exact (ih _).trans this.le
    · rename_i h
      exact (Decoder.length_token h).le

theorem length_skipTokens {n depth : ℕ} {d d' : Decoder} (h : Decoder.skipTokens n depth d = some d') :
    d'.rest.length ≤ d.rest.length := by
  induction n generalizing depth d with
  | zero =>
    cases depth with
    | zero =>
      cases h
      exact le_rfl
    | succ depth => cases h
  | succ n ih =>
    cases depth with
    | zero =>
      cases h
      exact le_rfl
    | succ depth =>
      obtain ⟨p, htoken, h⟩ := Option.bind_eq_some_iff.1 h
      exact (ih h).trans (Decoder.length_token htoken).le

theorem length_skipValue (d : Decoder) : d.skipValue.rest.length ≤ d.rest.length := by
  unfold Decoder.skipValue
  cases hsep : d.separator with
  | none => exact le_rfl
  | some d' =>
    have hle := Decoder.length_separator hsep
    dsimp only
    split
    · cases hlex : d'.lexeme with
      | none => exact Nat.zero_le _
      | some p =>
        obtain ⟨t, d''⟩ := p
        have hlt := Decoder.length_lexeme hlex
        cases t with
        | delim c =>
          dsimp only
          split
          · cases hskip : Decoder.skipTokens d''.rest.length 1 d'' with
            | none => exact Nat.zero_le _
            | some d₃ =>
              have := length_skipTokens hskip
              rw [Option.getD_some]
              omega
          · exact Nat.zero_le _
        | _ => exact hlt.le.trans hle
    · exact le_rfl

theorem length_rewriteKey (key : String) (d : Decoder) :
    (Querylog.decodeResultDNSRewriteResultKey key d).rest.length ≤ d.rest.length := by
  unfold Querylog.decodeResultDNSRewriteResultKey
  split
  · split
    · exact le_rfl
    · rename_i h
      exact (Decoder.length_token h).le
  · split
    · exact length_skipValue d
    · exact le_rfl

theorem length_rewrite (n : ℕ) (d : Decoder) :
    (Querylog.decodeResultDNSRewriteResult n d).rest.length ≤ d.rest.length := by
  induction n generalizing d with
  | zero => exact le_rfl
  | succ n ih =>
    have hkey := length_parseKeyToken d
    unfold Querylog.decodeResultDNSRewriteResult
    split
    · rename_i h
      rwa [h] at hkey
    · rename_i h
      rw [h] at hkey
      refine (ih _).trans ?_
      split
      · exact hkey
      · exact (length_rewriteKey _ _).trans hkey

/-! ### The decoder and the events -/

/-- What is left of the line, and the number of the rules. -/
def place (s : Decoder × DecodedEntry) : Decoder × ℕ := (s.1, (rules s.2).length)

/-- A decoding that goes over the line and neither panics nor changes the number of the rules. -/
def Passes (full : Option (Decoder × DecodedEntry)) (d : Decoder) (ent : DecodedEntry) : Prop :=
  full.map place = some (d, (rules ent).length)

section Loops

variable {env : DecodeEnv} {d : Decoder} {ent : DecodedEntry} {n i : ℕ}

/-- The loop over an array passes it if every string does. -/
theorem passes_items {item : String → DecodedEntry → Option DecodedEntry}
    (hitem : ∀ v ent, ∃ ent', item v ent = some ent' ∧ rules ent' = rules ent) (hn : d.rest.length < n) :
    Passes (decodeItems item n d ent) (decodeResultItems n d) ent := by
  induction n generalizing d ent with
  | zero => omega
  | succ n ih =>
    unfold decodeItems decodeResultItems
    cases htoken : d.token with
    | none => rfl
    | some p =>
      obtain ⟨t, d'⟩ := p
      have hlt := Decoder.length_token htoken
      cases t with
      | delim c =>
        dsimp only
        split
        · exact ih (by omega)
        · rfl
      | str v =>
        obtain ⟨ent', hent', hrules⟩ := hitem v ent
        dsimp only
        rw [hent', Option.bind_some]
        have hrest : Passes (decodeItems item n d' ent') (decodeResultItems n d') ent' := ih (by omega)
        unfold Passes at hrest ⊢
        rw [hrest, hrules]
      | number n => exact ih (by omega)
      | bool b => exact ih (by omega)
      | null => exact ih (by omega)

theorem rules_setPTRRewriteResult (v : String) (ent : DecodedEntry) :
    rules (setPTRRewriteResult env v ent) = rules ent := by
  unfold setPTRRewriteResult
  dsimp only
  split
  · rfl
  · split <;> rfl

theorem rules_translateResult (ent : DecodedEntry) : rules (translateResult ent) = rules ent := by
  unfold translateResult
  split <;> rfl

/-- A key of a rewrite sets nothing but the rewrite. -/
theorem decodeResultDNSRewriteResultKey_eq (key : String) (d : Decoder) (ent : DecodedEntry) :
    ∃ rewrite, decodeResultDNSRewriteResultKey env key d ent =
      some (Querylog.decodeResultDNSRewriteResultKey key d, { ent with rewrite := rewrite }) := by
  unfold decodeResultDNSRewriteResultKey Querylog.decodeResultDNSRewriteResultKey
  split
  · cases d.token with
    | none => exact ⟨ent.rewrite, rfl⟩
    | some p =>
      obtain ⟨t, d'⟩ := p
      cases t <;> exact ⟨_, rfl⟩
  · split
    · exact ⟨_, rfl⟩
    · exact ⟨ent.rewrite, rfl⟩

theorem decodeResultDNSRewriteResult_eq (hn : d.rest.length < n) :
    ∃ rewrite, decodeResultDNSRewriteResult env n d ent =
      some (Querylog.decodeResultDNSRewriteResult n d, { ent with rewrite := rewrite }) := by
  induction n generalizing d ent with
  | zero => omega
  | succ n ih =>
    unfold decodeResultDNSRewriteResult Querylog.decodeResultDNSRewriteResult
    rcases hkey : parseKeyToken d with ⟨key, d'⟩
    cases key with
    | none => exact ⟨ent.rewrite, rfl⟩
    | some key =>
      have hlt := length_parseKeyToken_some hkey
      dsimp only
      by_cases hempty : key = ""
      · rw [if_pos hempty, if_pos hempty]
        exact ih (by omega)
      · rw [if_neg hempty, if_neg hempty]
        have hle := length_rewriteKey key d'
        obtain ⟨rewrite, hrewrite⟩ := @decodeResultDNSRewriteResultKey_eq env key d' ent
        have hlt' : (Querylog.decodeResultDNSRewriteResultKey key d').rest.length < n := by omega
        obtain ⟨rewrite', hrest⟩ := @ih _ { ent with rewrite := rewrite } hlt'
        exact ⟨rewrite', by rw [hrewrite]; exact hrest⟩

theorem passes_rewrite (hn : d.rest.length < n) :
    Passes (decodeResultDNSRewriteResult env n d ent) (Querylog.decodeResultDNSRewriteResult n d) ent := by
  obtain ⟨rewrite, h⟩ := @decodeResultDNSRewriteResult_eq env _ ent _ hn
  rw [h]
  rfl

/-! ### Rules -/

theorem ruleField_isSome {key : String} : (ruleField key).isSome ↔ key = "FilterListID" ∨ key = "IP" ∨ key = "Text" := by
  unfold ruleField
  split
  · simp [*]
  · split
    · simp [*]
    · split <;> simp [*]

/-- A field is set, or there are fewer rules than closing braces. -/
theorem map_decodeResultRuleKey {key : String} {field : Token → Option (ResultRule → ResultRule)} {t : Token}
    {d' : Decoder} (hkey : ruleField key = some field) (htoken : d.token = some (t, d')) :
    (decodeResultRuleKey key i d ent).map place =
      (RuleEvent.count (i, (rules ent).length) (.field (field t).isSome)).map fun c => (d', c.2) := by
  have hlen (rs : List ResultRule) :
      (if rs.length < i + 1 then rs ++ [⟨"", .invalid, 0⟩] else rs : List ResultRule).length =
        if rs.length < i + 1 then rs.length + 1 else rs.length := by
    split <;> simp
  unfold decodeResultRuleKey decodeVTokenAndAddRule RuleEvent.count
  rw [hkey, htoken]
  dsimp only [Option.bind_some]
  cases field t with
  | none =>
    simp only [Option.isSome_none, Bool.false_eq_true, false_and, if_false, Option.map_some]
    exact congrArg some (Prod.ext rfl (hlen _))
  | some set =>
    simp only [Option.isSome_some, true_and]
    unfold setRule
    by_cases hlt : (rules ent).length < i
    · rw [if_pos hlt, if_neg]
      · rfl
      · show ¬ i < (if (rules ent).length < i + 1 then rules ent ++ [_] else rules ent : List ResultRule).length
        rw [hlen]
        split <;> omega
    · rw [if_neg hlt, if_pos]
      · refine congrArg some (Prod.ext rfl ?_)
        show (List.modify (if (rules ent).length < i + 1 then rules ent ++ [_] else rules ent) i set).length = _
        rw [List.length_modify, hlen]
      · show i < (if (rules ent).length < i + 1 then rules ent ++ [_] else rules ent : List ResultRule).length
        rw [hlen]
        split <;> omega

theorem count_field {r : ℕ} {usable : Bool} {c : ℕ × ℕ} (h : RuleEvent.count (i, r) (.field usable) = some c) :
    c.1 = i := by
  unfold RuleEvent.count at h
  dsimp only at h
  split at h
  · cases h
  · cases h
    rfl

/-- A field and what comes after it. -/
theorem map_bind_decodeResultRuleKey {key : String} {field : Token → Option (ResultRule → ResultRule)} {t : Token}
    {d' dEnd : Decoder} {rest : Decoder × DecodedEntry → Option (Decoder × DecodedEntry)} {events : List RuleEvent}
    (hkey : ruleField key = some field) (htoken : d.token = some (t, d'))
    (hrest : ∀ ent', (rest (d', ent')).map place =
      (events.foldlM RuleEvent.count (i, (rules ent').length)).map fun c => (dEnd, c.2)) :
    ((decodeResultRuleKey key i d ent).bind rest).map place =
      ((RuleEvent.field (field t).isSome :: events).foldlM RuleEvent.count (i, (rules ent).length)).map fun c =>
        (dEnd, c.2) := by
  have hmap : (decodeResultRuleKey key i d ent).map place = _ := map_decodeResultRuleKey hkey htoken
  rw [List.foldlM_cons]
  cases hcount : RuleEvent.count (i, (rules ent).length) (.field (field t).isSome) with
  | none =>
    rw [hcount] at hmap
    rw [Option.map_eq_none_iff.1 hmap]
    rfl
  | some c =>
    rw [hcount] at hmap
    obtain ⟨⟨d₁, ent'⟩, hs, hplace⟩ := Option.map_eq_some_iff.1 hmap
    obtain ⟨hd, hlen⟩ := Prod.mk.inj hplace
    have hd : d₁ = d' := hd
    have hlen : (rules ent').length = c.2 := hlen
    rw [hs, Option.bind_some, hd, hrest ent', hlen, ← count_field hcount]
    rfl

/-- Without a field or a value nothing is set. -/
theorem decodeResultRuleKey_skips {key : String} (h : ruleField key = none ∨ d.token = none) :
    decodeResultRuleKey key i d ent = some (d, ent) := by
  unfold decodeResultRuleKey decodeVTokenAndAddRule
  rcases h with h | h
  · rw [h]
  · rw [h]
    cases ruleField key <;> rfl

/-- The loop over the rules counts their events. -/
theorem map_decodeResultRuleToken (hn : d.rest.length < n) :
    (decodeResultRuleToken n i d ent).map place =
      ((ruleTokenEvents n d).foldlM RuleEvent.count (i, (rules ent).length)).map fun c =>
        (Querylog.decodeResultRuleToken n d, c.2) := by
  induction n generalizing d ent i with
  | zero => omega
  | succ n ih =>
    unfold decodeResultRuleToken ruleTokenEvents Querylog.decodeResultRuleToken
    cases htoken : d.token with
    | none => rfl
    | some p =>
      obtain ⟨t, d₁⟩ := p
      have hlt := Decoder.length_token htoken
      cases t with
      | delim c =>
        dsimp only
        by_cases hend : c = ']'
        · rw [if_pos hend, if_pos hend, if_pos hend]
          rfl
        · rw [if_neg hend, if_neg hend, if_neg hend]
          by_cases hclose : c = '\x7d'
          · rw [if_pos hclose, if_pos hclose]
            exact ih (by omega)
          · rw [if_neg hclose, if_neg hclose]
            exact ih (by omega)
      | str key =>
        dsimp only
        cases hkey : ruleField key with
        | none =>
          have hno : ¬ (key = "FilterListID" ∨ key = "IP" ∨ key = "Text") := by
            rw [← ruleField_isSome, hkey]
            simp
          rw [if_neg hno, decodeResultRuleKey_skips (.inl hkey)]
          exact ih (d := d₁) (by omega)
        | some field =>
          rw [if_pos (ruleField_isSome.1 (by rw [hkey]; rfl))]
          cases htoken' : d₁.token with
          | none =>
            rw [decodeResultRuleKey_skips (.inr htoken')]
            exact ih (d := d₁) (by omega)
          | some q =>
            have hlt' := Decoder.length_token htoken'
            exact map_bind_decodeResultRuleKey hkey htoken' fun ent' => ih (d := q.2) (by omega)
      | number m => rfl
      | bool b => rfl
      | null => rfl

end Loops

/-! ### Keys and values -/

section Keys

variable {handlers : String → Option LogEntryHandler} {key : String} {handler : LogEntryHandler}

/-- The entry with another value in it has the same rules, and is the same but for them and for its addresses. -/
def SetsPlain (set : LogEntry → LogEntry) : Prop :=
  ∀ e, (set e).result.rules = e.result.rules ∧ (set e).plain = set e.plain

/-- A handler accepts a token or not whatever the entry is, and sets no rule. -/
def Plain (handler : LogEntryHandler) : Prop :=
  ∀ t, (∀ e e', (handler t e).2 = (handler t e').2) ∧ SetsPlain fun e => (handler t e).1

theorem setsPlain_id : SetsPlain id := fun _ => ⟨rfl, rfl⟩

theorem plain_string {set : String → LogEntry → LogEntry × Bool}
    (h : ∀ v, (∀ e e', (set v e).2 = (set v e').2) ∧ SetsPlain fun e => (set v e).1) : Plain (stringHandler set) := by
  intro t
  cases t with
  | str v => exact h v
  | _ => exact ⟨fun _ _ => rfl, setsPlain_id⟩

theorem plain_set {set : String → LogEntry → LogEntry} (h : ∀ v, SetsPlain (set v)) :
    Plain (stringHandler fun v e => (set v e, true)) := plain_string fun v => ⟨fun _ _ => rfl, h v⟩

theorem plain_bool {set : Bool → LogEntry → LogEntry} (h : ∀ b, SetsPlain (set b)) : Plain (boolHandler set) := by
  intro t
  cases t with
  | bool b => exact ⟨fun _ _ => rfl, h b⟩
  | _ => exact ⟨fun _ _ => rfl, setsPlain_id⟩

theorem int64Handler_number (set : ℤ → LogEntry → LogEntry) (n : List Char) (e : LogEntry) :
    int64Handler set (.number n) e = match parseInt64 n with
      | some i => (set i e, true)
      | none => (e, false) := rfl

theorem plain_int64 {set : ℤ → LogEntry → LogEntry} (h : ∀ i, SetsPlain (set i)) : Plain (int64Handler set) := by
  intro t
  cases t with
  | number n =>
    simp only [int64Handler_number]
    cases parseInt64 n with
    | none => exact ⟨fun _ _ => rfl, setsPlain_id⟩
    | some i => exact ⟨fun _ _ => rfl, h i⟩
  | _ => exact ⟨fun _ _ => rfl, setsPlain_id⟩

theorem plain_ite {c : Prop} [Decidable c] {a : LogEntryHandler} {b : Option LogEntryHandler} (ha : Plain a)
    (hb : ∀ handler, b = some handler → Plain handler) :
    ∀ handler, (if c then some a else b) = some handler → Plain handler := by
  intro handler h
  split at h
  · exact Option.some.inj h ▸ ha
  · exact hb handler h

theorem plain_none : ∀ handler, (none : Option LogEntryHandler) = some handler → Plain handler := by simp

theorem plain_logEntryHandlers : logEntryHandlers key = some handler → Plain handler := by
  have hip : Plain (stringHandler fun v e => (if e.ip = [] then { e with ip := parseIP v } else e, true)) :=
    plain_set fun v e => by
      refine ⟨by split <;> rfl, ?_⟩
      show LogEntry.plain (if e.ip = [] then _ else _) = if e.ip = [] then _ else _
      split <;> rfl
  have hanswer : Plain (stringHandler fun v e =>
      let p := base64Decode v.toList
      ({ e with answer := p.1 }, p.2)) := plain_string fun _ => ⟨fun _ _ => rfl, fun _ => ⟨rfl, rfl⟩⟩
  have horig : Plain (stringHandler fun v e =>
      let p := base64Decode v.toList
      ({ e with origAnswer := p.1 }, p.2)) := plain_string fun _ => ⟨fun _ _ => rfl, fun _ => ⟨rfl, rfl⟩⟩
  unfold logEntryHandlers
  refine plain_ite (plain_set ?_) (plain_ite hip (plain_ite (plain_string ?time) (plain_ite (plain_set ?_)
    (plain_ite (plain_set ?_) (plain_ite (plain_set ?_) (plain_ite (plain_string ?proto) (plain_ite hanswer
    (plain_ite horig (plain_ite (plain_set ?_) (plain_ite (plain_bool ?_) (plain_ite (plain_bool ?_)
    (plain_ite (plain_set ?_) (plain_ite (plain_int64 ?_) plain_none))))))))))))) handler
  case time =>
    intro v
    cases parseRFC3339Nano (utf8 v.toList) <;> exact ⟨fun _ _ => rfl, fun _ => ⟨rfl, rfl⟩⟩
  case proto =>
    intro v
    cases newClientProto v <;> exact ⟨fun _ _ => rfl, fun _ => ⟨rfl, rfl⟩⟩
  all_goals exact fun _ _ => ⟨rfl, rfl⟩

theorem plain_resultHandlers : Querylog.resultHandlers key = some handler → Plain handler := by
  unfold Querylog.resultHandlers
  refine plain_ite (plain_bool ?_) (plain_ite (plain_set ?_) (plain_ite (plain_int64 ?_) (plain_ite (plain_int64 ?_)
    (plain_ite (plain_set ?_) (plain_ite (plain_set ?_) plain_none))))) handler
  all_goals exact fun _ _ => ⟨rfl, rfl⟩

/-- A plain handler reads the value and keeps the rules. -/
theorem decodeValue_plain (h : ∀ handler, handlers key = some handler → Plain handler) (d : Decoder)
    (ent : DecodedEntry) (e : LogEntry) :
    (decodeValue handlers key d ent).1 = (Querylog.decodeValue handlers key d e).1 ∧
      (decodeValue handlers key d ent).2.1 = (Querylog.decodeValue handlers key d e).2.1 ∧
      rules (decodeValue handlers key d ent).2.2 = rules ent := by
  unfold decodeValue Querylog.decodeValue
  cases hhandler : handlers key with
  | none => exact ⟨rfl, rfl, rfl⟩
  | some handler =>
    dsimp only
    cases d.token with
    | none => exact ⟨rfl, rfl, rfl⟩
    | some p =>
      obtain ⟨hflag, hsets⟩ := h handler hhandler p.1
      exact ⟨hflag ent.entry e, rfl, (hsets ent.entry).1⟩

theorem length_setLastRule (e : LogEntry) (set : ResultRule → ResultRule) :
    (setLastRule e set).result.rules.length = max e.result.rules.length 1 := by
  unfold setLastRule
  dsimp only
  rw [List.length_modify]
  split
  · rename_i hnil
    rw [hnil]
    rfl
  · rename_i hne
    have := List.length_pos_of_ne_nil hne
    omega

end Keys

section Lines

variable {env : DecodeEnv} (henv : ∀ s, env.isValidIPString s = true → parseAddr s ≠ none) {d d' : Decoder}
  {ent : DecodedEntry} {key : String} {i : ℕ}

theorem resultEvents_eq_nil (hkey : parseKeyToken d = (some key, d'))
    (hne : key ≠ "Rules" ∧ key ≠ "Rule" ∧ key ≠ "FilterID") (e : LogEntry) : resultEvents (d, e) = [] := by
  unfold resultEvents
  rw [hkey]
  dsimp only
  split
  · exact if_neg hne.1
  · exact if_neg hne.2.1
  · exact if_neg fun h => hne.2.2 h.1
  · rfl

theorem passes_reverseHosts :
    Passes (decodeResultReverseHosts env d ent) (decodeResultItems (d.rest.length + 1) d) ent :=
  passes_items (fun v ent => ⟨_, rfl, rules_setPTRRewriteResult v ent⟩) (Nat.lt_succ_self _)

include henv in
theorem passes_ipList : Passes (decodeResultIPList env d ent) (decodeResultItems (d.rest.length + 1) d) ent := by
  refine passes_items (fun v ent => ?_) (Nat.lt_succ_self _)
  unfold appendIfValidIP
  by_cases hvalid : env.isValidIPString v = true
  · obtain ⟨ip, hip⟩ := Option.ne_none_iff_exists'.1 (henv v hvalid)
    rw [if_pos hvalid, hip]
    exact ⟨_, rfl, rfl⟩
  · rw [if_neg hvalid]
    exact ⟨_, rfl, rfl⟩

/-- What a key and its value do. -/
def step (s : Bool × Decoder × DecodedEntry) : Bool × Decoder × ℕ := (s.1, place s.2)

theorem map_decodeResultRules (e : LogEntry) (hkey : parseKeyToken d = (some "Rules", d')) :
    (decodeResultRules d' ent).map place = ((resultEvents (d, e)).foldlM RuleEvent.count (i, (rules ent).length)).map
      fun c => (Querylog.decodeResultRules d', c.2) := by
  unfold decodeResultRules Querylog.decodeResultRules resultEvents
  rw [hkey]
  dsimp only
  cases d'.token with
  | none => rfl
  | some p =>
    obtain ⟨t, d₁⟩ := p
    cases t with
    | delim c => exact map_decodeResultRuleToken (Nat.lt_succ_self _)
    | _ => rfl

/-- A value of the format without the array. -/
theorem map_decodeValue_rule (e : LogEntry) (hkey : parseKeyToken d = (some key, d'))
    (hrule : key = "Rule" ∨ key = "FilterID") :
    some (step (decodeValue resultHandlers key d' ent)) =
      ((resultEvents (d, e)).foldlM RuleEvent.count (i, (rules ent).length)).map fun c =>
        ((Querylog.decodeValue Querylog.resultHandlers key d' e).1,
          (Querylog.decodeValue Querylog.resultHandlers key d' e).2.1, c.2) := by
  unfold resultEvents
  rw [hkey]
  dsimp only
  unfold decodeValue Querylog.decodeValue
  rcases hrule with rfl | rfl
  · rw [show resultHandlers "Rule" = some (stringHandler fun s e => (setLastRule e fun r => { r with text := s }, true))
      from rfl, show Querylog.resultHandlers "Rule" = some (stringHandler fun _ e => (e, true)) from rfl]
    cases d'.token with
    | none => rfl
    | some p =>
      obtain ⟨t, d₁⟩ := p
      cases t with
      | str s => exact congrArg (fun r => some (true, d₁, r)) (length_setLastRule _ _)
      | _ => rfl
  · rw [show resultHandlers "FilterID" =
        some (int64Handler fun id e => setLastRule e fun r => { r with filterListID := id }) from rfl,
      show Querylog.resultHandlers "FilterID" = some (int64Handler fun _ e => e) from rfl]
    cases d'.token with
    | none => rfl
    | some p =>
      obtain ⟨t, d₁⟩ := p
      cases t with
      | number n =>
        simp only [int64Handler_number]
        cases parseInt64 n with
        | none => rfl
        | some id => exact congrArg (fun r => some (true, d₁, r)) (length_setLastRule _ _)
      | _ => rfl

include henv in
/-- A key of a result and its value. -/
theorem map_decodeResultKeyValue (e : LogEntry) :
    (decodeResultKeyValue env (d, ent)).map step =
      ((resultEvents (d, e)).foldlM RuleEvent.count (i, (rules ent).length)).map fun c =>
        ((Querylog.decodeResultKeyValue (d, e)).1, (Querylog.decodeResultKeyValue (d, e)).2.1, c.2) := by
  have hstep (full : Option (Decoder × DecodedEntry)) :
      (full.map fun s => (true, s)).map step = (full.map place).map fun s => (true, s) := by
    rw [Option.map_map, Option.map_map]
    rfl
  unfold decodeResultKeyValue Querylog.decodeResultKeyValue
  rcases hkey : parseKeyToken d with ⟨key, d'⟩
  cases key with
  | none =>
    unfold resultEvents
    rw [hkey]
    rfl
  | some key =>
    dsimp only
    by_cases hempty : key = ""
    · rw [if_pos hempty, if_pos hempty, resultEvents_eq_nil hkey (by rw [hempty]; decide)]
      rfl
    rw [if_neg hempty, if_neg hempty]
    unfold resultDecHandler Querylog.resultDecHandler
    by_cases hhosts : key = "ReverseHosts"
    · rw [if_pos hhosts, if_pos (.inl hhosts), resultEvents_eq_nil hkey (by rw [hhosts]; decide)]
      dsimp only
      rw [hstep, passes_reverseHosts]
      rfl
    by_cases hlist : key = "IPList"
    · rw [if_neg hhosts, if_pos hlist, if_pos (.inr hlist), resultEvents_eq_nil hkey (by rw [hlist]; decide)]
      dsimp only
      rw [hstep, passes_ipList henv]
      rfl
    by_cases hrules : key = "Rules"
    · rw [if_neg hhosts, if_neg hlist, if_pos hrules, if_neg (by simp [hhosts, hlist]), if_pos hrules]
      subst hrules
      dsimp only
      rw [hstep, map_decodeResultRules (i := i) e hkey, Option.map_map]
      rfl
    by_cases hrewrite : key = "DNSRewriteResult"
    · rw [if_neg hhosts, if_neg hlist, if_neg hrules, if_pos hrewrite, if_neg (by simp [hhosts, hlist]),
        if_neg hrules, if_pos hrewrite, resultEvents_eq_nil hkey (by rw [hrewrite]; decide)]
      dsimp only
      rw [hstep, passes_rewrite (Nat.lt_succ_self _)]
      rfl
    rw [if_neg hhosts, if_neg hlist, if_neg hrules, if_neg hrewrite, if_neg (by simp [hhosts, hlist]),
      if_neg hrules, if_neg hrewrite]
    dsimp only
    by_cases hrule : key = "Rule" ∨ key = "FilterID"
    · exact map_decodeValue_rule e hkey hrule
    · obtain ⟨hno, hno'⟩ := not_or.1 hrule
      rw [resultEvents_eq_nil hkey ⟨hrules, hno, hno'⟩]
      have hhandlers : resultHandlers key = Querylog.resultHandlers key := by
        unfold resultHandlers
        rw [if_neg hno, if_neg hno']
      have hplain := decodeValue_plain
        (fun handler (h : resultHandlers key = some handler) => plain_resultHandlers (hhandlers ▸ h)) d' ent e
      have hsame : Querylog.decodeValue resultHandlers key d' e =
          Querylog.decodeValue Querylog.resultHandlers key d' e := by
        unfold Querylog.decodeValue
        rw [hhandlers]
      rw [hsame] at hplain
      obtain ⟨hflag, hplace, hrules⟩ := hplain
      exact congrArg some (Prod.ext hflag (Prod.ext hplace (congrArg List.length hrules)))

/-- A loop counts the events of its rounds. -/
theorem map_repeatWhile {body : Decoder × DecodedEntry → Option (Bool × Decoder × DecodedEntry)}
    {body' : Decoder × LogEntry → Bool × Decoder × LogEntry} {events : Decoder × LogEntry → List RuleEvent}
    (hbody : ∀ d ent e i, (body (d, ent)).map step =
      ((events (d, e)).foldlM RuleEvent.count (i, (rules ent).length)).map fun c =>
        ((body' (d, e)).1, (body' (d, e)).2.1, c.2))
    (hlen : ∀ d e, (body' (d, e)).1 = true → (body' (d, e)).2.1.rest.length < d.rest.length) {n : ℕ}
    (hn : d.rest.length < n) (e : LogEntry) :
    (repeatWhile body n (d, ent)).map place =
      ((eventsWhile body' events n (d, e)).foldlM RuleEvent.count (i, (rules ent).length)).map fun c =>
        ((Querylog.repeatWhile body' n (d, e)).1, c.2) := by
  induction n generalizing d ent e i with
  | zero => omega
  | succ n ih =>
    have h := hbody d ent e i
    have hle := hlen d e
    unfold repeatWhile eventsWhile Querylog.repeatWhile
    rw [List.foldlM_append]
    revert h hle
    rcases body' (d, e) with ⟨flag, d', e'⟩
    intro h hle
    cases hc : (events (d, e)).foldlM RuleEvent.count (i, (rules ent).length) with
    | none =>
      rw [hc] at h
      rw [Option.map_eq_none_iff.1 h]
      rfl
    | some c =>
      rw [hc] at h
      obtain ⟨⟨flag', d'', ent'⟩, hs, hstep⟩ := Option.map_eq_some_iff.1 h
      obtain ⟨i', r'⟩ := c
      obtain ⟨rfl, hplace⟩ := Prod.mk.inj hstep
      obtain ⟨rfl, rfl⟩ := Prod.mk.inj hplace
      rw [hs, Option.bind_some]
      cases flag' with
      | false => rfl
      | true => exact ih (lt_of_lt_of_le (hle rfl) (Nat.le_of_lt_succ hn)) e'

theorem length_decodeValue (handlers : String → Option LogEntryHandler) (key : String) (d : Decoder) (e : LogEntry) :
    (Querylog.decodeValue handlers key d e).2.1.rest.length ≤ d.rest.length := by
  unfold Querylog.decodeValue
  split
  · exact le_rfl
  · split
    · exact le_rfl
    · rename_i h
      exact (Decoder.length_token h).le

theorem length_decodeResultKeyValue (d : Decoder) (e : LogEntry)
    (h : (Querylog.decodeResultKeyValue (d, e)).1 = true) :
    (Querylog.decodeResultKeyValue (d, e)).2.1.rest.length < d.rest.length := by
  unfold Querylog.decodeResultKeyValue at h ⊢
  rcases hkey : parseKeyToken d with ⟨key, d'⟩
  rw [hkey] at h
  cases key with
  | none => cases h
  | some key =>
    have hlt := length_parseKeyToken_some hkey
    dsimp only at h ⊢
    split
    · exact hlt
    · unfold Querylog.resultDecHandler
      refine lt_of_le_of_lt ?_ hlt
      split
      · rename_i hdec
        split_ifs at hdec
        all_goals obtain rfl := Option.some.inj hdec
        · exact length_items _ _
        · unfold Querylog.decodeResultRules
          split
          · exact le_rfl
          all_goals
            rename_i htoken
            have := (Decoder.length_token htoken).le
          · exact (length_ruleToken _ _).trans this
          · exact this
        · exact length_rewrite _ _
      · exact length_decodeValue _ _ _ _

theorem length_repeatWhile {body : Decoder × LogEntry → Bool × Decoder × LogEntry}
    (hbody : ∀ d e, (body (d, e)).2.1.rest.length ≤ d.rest.length) (n : ℕ) (d : Decoder) (e : LogEntry) :
    (Querylog.repeatWhile body n (d, e)).1.rest.length ≤ d.rest.length := by
  induction n generalizing d e with
  | zero => exact le_rfl
  | succ n ih =>
    have h := hbody d e
    unfold Querylog.repeatWhile
    revert h
    rcases body (d, e) with ⟨flag, d', e'⟩
    intro h
    cases flag with
    | false => exact h
    | true => exact (ih d' e').trans h

theorem length_resultKeyValue_le (d : Decoder) (e : LogEntry) :
    (Querylog.decodeResultKeyValue (d, e)).2.1.rest.length ≤ d.rest.length := by
  by_cases h : (Querylog.decodeResultKeyValue (d, e)).1 = true
  · exact (length_decodeResultKeyValue d e h).le
  · unfold Querylog.decodeResultKeyValue at h ⊢
    have hle := length_parseKeyToken d
    rcases hkey : parseKeyToken d with ⟨key, d'⟩
    rw [hkey] at h hle
    cases key with
    | none => exact hle
    | some key =>
      dsimp only at h ⊢
      split
      · exact hle
      · rename_i hempty
        rw [if_neg hempty] at h
        split
        · rename_i hdec
          rw [hdec] at h
          exact absurd rfl h
        · exact (length_decodeValue _ _ _ _).trans hle

include henv in
/-- A key of an entry and its value. -/
theorem map_decodeLogEntryKeyValue (e : LogEntry) :
    (decodeLogEntryKeyValue env (d, ent)).map step =
      ((entryEvents (d, e)).foldlM RuleEvent.count (i, (rules ent).length)).map fun c =>
        ((Querylog.decodeLogEntryKeyValue (d, e)).1, (Querylog.decodeLogEntryKeyValue (d, e)).2.1, c.2) := by
  unfold decodeLogEntryKeyValue Querylog.decodeLogEntryKeyValue entryEvents
  cases d.token with
  | none => rfl
  | some p =>
    obtain ⟨t, d'⟩ := p
    cases t with
    | str key =>
      dsimp only
      by_cases hkey : key = "Result"
      · rw [if_pos hkey, if_pos hkey, if_pos hkey]
        have hloop := @map_repeatWhile d' ent i _ _ _ (fun d ent e i => map_decodeResultKeyValue henv e)
          length_decodeResultKeyValue _ (Nat.lt_succ_self _) e
        have htranslate (full : Option (Decoder × DecodedEntry)) :
            ((full.map fun s => (s.1, translateResult s.2)).map fun s => (true, s)).map step =
              (full.map place).map fun s => (true, s) := by
          rw [Option.map_map, Option.map_map, Option.map_map]
          exact congrArg (Option.map · full) (funext fun s =>
            Prod.ext rfl (Prod.ext rfl (congrArg List.length (rules_translateResult s.2))))
        unfold decodeResult
        rw [htranslate, hloop, Option.map_map]
        rfl
      · rw [if_neg hkey, if_neg hkey, if_neg hkey]
        obtain ⟨hflag, hplace, hrules⟩ := decodeValue_plain
          (fun handler (h : logEntryHandlers key = some handler) => plain_logEntryHandlers h) d' ent e
        exact congrArg some (Prod.ext hflag (Prod.ext hplace (congrArg List.length hrules)))
    | _ => rfl

theorem length_decodeLogEntryKeyValue (d : Decoder) (e : LogEntry)
    (h : (Querylog.decodeLogEntryKeyValue (d, e)).1 = true) :
    (Querylog.decodeLogEntryKeyValue (d, e)).2.1.rest.length < d.rest.length := by
  unfold Querylog.decodeLogEntryKeyValue at h ⊢
  cases htoken : d.token with
  | none =>
    rw [htoken] at h
    cases h
  | some p =>
    obtain ⟨t, d'⟩ := p
    have hlt := Decoder.length_token htoken
    cases t with
    | str key =>
      dsimp only
      split
      · exact lt_of_le_of_lt (length_repeatWhile length_resultKeyValue_le _ _ _) hlt
      · exact lt_of_le_of_lt (length_decodeValue _ _ _ _) hlt
    | _ => exact hlt

include henv in
/-- The decoder goes over the line and counts the events. -/
theorem map_decodeLogEntry (str : Bytes) :
    (decodeLogEntry env ent str).map (fun ent => (rules ent).length) =
      ((ruleEvents str).foldlM RuleEvent.count (i, (rules ent).length)).map (·.2) := by
  have hloop := @map_repeatWhile (Decoder.new (runes str)) ent i _ _ _
    (fun d ent e i => map_decodeLogEntryKeyValue henv e) length_decodeLogEntryKeyValue _ (Nat.lt_succ_self _) {}
  have hcount := congrArg (Option.map Prod.snd) hloop
  rw [Option.map_map, Option.map_map] at hcount
  unfold decodeLogEntry
  rw [Option.map_map]
  exact hcount

end Lines

/-- A line is decoded without a panic exactly if no field of a rule comes after more closing braces than there are
rules. -/
theorem decodeLogEntry_isSome {env : DecodeEnv} (henv : ∀ s, env.isValidIPString s = true → parseAddr s ≠ none)
    (ent : DecodedEntry) (str : Bytes) :
    (decodeLogEntry env ent str).isSome = true ↔ Fits (rules ent).length (ruleEvents str) := by
  have hmap : (decodeLogEntry env ent str).map (fun ent => (rules ent).length) =
      ((ruleEvents str).foldlM RuleEvent.count (0, (rules ent).length)).map (·.2) := map_decodeLogEntry henv str
  unfold Fits
  rw [← Option.isSome_map (f := fun ent => (rules ent).length), hmap, Option.isSome_map]

/-- The library functions as they are for addresses and names, with a `Decode` that reads no record. -/
def netutilEnv : DecodeEnv where
  isValidIPString s := (parseAddr s).isSome
  fqdn s := if s.endsWith "." then s else s ++ "."
  unmarshal _ response := some response

theorem netutilEnv_valid (s : String) (h : netutilEnv.isValidIPString s = true) : parseAddr s ≠ none :=
  Option.isSome_iff_ne_none.1 h

/-- A line that is cut in its second rule. -/
theorem decodeLogEntry_isSome_truncated :
    (decodeLogEntry netutilEnv {}
      (utf8 "\x7b\"Result\":\x7b\"Rules\":[\x7b\"Text\":\"a\"\x7d,\x7b\"IP\":\"1.2.3.4".toList)).isSome = true :=
  (decodeLogEntry_isSome netutilEnv_valid {} _).2 (by decide +kernel)

/-- A rule without fields before one with a text. -/
theorem not_decodes_emptyRule :
    ¬ ∀ env : DecodeEnv, (∀ s, env.isValidIPString s = true → parseAddr s ≠ none) →
      ∀ (ent : DecodedEntry) (str : Bytes), (decodeLogEntry env ent str).isSome = true := by
  intro h
  have hsome := h netutilEnv netutilEnv_valid {}
    (utf8 "\x7b\"Result\":\x7b\"Rules\":[\x7b\x7d,\x7b\"Text\":\"a\"\x7d]\x7d\x7d".toList)
  revert hsome
  decide +kernel

end Decoding

end AdGuardHome.Querylog
