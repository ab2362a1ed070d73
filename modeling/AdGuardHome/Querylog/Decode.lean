import AdGuardHome.Aghnet.ParseIP
import AdGuardHome.Lib.JsonDecoder
import AdGuardHome.Querylog.Entry

/-!
# Decoding of log entries

The decoder of the query log reads a line token by token.  Here are its handlers, and a decoder that reads over the
rules, the addresses and the rewrite of a result: it has the places that the decoder passes, and what it reads besides
(`plain_decoded`).  From the line of an entry it reads the fields of the entry; the address has the same text.
-/

namespace AdGuardHome.Querylog

open AdGuardHome.Aghnet AdGuardHome.Lib AdGuardHome.Net

/-- A loop that goes on as long as its body returns true, at most so many times. -/
def repeatWhile {σ : Type} (body : σ → Bool × σ) : ℕ → σ → σ
  | 0, s => s
  | n + 1, s =>
    match body s with
    | (true, s) => repeatWhile body n s
    | (false, s) => s

/-- `Number.Int64`; `none` is an error. -/
def parseInt64 (text : List Char) : Option ℤ :=
  let sign : ℤ := if text.head? = some '-' then -1 else 1
  let ds := if text.head? = some '-' then text.tail else text
  if ds = [] ∨ ds.all Json.isDigit = false then none
  else
    let n := sign * Nat.ofDigitChars 10 ds 0
    if -2 ^ 63 ≤ n ∧ n < 2 ^ 63 then some n else none

/-! ## Handlers -/

/-- A handler sets a field to the value of a token; false is an error. -/
abbrev LogEntryHandler := Token → LogEntry → LogEntry × Bool

/-- A handler of strings, which keeps the entry if the token is no string. -/
def stringHandler (set : String → LogEntry → LogEntry × Bool) : LogEntryHandler
  | .str s, e => set s e
  | _, e => (e, true)

def boolHandler (set : Bool → LogEntry → LogEntry) : LogEntryHandler
  | .bool b, e => (set b e, true)
  | _, e => (e, true)

/-- A handler of numbers, with an error for those that are no `int64`. -/
def int64Handler (set : ℤ → LogEntry → LogEntry) : LogEntryHandler
  | .number text, e =>
    match parseInt64 text with
    | some i => (set i e, true)
    | none => (e, false)
  | _, e => (e, true)

/-- `logEntryHandlers` -/
def logEntryHandlers (key : String) : Option LogEntryHandler :=
  if key = "CID" then some (stringHandler fun v e => ({ e with clientID := v }, true))
  else if key = "IP" then
    some (stringHandler fun v e => (if e.ip = [] then { e with ip := parseIP v } else e, true))
  else if key = "T" then
    some (stringHandler fun v e =>
      match parseRFC3339Nano (utf8 v.toList) with
      | some t => ({ e with time := t }, true)
      | none => ({ e with time := ⟨0, 0⟩ }, false))
  else if key = "QH" then some (stringHandler fun v e => ({ e with qHost := v }, true))
  else if key = "QT" then some (stringHandler fun v e => ({ e with qType := v }, true))
  else if key = "QC" then some (stringHandler fun v e => ({ e with qClass := v }, true))
  else if key = "CP" then
    some (stringHandler fun v e =>
      match newClientProto v with
      | some p => ({ e with clientProto := p }, true)
      | none => ({ e with clientProto := .plain }, false))
  else if key = "Answer" then
    some (stringHandler fun v e =>
      let p := base64Decode v.toList
      ({ e with answer := p.1 }, p.2))
  else if key = "OrigAnswer" then
    some (stringHandler fun v e =>
      let p := base64Decode v.toList
      ({ e with origAnswer := p.1 }, p.2))
  else if key = "ECS" then some (stringHandler fun v e => ({ e with reqECS := v }, true))
  else if key = "Cached" then some (boolHandler fun v e => { e with cached := v })
  else if key = "AD" then some (boolHandler fun v e => { e with authenticatedData := v })
  else if key = "Upstream" then some (stringHandler fun v e => ({ e with upstream := v }, true))
  else if key = "Elapsed" then some (int64Handler fun i e => { e with elapsed := Int64.ofInt i })
  else none

/-- `resultHandlers`, with the rules left out. -/
def resultHandlers (key : String) : Option LogEntryHandler :=
  if key = "IsFiltered" then some (boolHandler fun v e => { e with result.isFiltered := v })
  else if key = "Rule" then some (stringHandler fun _ e => (e, true))
  else if key = "FilterID" then some (int64Handler fun _ e => e)
  else if key = "Reason" then some (int64Handler fun i e => { e with result.reason := UInt8.ofNat (i % 256).toNat })
  else if key = "ServiceName" then some (stringHandler fun v e => ({ e with result.serviceName := v }, true))
  else if key = "CanonName" then some (stringHandler fun v e => ({ e with result.canonName := v }, true))
  else none

/-! ## The result

The rules, the addresses and the rewrite of a result are read over here; `Decoding` reads them, too. -/

/-- The loop of `decodeResultRuleToken`. -/
def decodeResultRuleToken : ℕ → Decoder → Decoder
  | 0, d => d
  | n + 1, d =>
    match d.token with
    | none => d
    | some (.delim c, d) => if c = ']' then d else decodeResultRuleToken n d
    | some (.str key, d) =>
      if key = "FilterListID" ∨ key = "IP" ∨ key = "Text" then
        match d.token with
        | none => decodeResultRuleToken n d
        | some (_, d) => decodeResultRuleToken n d
      else decodeResultRuleToken n d
    | some (_, d) => d

def decodeResultRules (d : Decoder) : Decoder :=
  match d.token with
  | none => d
  | some (.delim _, d) => decodeResultRuleToken (d.rest.length + 1) d
  | some (_, d) => d

/-- The loops of `decodeResultReverseHosts` and `decodeResultIPList`. -/
def decodeResultItems : ℕ → Decoder → Decoder
  | 0, d => d
  | n + 1, d =>
    match d.token with
    | none => d
    | some (.delim c, d) => if c = '[' then decodeResultItems n d else d
    | some (_, d) => decodeResultItems n d

/-- `parseKeyToken`: the key, empty for a delimiter, and `none` for an error. -/
def parseKeyToken (d : Decoder) : Option String × Decoder :=
  match d.token with
  | none => (none, d)
  | some (.delim c, d) => (if c = '\x7d' then none else some "", d)
  | some (.str key, d) => (some key, d)
  | some (_, d) => (none, d)

def decodeResultDNSRewriteResultKey (key : String) (d : Decoder) : Decoder :=
  if key = "RCode" then
    match d.token with
    | none => d
    | some (_, d) => d
  else if key = "Response" then d.skipValue
  else d

/-- The loop of `decodeResultDNSRewriteResult`. -/
def decodeResultDNSRewriteResult : ℕ → Decoder → Decoder
  | 0, d => d
  | n + 1, d =>
    match parseKeyToken d with
    | (none, d) => d
    | (some key, d) =>
      decodeResultDNSRewriteResult n (if key = "" then d else decodeResultDNSRewriteResultKey key d)

/-- `resultDecHandler`; `none` if there is no handler. -/
def resultDecHandler (name : String) (d : Decoder) : Option Decoder :=
  if name = "ReverseHosts" ∨ name = "IPList" then some (decodeResultItems (d.rest.length + 1) d)
  else if name = "Rules" then some (decodeResultRules d)
  else if name = "DNSRewriteResult" then some (decodeResultDNSRewriteResult (d.rest.length + 1) d)
  else none

/-- Decodes the value of a key with the handlers; a key without a handler is passed. -/
def decodeValue (handlers : String → Option LogEntryHandler) (key : String) (d : Decoder) (e : LogEntry) :
    Bool × (Decoder × LogEntry) :=
  match handlers key with
  | none => (true, d, e)
  | some handler =>
    match d.token with
    | none => (false, d, e)
    | some (val, d) => let p := handler val e; (p.2, d, p.1)

def decodeResultKeyValue (s : Decoder × LogEntry) : Bool × (Decoder × LogEntry) :=
  match parseKeyToken s.1 with
  | (none, d) => (false, d, s.2)
  | (some key, d) =>
    if key = "" then (true, d, s.2)
    else
      match resultDecHandler key d with
      | some d => (true, d, s.2)
      | none => decodeValue resultHandlers key d s.2

def decodeResult (s : Decoder × LogEntry) : Decoder × LogEntry :=
  repeatWhile decodeResultKeyValue (s.1.rest.length + 1) s

/-! ## The entry -/

def decodeLogEntryKeyValue (s : Decoder × LogEntry) : Bool × (Decoder × LogEntry) :=
  match s.1.token with
  | none => (false, s)
  | some (.delim _, d) => (true, d, s.2)
  | some (.str key, d) =>
    if key = "Result" then (true, decodeResult (d, s.2)) else decodeValue logEntryHandlers key d s.2
  | some (_, d) => (false, d, s.2)

/-- What is read of a line besides the rules, the addresses and the rewrite. -/
def skimLogEntry (ent : LogEntry) (str : Bytes) : LogEntry :=
  (repeatWhile decodeLogEntryKeyValue ((runes str).length + 1) (Decoder.new (runes str), ent)).2

/-! ## Decoding what is encoded -/

/-- The loop reaches the second state from the first one, in no more rounds than characters are read. -/
def Runs (body : Decoder × LogEntry → Bool × (Decoder × LogEntry)) (s s' : Decoder × LogEntry) : Prop :=
  ∃ k, k + s'.1.rest.length ≤ s.1.rest.length ∧ ∀ n, repeatWhile body (n + k) s = repeatWhile body n s'

variable {body : Decoder × LogEntry → Bool × (Decoder × LogEntry)} {s s' s'' : Decoder × LogEntry}

theorem Runs.refl (s : Decoder × LogEntry) : Runs body s s := ⟨0, by simp, fun _ => rfl⟩

theorem Runs.trans (h : Runs body s s') (h' : Runs body s' s'') : Runs body s s'' := by
  obtain ⟨k, hk, hrun⟩ := h
  obtain ⟨k', hk', hrun'⟩ := h'
  exact ⟨k' + k, by omega, fun n => by rw [← Nat.add_assoc, hrun, hrun']⟩

theorem runs_of_body (h : body s = (true, s')) (hlen : s'.1.rest.length < s.1.rest.length) : Runs body s s' := by
  refine ⟨1, by omega, fun n => ?_⟩
  rw [repeatWhile, h]

/-- A loop that reaches a state in which its body returns false. -/
theorem Runs.repeatWhile_eq (h : Runs body s s') (hend : body s' = (false, s'')) {n : ℕ} (hn : s.1.rest.length < n) :
    repeatWhile body n s = s'' := by
  obtain ⟨k, hk, hrun⟩ := h
  obtain ⟨m, rfl⟩ : ∃ m, n = m + 1 + k := ⟨n - 1 - k, by omega⟩
  rw [hrun, repeatWhile, hend]

/-- The loop reads fields one after the other. -/
theorem runs_fields {fields : List (String × Json)} {effect : LogEntry → String × Json → LogEntry}
    (hfield : ∀ f ∈ fields, ∀ d d' e, Decoder.Reads d (.str f.1 :: f.2.tokens) d' →
      body (d, e) = (true, d', effect e f)) {d d' : Decoder} {e : LogEntry}
    (h : Decoder.Reads d (Json.tokensFields fields) d') : Runs body (d, e) (d', fields.foldl effect e) := by
  induction fields generalizing d e with
  | nil =>
    obtain rfl : d = d' := h
    exact Runs.refl _
  | cons f fields ih =>
    obtain ⟨k, v⟩ := f
    rw [Json.tokensFields, ← List.cons_append] at h
    obtain ⟨d₁, hf, hrest⟩ := Decoder.reads_append h
    have hlen := hf.length
    rw [List.length_cons] at hlen
    refine Runs.trans (runs_of_body (hfield (k, v) (by simp) d d₁ e hf) ?_)
      (ih (fun f hf => hfield f (by simp [hf])) hrest)
    simp only
    omega

/-! ### Loops that read over tokens -/

/-- The loop with its fuel passes the tokens and goes on after them. -/
def Passes (loop : ℕ → Decoder → Decoder) (ts : List Token) : Prop :=
  ∀ d d' n, Decoder.Reads d ts d' → d.rest.length < n → ∃ m, d'.rest.length < m ∧ loop n d = loop m d'

section passes

variable {loop : ℕ → Decoder → Decoder} {ts us : List Token}

theorem Passes.nil : Passes loop [] := by
  rintro d d' n rfl hn
  exact ⟨n, hn, rfl⟩

theorem Passes.append (h : Passes loop ts) (h' : Passes loop us) : Passes loop (ts ++ us) := by
  intro d d' n hreads hn
  obtain ⟨d₁, hts, hus⟩ := Decoder.reads_append hreads
  obtain ⟨m, hm, heq⟩ := h d d₁ n hts hn
  obtain ⟨m', hm', heq'⟩ := h' d₁ d' m hus hm
  exact ⟨m', hm', heq.trans heq'⟩

theorem Passes.elems {vs : List Json} (h : ∀ v ∈ vs, Passes loop v.tokens) : Passes loop (Json.tokensElems vs) := by
  induction vs with
  | nil => exact Passes.nil
  | cons v vs ih => exact (h v (by simp)).append (ih fun v hv => h v (by simp [hv]))

theorem Passes.fields {fields : List (String × Json)} (h : ∀ f ∈ fields, Passes loop (.str f.1 :: f.2.tokens)) :
    Passes loop (Json.tokensFields fields) := by
  induction fields with
  | nil => exact Passes.nil
  | cons f fields ih => exact (h f (by simp)).append (ih fun f hf => h f (by simp [hf]))

/-- The tokens are passed in one round of the loop. -/
theorem Passes.of_round (hne : ts ≠ [])
    (h : ∀ d d' n, Decoder.Reads d ts d' → loop (n + 1) d = loop n d') : Passes loop ts := by
  intro d d' n hreads hn
  have hlen := hreads.length
  have hpos := List.length_pos_iff.2 hne
  obtain ⟨n, rfl⟩ : ∃ m, n = m + 1 := ⟨n - 1, by omega⟩
  exact ⟨n, by omega, h d d' n hreads⟩

/-- The loop passes the tokens and ends with the one after them. -/
theorem Passes.loop_eq (h : Passes loop ts) {t : Token}
    (hlast : ∀ d d' n, d.token = some (t, d') → loop (n + 1) d = d') {d d' : Decoder}
    (hreads : Decoder.Reads d (ts ++ [t]) d') {n : ℕ} (hn : d.rest.length < n) : loop n d = d' := by
  obtain ⟨d₁, hts, d₂, htoken, rfl⟩ := Decoder.reads_append hreads
  obtain ⟨m, hm, heq⟩ := h d d₁ n hts hn
  obtain ⟨m, rfl⟩ : ∃ k, m = k + 1 := ⟨m - 1, by omega⟩
  rw [heq, hlast d₁ d₂ m htoken]

end passes

theorem passes_items_str (s : String) : Passes decodeResultItems [.str s] := by
  refine Passes.of_round (by simp) ?_
  rintro d d' n ⟨d₁, htoken, rfl⟩
  rw [decodeResultItems, htoken]

/-- The list of addresses is read over. -/
theorem decodeResultItems_strs (ss : List String) {d d' : Decoder}
    (h : Decoder.Reads d (Json.tokens (.arr (ss.map .str))) d') {n : ℕ} (hn : d.rest.length < n) :
    decodeResultItems n d = d' := by
  have hopen : Passes decodeResultItems [.delim '['] := by
    refine Passes.of_round (by simp) ?_
    rintro d d' n ⟨d₁, htoken, rfl⟩
    rw [decodeResultItems, htoken]
    rfl
  refine (hopen.append (Passes.elems ?_)).loop_eq ?_ h hn
  · intro v hv
    obtain ⟨s, -, rfl⟩ := List.mem_map.1 hv
    exact passes_items_str s
  · intro d d' n htoken
    rw [decodeResultItems, htoken]
    rfl

theorem passes_rule_delim {c : Char} (hc : c ≠ ']') : Passes decodeResultRuleToken [.delim c] := by
  refine Passes.of_round (by simp) ?_
  rintro d d' n ⟨d₁, htoken, rfl⟩
  rw [decodeResultRuleToken, htoken]
  simp only [if_neg hc]

theorem passes_rule_field {key : String} (hkey : key = "FilterListID" ∨ key = "IP" ∨ key = "Text") (t : Token) :
    Passes decodeResultRuleToken [.str key, t] := by
  refine Passes.of_round (by simp) ?_
  rintro d d' n ⟨d₁, htoken, d₂, htoken₂, rfl⟩
  rw [decodeResultRuleToken, htoken]
  simp only [if_pos hkey, htoken₂]

theorem mem_omitEmpty {empty : Prop} [Decidable empty] {k : String} {v : Json} {f : String × Json}
    (h : f ∈ omitEmpty empty k v) : f = (k, v) ∧ ¬ empty := by
  unfold omitEmpty at h
  split at h
  · cases h
  · rename_i hne
    exact ⟨List.mem_singleton.1 h, hne⟩

theorem passes_rule (r : Filtering.ResultRule) : Passes decodeResultRuleToken (resultRuleJSON r).tokens := by
  have hfields : Passes decodeResultRuleToken (Json.tokensFields (omitEmpty (r.text = "") "Text" (.str r.text)
      ++ omitEmpty (r.ip = .invalid) "IP" (.str (addrText r.ip))
      ++ omitEmpty (r.filterListID = 0) "FilterListID" (.num r.filterListID))) := by
    refine Passes.fields fun f hf => ?_
    rw [List.mem_append, List.mem_append] at hf
    obtain (hf | hf) | hf := hf
    all_goals
      obtain ⟨rfl, -⟩ := mem_omitEmpty hf
      exact passes_rule_field (by simp) _
  exact (passes_rule_delim (c := '\x7b') (by decide)).append (hfields.append (passes_rule_delim (by decide)))

/-- The rules are read over. -/
theorem decodeResultRules_rules (rules : List Filtering.ResultRule) {d d' : Decoder}
    (h : Decoder.Reads d (Json.tokens (.arr (rules.map resultRuleJSON))) d') : decodeResultRules d = d' := by
  obtain ⟨d₁, hopen, hrest⟩ := h
  rw [decodeResultRules, hopen]
  show decodeResultRuleToken (d₁.rest.length + 1) d₁ = d'
  refine (Passes.elems ?_).loop_eq ?_ hrest (Nat.lt_succ_self _)
  · intro v hv
    obtain ⟨r, -, rfl⟩ := List.mem_map.1 hv
    exact passes_rule r
  · intro d d' n htoken
    rw [decodeResultRuleToken, htoken]
    rfl

/-- The rewrite is read over. -/
theorem decodeResultDNSRewriteResult_rewrite (r : Filtering.DNSRewriteResult) {d d' : Decoder}
    (h : Decoder.Reads d (dnsRewriteResultJSON r).tokens d') {n : ℕ} (hn : d.rest.length < n) :
    decodeResultDNSRewriteResult n d = d' := by
  have hopen : Passes decodeResultDNSRewriteResult [.delim '\x7b'] := by
    refine Passes.of_round (by simp) ?_
    rintro d d' n ⟨d₁, htoken, rfl⟩
    rw [decodeResultDNSRewriteResult, parseKeyToken, htoken]
    rfl
  have hfields : Passes decodeResultDNSRewriteResult (Json.tokensFields
      (omitEmpty (r.response.getD [] = []) "Response" (responseJSON (r.response.getD []))
        ++ omitEmpty (r.rcode = 0) "RCode" (.num r.rcode))) := by
    refine Passes.fields fun f hf => ?_
    rw [List.mem_append] at hf
    obtain hf | hf := hf
    · obtain ⟨rfl, -⟩ := mem_omitEmpty hf
      refine Passes.of_round (by simp) ?_
      rintro d d' n ⟨d₁, htoken, hvalue⟩
      rw [decodeResultDNSRewriteResult, parseKeyToken, htoken]
      simp only [if_neg (show ¬ ("Response" : String) = "" by decide)]
      rw [decodeResultDNSRewriteResultKey, if_neg (by decide), if_pos rfl, Decoder.skipValue_obj _ hvalue]
    · obtain ⟨rfl, -⟩ := mem_omitEmpty hf
      refine Passes.of_round (by simp) ?_
      rintro d d' n ⟨d₁, htoken, d₂, hvalue, rfl⟩
      rw [decodeResultDNSRewriteResult, parseKeyToken, htoken]
      simp only [if_neg (show ¬ ("RCode" : String) = "" by decide)]
      rw [decodeResultDNSRewriteResultKey, if_pos rfl, hvalue]
  refine (hopen.append hfields).loop_eq ?_ h hn
  intro d d' n htoken
  rw [decodeResultDNSRewriteResult, parseKeyToken, htoken]
  rfl

/-! ### Fields -/

/-- The entry with a field set by its handler, if it has one. -/
def handled (handlers : String → Option LogEntryHandler) (e : LogEntry) (f : String × Json) : LogEntry :=
  match handlers f.1, f.2.tokens with
  | some handler, [t] => (handler t e).1
  | _, _ => e

/-- The field has a handler, which accepts its value. -/
def Handled (handlers : String → Option LogEntryHandler) (f : String × Json) : Prop :=
  ∃ handler t, handlers f.1 = some handler ∧ f.2.tokens = [t] ∧ ∀ e, (handler t e).2 = true

variable {handlers : String → Option LogEntryHandler}

theorem decodeValue_handled {f : String × Json} (h : Handled handlers f) {d d' : Decoder}
    (hreads : Decoder.Reads d f.2.tokens d') (e : LogEntry) :
    decodeValue handlers f.1 d e = (true, d', handled handlers e f) := by
  obtain ⟨handler, t, hhandler, htokens, hok⟩ := h
  rw [htokens] at hreads
  obtain ⟨d₁, htoken, rfl⟩ := hreads
  rw [decodeValue, handled, hhandler, htokens, htoken]
  simp only [hok]

theorem handled_none {e : LogEntry} {f : String × Json} (h : handlers f.1 = none) : handled handlers e f = e := by
  rw [handled, h]

theorem decodeResultKeyValue_handled {k : String} {v : Json} (hkey : k ≠ "") (hdec : ∀ d, resultDecHandler k d = none)
    (h : Handled resultHandlers (k, v)) {d d' : Decoder} (hreads : Decoder.Reads d (.str k :: v.tokens) d')
    (e : LogEntry) : decodeResultKeyValue (d, e) = (true, d', handled resultHandlers e (k, v)) := by
  obtain ⟨d₁, htoken, hvalue⟩ := hreads
  rw [decodeResultKeyValue, parseKeyToken, htoken]
  simp only [if_neg hkey, hdec]
  exact decodeValue_handled h hvalue e

theorem decodeResultKeyValue_read {k : String} {v : Json} (hkey : k ≠ "") (hnone : resultHandlers k = none)
    {d d' : Decoder} (hdec : ∀ d₁, Decoder.Reads d₁ v.tokens d' → resultDecHandler k d₁ = some d')
    (hreads : Decoder.Reads d (.str k :: v.tokens) d') (e : LogEntry) :
    decodeResultKeyValue (d, e) = (true, d', handled resultHandlers e (k, v)) := by
  obtain ⟨d₁, htoken, hvalue⟩ := hreads
  rw [decodeResultKeyValue, parseKeyToken, htoken]
  simp only [if_neg hkey, hdec d₁ hvalue]
  rw [handled_none hnone]

theorem parseInt64_decimal {n : ℤ} (h : -2 ^ 63 ≤ n ∧ n < 2 ^ 63) : parseInt64 (Json.decimal n) = some n := by
  have hne : Nat.toDigits 10 n.natAbs ≠ [] := Nat.toDigits_ne_nil
  have hall : (Nat.toDigits 10 n.natAbs).all Json.isDigit = true :=
    List.all_eq_true.2 fun c hc => Json.isDigit_of_mem_toDigits hc
  have hminus : (Nat.toDigits 10 n.natAbs).head? ≠ some '-' := by
    intro hhead
    have hdigit := Json.isDigit_of_mem_toDigits (List.mem_of_mem_head? hhead)
    revert hdigit
    decide
  unfold parseInt64 Json.decimal
  split
  · simp only [List.head?_cons, if_true, List.tail_cons, hne, hall, Nat.ofDigitChars_ten_toDigits]
    rw [if_neg (by simp), if_pos (by omega)]
    congr 1
    omega
  · simp only [hne, hall, Nat.ofDigitChars_ten_toDigits]
    rw [if_neg (by simp), if_pos (by omega)]
    congr 1
    omega

/-- The fields of a result are read. -/
theorem runs_result (r : EntryResult) {d d' : Decoder} (e : LogEntry)
    (h : Decoder.Reads d (Json.tokensFields (r.head ++ r.tail)) d') :
    Runs decodeResultKeyValue (d, e) (d', (r.head ++ r.tail).foldl (handled resultHandlers) e) := by
  refine runs_fields (fun f hf d d' e hreads => ?_) h
  simp only [EntryResult.head, EntryResult.tail, List.mem_append] at hf
  rcases hf with ((((hf | hf) | hf) | hf) | hf) | (hf | hf)
  · obtain ⟨rewrite, -, rfl⟩ := List.mem_map.1 hf
    refine decodeResultKeyValue_read (by simp) rfl (fun d₁ hd₁ => ?_) hreads e
    exact congrArg some (decodeResultDNSRewriteResult_rewrite rewrite hd₁ (Nat.lt_succ_self _))
  · obtain ⟨rfl, -⟩ := mem_omitEmpty hf
    exact decodeResultKeyValue_handled (by simp) (fun _ => rfl) ⟨_, _, rfl, rfl, fun _ => rfl⟩ hreads e
  · obtain ⟨rfl, -⟩ := mem_omitEmpty hf
    exact decodeResultKeyValue_handled (by simp) (fun _ => rfl) ⟨_, _, rfl, rfl, fun _ => rfl⟩ hreads e
  · obtain ⟨rfl, -⟩ := mem_omitEmpty hf
    refine decodeResultKeyValue_read (by simp) rfl (fun d₁ hd₁ => ?_) hreads e
    have hstrs : r.ipList.map (fun ip => Json.str (addrText ip)) = (r.ipList.map addrText).map Json.str := by simp
    rw [hstrs] at hd₁
    exact congrArg some (decodeResultItems_strs _ hd₁ (Nat.lt_succ_self _))
  · obtain ⟨rfl, -⟩ := mem_omitEmpty hf
    refine decodeResultKeyValue_read (by simp) rfl (fun d₁ hd₁ => ?_) hreads e
    exact congrArg some (decodeResultRules_rules _ hd₁)
  · obtain ⟨rfl, -⟩ := mem_omitEmpty hf
    have hlt := r.reason.toNat_lt
    refine decodeResultKeyValue_handled (by simp) (fun _ => rfl) ⟨_, _, rfl, rfl, fun e => ?_⟩ hreads e
    rw [int64Handler, parseInt64_decimal (by omega)]
  · obtain ⟨rfl, -⟩ := mem_omitEmpty hf
    exact decodeResultKeyValue_handled (by simp) (fun _ => rfl) ⟨_, _, rfl, rfl, fun _ => rfl⟩ hreads e

/-- The result of an entry is read. -/
theorem decodeResult_result (r : EntryResult) {d d' : Decoder} (e : LogEntry)
    (h : Decoder.Reads d (Json.tokens (.obj (r.head ++ r.tail))) d') :
    decodeResult (d, e) = (d', (r.head ++ r.tail).foldl (handled resultHandlers) e) := by
  obtain ⟨d₁, hopen, hrest⟩ := h
  obtain ⟨d₂, hfields, d₃, hclose, rfl⟩ := Decoder.reads_append hrest
  have hfirst : decodeResultKeyValue (d, e) = (true, d₁, e) := by
    rw [decodeResultKeyValue, parseKeyToken, hopen]
    rfl
  have hruns := (runs_of_body hfirst (Decoder.length_token hopen)).trans (runs_result r e hfields)
  refine hruns.repeatWhile_eq ?_ (Nat.lt_succ_self _)
  rw [decodeResultKeyValue, parseKeyToken, hclose]
  rfl

/-- The entry with a field read. -/
def fieldRead (r : EntryResult) (e : LogEntry) (f : String × Json) : LogEntry :=
  if f.1 = "Result" then (r.head ++ r.tail).foldl (handled resultHandlers) e else handled logEntryHandlers e f

theorem decodeLogEntryKeyValue_handled (r : EntryResult) {k : String} {v : Json} (hkey : k ≠ "Result")
    (h : Handled logEntryHandlers (k, v)) {d d' : Decoder} (hreads : Decoder.Reads d (.str k :: v.tokens) d')
    (e : LogEntry) : decodeLogEntryKeyValue (d, e) = (true, d', fieldRead r e (k, v)) := by
  obtain ⟨d₁, htoken, hvalue⟩ := hreads
  rw [decodeLogEntryKeyValue, htoken, fieldRead, if_neg hkey]
  simp only [if_neg hkey]
  exact decodeValue_handled h hvalue e

theorem handled_string {k v : String} {set : String → LogEntry → LogEntry × Bool}
    (h : logEntryHandlers k = some (stringHandler set)) (hok : ∀ e, (set v e).2 = true) :
    Handled logEntryHandlers (k, .str v) :=
  ⟨_, _, h, rfl, hok⟩

/-- The fields of an entry have handlers, the result apart. -/
theorem handled_of_mem {e : LogEntry} {offset : ℤ} {time : List Char} {ip : String}
    (htime : formatRFC3339Nano offset e.time = some time) {f : String × Json}
    (hf : f ∈ e.fields (String.ofList time) ip) :
    f = ("Result", .obj (e.result.head ++ e.result.tail)) ∨ (f.1 ≠ "Result" ∧ Handled logEntryHandlers f) := by
  have hparse : parseRFC3339Nano (utf8 time) = some e.time := parseRFC3339Nano_format htime
  simp only [LogEntry.fields, LogEntry.head, LogEntry.tail, List.mem_append, List.mem_cons, List.not_mem_nil,
    or_false] at hf
  rcases hf with ((((((hf | hf) | hf) | hf) | hf) | hf) | hf) | hf | hf | (hf | hf) | hf
  · rcases hf with rfl | rfl | rfl | rfl
    · refine .inr ⟨by simp, handled_string rfl fun e => ?_⟩
      rw [String.toList_ofList, hparse]
    · exact .inr ⟨by simp, handled_string rfl fun _ => rfl⟩
    · exact .inr ⟨by simp, handled_string rfl fun _ => rfl⟩
    · exact .inr ⟨by simp, handled_string rfl fun _ => rfl⟩
  · obtain ⟨rfl, -⟩ := mem_omitEmpty hf
    exact .inr ⟨by simp, handled_string rfl fun _ => rfl⟩
  · obtain ⟨rfl, -⟩ := mem_omitEmpty hf
    exact .inr ⟨by simp, handled_string rfl fun _ => rfl⟩
  · subst hf
    refine .inr ⟨by simp, handled_string rfl fun _ => ?_⟩
    rw [newClientProto_name]
  · obtain ⟨rfl, -⟩ := mem_omitEmpty hf
    exact .inr ⟨by simp, handled_string rfl fun _ => rfl⟩
  · obtain ⟨rfl, -⟩ := mem_omitEmpty hf
    refine .inr ⟨by simp, handled_string rfl fun _ => ?_⟩
    rw [String.toList_ofList, base64Decode_encode]
  · obtain ⟨rfl, -⟩ := mem_omitEmpty hf
    refine .inr ⟨by simp, handled_string rfl fun _ => ?_⟩
    rw [String.toList_ofList, base64Decode_encode]
  · subst hf
    exact .inr ⟨by simp, handled_string rfl fun _ => rfl⟩
  · exact .inl hf
  · subst hf
    have hle := e.elapsed.le_toInt
    have hlt := e.elapsed.toInt_lt
    refine .inr ⟨by simp, _, _, rfl, rfl, fun e => ?_⟩
    rw [int64Handler, parseInt64_decimal (by omega)]
  · obtain ⟨rfl, -⟩ := mem_omitEmpty hf
    exact .inr ⟨by simp, _, _, rfl, rfl, fun _ => rfl⟩
  · obtain ⟨rfl, -⟩ := mem_omitEmpty hf
    exact .inr ⟨by simp, _, _, rfl, rfl, fun _ => rfl⟩

/-- The fields of an object are read one after the other. -/
theorem skimLogEntry_fields {r : EntryResult} {fields : List (String × Json)}
    (h : ∀ f ∈ fields, f = ("Result", .obj (r.head ++ r.tail)) ∨ (f.1 ≠ "Result" ∧ Handled logEntryHandlers f))
    (ent : LogEntry) : skimLogEntry ent (utf8 (Json.render (.obj fields))) = fields.foldl (fieldRead r) ent := by
  obtain ⟨d₁, hopen, hrest⟩ := Decoder.reads_new (.obj fields)
  obtain ⟨d₂, hfields, d₃, hclose, rfl⟩ := Decoder.reads_append hrest
  have hfirst : decodeLogEntryKeyValue (Decoder.new (Json.render (.obj fields)), ent) = (true, d₁, ent) := by
    rw [decodeLogEntryKeyValue, hopen]
  have hlast : ∀ e, decodeLogEntryKeyValue (d₂, e) = (true, ⟨[], .topValue, []⟩, e) := fun e => by
    rw [decodeLogEntryKeyValue, hclose]
  have hend : ∀ e, decodeLogEntryKeyValue (⟨[], .topValue, []⟩, e) = (false, ⟨[], .topValue, []⟩, e) := fun _ => rfl
  have hruns : Runs decodeLogEntryKeyValue (d₁, ent) (d₂, fields.foldl (fieldRead r) ent) := by
    refine runs_fields (fun f hf d d' e hreads => ?_) hfields
    obtain rfl | ⟨hkey, hhandled⟩ := h f hf
    · obtain ⟨d₀, htoken, hvalue⟩ := hreads
      rw [decodeLogEntryKeyValue, htoken, fieldRead, if_pos rfl]
      simp only [if_true, decodeResult_result r e hvalue]
    · exact decodeLogEntryKeyValue_handled r hkey hhandled hreads e
  have hall := ((runs_of_body hfirst (Decoder.length_token hopen)).trans hruns).trans
    (runs_of_body (hlast _) (Decoder.length_token hclose))
  have hlen : (Json.render (.obj fields)).length < (Json.render (.obj fields)).length + 1 := Nat.lt_succ_self _
  rw [skimLogEntry, runes_utf8, hall.repeatWhile_eq (hend _) hlen]

/-- The entry that is read from the line of an entry. -/
def LogEntry.readBack (e : LogEntry) : LogEntry :=
  { e with
    client := none
    ip := if e.ip = [] then [] else parseIP e.ip.string
    result :=
      { canonName := e.result.canonName, serviceName := e.result.serviceName, reason := e.result.reason,
        isFiltered := e.result.isFiltered } }

theorem foldl_omitEmpty {σ : Type} {step : σ → String × Json → σ} {x y : σ} {empty : Prop} [Decidable empty]
    {k : String} {v : Json} (hempty : empty → x = y) (hset : step x (k, v) = y) :
    (omitEmpty empty k v).foldl step x = y := by
  unfold omitEmpty
  split
  · rename_i h
    exact hempty h
  · exact hset

theorem foldl_omitEmpty_true {σ : Type} {step : σ → String × Json → σ} {x y : σ} {b : Bool} {k : String}
    (hfalse : b = false → x = y) (htrue : b = true → step x (k, .bool true) = y) :
    (omitEmpty (b = false) k (.bool true)).foldl step x = y := by
  unfold omitEmpty
  split
  · rename_i h
    exact hfalse h
  · rename_i h
    exact htrue (Bool.not_eq_false b ▸ h)

theorem handled_reason (e : LogEntry) (reason : UInt8) :
    handled resultHandlers e ("Reason", .num reason.toNat) = { e with result.reason := reason } := by
  have hlt := reason.toNat_lt
  have hparse : parseInt64 (Json.decimal (reason.toNat : ℤ)) = some (reason.toNat : ℤ) :=
    parseInt64_decimal (by omega)
  have hreason : UInt8.ofNat (((reason.toNat : ℤ) % 256).toNat) = reason := by
    rw [Int.emod_eq_of_lt (by omega) (by omega), Int.toNat_natCast, UInt8.ofNat_toNat]
  show (int64Handler (fun i e => { e with result.reason := UInt8.ofNat (i % 256).toNat })
    (.number (Json.decimal reason.toNat)) e).1 = _
  rw [int64Handler, hparse]
  simp only [hreason]

theorem foldl_head (r : EntryResult) (e : LogEntry) :
    r.head.foldl (handled resultHandlers) { e with result := {} } =
      { e with result := { canonName := r.canonName, serviceName := r.serviceName } } := by
  have hrewrite : ∀ x, List.foldl (handled resultHandlers) x (r.dnsRewriteResult.toList.map
      fun rewrite => ("DNSRewriteResult", dnsRewriteResultJSON rewrite)) = x := fun x => by
    cases r.dnsRewriteResult with
    | none => rfl
    | some rewrite => rfl
  have hcanon : (omitEmpty (r.canonName = "") "CanonName" (.str r.canonName)).foldl (handled resultHandlers)
      { e with result := {} } = { e with result := { canonName := r.canonName } } :=
    foldl_omitEmpty (fun h => by rw [h]) rfl
  have hservice : (omitEmpty (r.serviceName = "") "ServiceName" (.str r.serviceName)).foldl (handled resultHandlers)
      { e with result := { canonName := r.canonName } } =
        { e with result := { canonName := r.canonName, serviceName := r.serviceName } } :=
    foldl_omitEmpty (fun h => by rw [h]) rfl
  rw [EntryResult.head, List.foldl_append, List.foldl_append, List.foldl_append, List.foldl_append, hrewrite, hcanon,
    hservice]
  rw [foldl_omitEmpty (x := List.foldl _ _ _) (fun _ => rfl) rfl]
  exact foldl_omitEmpty (fun _ => rfl) rfl

theorem foldl_tail (r : EntryResult) (e : LogEntry) (h : e.result.reason = 0 ∧ e.result.isFiltered = false) :
    r.tail.foldl (handled resultHandlers) e =
      { e with result := { e.result with reason := r.reason, isFiltered := r.isFiltered } } := by
  have hreason : (omitEmpty (r.reason = 0) "Reason" (.num r.reason.toNat)).foldl (handled resultHandlers) e =
      { e with result.reason := r.reason } :=
    foldl_omitEmpty (fun h0 => by rw [h0, ← h.1]) (handled_reason e r.reason)
  rw [EntryResult.tail, List.foldl_append, hreason]
  exact foldl_omitEmpty_true (fun h0 => by rw [h0, ← h.2]) (fun h1 => by rw [h1]; rfl)

theorem fieldRead_result (r : EntryResult) (e : LogEntry) (h : e.result = {}) (v : Json) :
    fieldRead r e ("Result", v) =
      { e with
        result :=
          { canonName := r.canonName, serviceName := r.serviceName, reason := r.reason,
            isFiltered := r.isFiltered } } := by
  have he : e = { e with result := {} } := by
    rw [← h]
  rw [fieldRead, if_pos rfl, List.foldl_append, he, foldl_head, foldl_tail]
  exact ⟨rfl, rfl⟩

theorem fieldRead_time (r : EntryResult) {time : List Char} {t : Time} (h : parseRFC3339Nano (utf8 time) = some t) :
    fieldRead r {} ("T", .str (String.ofList time)) = { time := t } := by
  show (match parseRFC3339Nano (utf8 (String.ofList time).toList) with
    | some t => (({ time := t } : LogEntry), true)
    | none => ({ time := ⟨0, 0⟩ }, false)).1 = _
  rw [String.toList_ofList, h]

theorem fieldRead_clientProto (r : EntryResult) (e : LogEntry) (p : ClientProto) :
    fieldRead r e ("CP", .str p.name) = { e with clientProto := p } := by
  cases p <;> rfl

theorem fieldRead_elapsed (r : EntryResult) (e : LogEntry) (elapsed : Int64) :
    fieldRead r e ("Elapsed", .num elapsed.toInt) = { e with elapsed := elapsed } := by
  have hle := elapsed.le_toInt
  have hlt := elapsed.toInt_lt
  have hparse : parseInt64 (Json.decimal elapsed.toInt) = some elapsed.toInt := parseInt64_decimal (by omega)
  show (int64Handler (fun i e => { e with elapsed := Int64.ofInt i }) (.number (Json.decimal elapsed.toInt)) e).1 = _
  rw [int64Handler, hparse]
  simp only [Int64.ofInt_toInt]

/-- The fields of an entry before its address are read. -/
theorem foldl_entryHead {e : LogEntry} {time : List Char} (htime : parseRFC3339Nano (utf8 time) = some e.time)
    (r : EntryResult) :
    (e.head (String.ofList time)).foldl (fieldRead r) {} =
      { e with client := none, ip := [], result := {}, elapsed := 0, cached := false, authenticatedData := false } := by
  have hfirst : [("T", Json.str (String.ofList time)), ("QH", .str e.qHost), ("QT", .str e.qType),
      ("QC", .str e.qClass)].foldl (fieldRead r) {} =
        { time := e.time, qHost := e.qHost, qType := e.qType, qClass := e.qClass } := by
    rw [List.foldl_cons, fieldRead_time r htime]
    rfl
  have hecs : ∀ x : LogEntry, x.reqECS = "" →
      (omitEmpty (e.reqECS = "") "ECS" (.str e.reqECS)).foldl (fieldRead r) x = { x with reqECS := e.reqECS } :=
    fun x hx => foldl_omitEmpty (fun h => by rw [h, ← hx]) rfl
  have hclient : ∀ x : LogEntry, x.clientID = "" →
      (omitEmpty (e.clientID = "") "CID" (.str e.clientID)).foldl (fieldRead r) x = { x with clientID := e.clientID } :=
    fun x hx => foldl_omitEmpty (fun h => by rw [h, ← hx]) rfl
  have hproto : ∀ x : LogEntry,
      [("CP", Json.str e.clientProto.name)].foldl (fieldRead r) x = { x with clientProto := e.clientProto } :=
    fun x => fieldRead_clientProto r x e.clientProto
  have hupstream : ∀ x : LogEntry, x.upstream = "" →
      (omitEmpty (e.upstream = "") "Upstream" (.str e.upstream)).foldl (fieldRead r) x =
        { x with upstream := e.upstream } :=
    fun x hx => foldl_omitEmpty (fun h => by rw [h, ← hx]) rfl
  have hanswer : ∀ x : LogEntry, x.answer = [] →
      (omitEmpty (e.answer = []) "Answer" (.str (String.ofList (base64Encode e.answer)))).foldl (fieldRead r) x =
        { x with answer := e.answer } := fun x hx => by
    refine foldl_omitEmpty (fun h => by rw [h, ← hx]) ?_
    show { x with answer := (base64Decode (String.ofList (base64Encode e.answer)).toList).1 } = _
    rw [String.toList_ofList, base64Decode_encode]
  have horig : ∀ x : LogEntry, x.origAnswer = [] →
      (omitEmpty (e.origAnswer = []) "OrigAnswer" (.str (String.ofList (base64Encode e.origAnswer)))).foldl
        (fieldRead r) x = { x with origAnswer := e.origAnswer } := fun x hx => by
    refine foldl_omitEmpty (fun h => by rw [h, ← hx]) ?_
    show { x with origAnswer := (base64Decode (String.ofList (base64Encode e.origAnswer)).toList).1 } = _
    rw [String.toList_ofList, base64Decode_encode]
  simp only [LogEntry.head, List.foldl_append]
  rw [hfirst, hecs _ rfl, hclient _ rfl, hproto, hupstream _ rfl, hanswer _ rfl, horig _ rfl]

/-- The fields of an entry after its result are read. -/
theorem foldl_entryTail (e : LogEntry) (r : EntryResult) (x : LogEntry)
    (h : x.cached = false ∧ x.authenticatedData = false) :
    e.tail.foldl (fieldRead r) x =
      { x with elapsed := e.elapsed, cached := e.cached, authenticatedData := e.authenticatedData } := by
  have hcached : (omitEmpty (e.cached = false) "Cached" (.bool true)).foldl (fieldRead r)
      { x with elapsed := e.elapsed } = { x with elapsed := e.elapsed, cached := e.cached } :=
    foldl_omitEmpty_true (fun h0 => by rw [h0, ← h.1]) (fun h1 => by rw [h1]; rfl)
  simp only [LogEntry.tail, List.foldl_append, List.foldl_cons, List.foldl_nil, fieldRead_elapsed, hcached]
  exact foldl_omitEmpty_true (fun h0 => by rw [h0, ← h.2]) (fun h1 => by rw [h1]; rfl)

/-- What is encoded is decoded. -/
theorem skimLogEntry_encode {e : LogEntry} {offset : ℤ} {cs : List Char} (h : e.encode offset = some cs) :
    skimLogEntry {} (utf8 cs) = e.readBack := by
  unfold LogEntry.encode at h
  split at h
  · rename_i time ip htime hip
    obtain rfl := Option.some.inj h
    rw [skimLogEntry_fields fun f hf => handled_of_mem htime hf, LogEntry.fields, List.foldl_append,
      foldl_entryHead (parseRFC3339Nano_format htime), List.foldl_cons, List.foldl_cons]
    have hparse : parseIP ip = if e.ip = [] then [] else parseIP e.ip.string := by
      unfold marshalIP at hip
      split at hip
      · rename_i hnil
        rw [if_pos hnil, ← Option.some.inj hip]
        decide
      · rename_i hne
        rw [if_neg hne]
        split at hip
        · rw [Option.some.inj hip]
        · cases hip
    have hip : ∀ x : LogEntry, x.ip = [] → fieldRead e.result x ("IP", .str ip) = { x with ip := parseIP ip } :=
      fun x hx => by
        show (if x.ip = [] then { x with ip := parseIP ip } else x) = _
        rw [if_pos hx]
    rw [hip _ rfl, fieldRead_result _ _ rfl, foldl_entryTail _ _ _ ⟨rfl, rfl⟩, hparse]
    rfl
  · cases h

end AdGuardHome.Querylog
