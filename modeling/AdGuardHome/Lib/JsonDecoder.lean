import AdGuardHome.Lib.Json

/-!
# A decoder of JSON

The decoder reads a text token by token.  It reads the text of a value as the tokens of the value, and can read over it.
-/

namespace AdGuardHome.Lib

/-- What the decoder can read next. -/
inductive TokenState
  | topValue
  | arrayStart
  | arrayValue
  | arrayComma
  | objectStart
  | objectKey
  | objectColon
  | objectValue
  | objectComma
deriving DecidableEq

namespace TokenState

/-- A value can be read. -/
def ValueAllowed (s : TokenState) : Prop := s = topValue ∨ s = arrayStart ∨ s = arrayValue ∨ s = objectValue

instance (s : TokenState) : Decidable s.ValueAllowed := inferInstanceAs (Decidable (_ ∨ _))

/-- The state after a value. -/
def valueEnd : TokenState → TokenState
  | arrayStart | arrayValue => arrayComma
  | objectValue => objectComma
  | s => s

end TokenState

/-- A decoder: the text yet to be read, its place, and the places of the arrays and objects around it. -/
structure Decoder where
  rest : List Char
  state : TokenState
  stack : List TokenState

namespace Decoder

open Json TokenState

/-- A decoder of the text. -/
def new (text : List Char) : Decoder := ⟨text, .topValue, []⟩

/-- The decoder past the colon or the comma that has to be here. -/
def separator (d : Decoder) : Option Decoder :=
  match d.rest.dropWhile isSpace with
  | ':' :: cs => if d.state = .objectColon then some ⟨cs, .objectValue, d.stack⟩ else none
  | ',' :: cs =>
    if d.state = .arrayComma then some ⟨cs, .arrayValue, d.stack⟩
    else if d.state = .objectComma then some ⟨cs, .objectKey, d.stack⟩
    else none
  | cs => some ⟨cs, d.state, d.stack⟩

/-- Ends an array or an object. -/
def close (cs : List Char) : List TokenState → Option Decoder
  | [] => none
  | s :: stack => some ⟨cs, s.valueEnd, stack⟩

/-- The token at the decoder's place, where no separator is expected. -/
def lexeme (d : Decoder) : Option (Token × Decoder) :=
  match d.rest.dropWhile isSpace with
  | [] => none
  | '[' :: cs => if d.state.ValueAllowed then some (.delim '[', ⟨cs, .arrayStart, d.state :: d.stack⟩) else none
  | ']' :: cs =>
    if d.state = .arrayStart ∨ d.state = .arrayComma then (close cs d.stack).map fun d => (.delim ']', d) else none
  | '\x7b' :: cs =>
    if d.state.ValueAllowed then some (.delim '\x7b', ⟨cs, .objectStart, d.state :: d.stack⟩) else none
  | '\x7d' :: cs =>
    if d.state = .objectStart ∨ d.state = .objectComma then (close cs d.stack).map fun d => (.delim '\x7d', d)
    else none
  | '\x22' :: cs =>
    if d.state = .objectStart ∨ d.state = .objectKey then
      (lexString cs).map fun p => (.str (String.ofList (ofUnits p.1)), ⟨p.2, .objectColon, d.stack⟩)
    else if d.state.ValueAllowed then
      (lexString cs).map fun p => (.str (String.ofList (ofUnits p.1)), ⟨p.2, d.state.valueEnd, d.stack⟩)
    else none
  | cs =>
    if d.state.ValueAllowed then (lexScalar cs).map fun p => (p.1, ⟨p.2, d.state.valueEnd, d.stack⟩) else none

/-- Reads the next token; `none` is an error, the end of the text included. -/
def token (d : Decoder) : Option (Token × Decoder) := d.separator.bind lexeme

/-- How many arrays and objects are open after a token, if one more than `depth` are before it. -/
def depthAfter (depth : ℕ) : Token → ℕ
  | .delim c => if c = '[' ∨ c = '\x7b' then depth + 2 else depth
  | _ => depth + 1

/-- Reads the tokens up to the one that ends the outermost of the `depth` open arrays and objects. -/
def skipTokens : ℕ → ℕ → Decoder → Option Decoder
  | _, 0, d => some d
  | 0, _ + 1, _ => none
  | fuel + 1, depth + 1, d => d.token.bind fun p => skipTokens fuel (depthAfter depth p.1) p.2

/-- Reads over a whole value.  Nothing more can be read if the text is not one; nothing is read where no value can
be. -/
def skipValue (d : Decoder) : Decoder :=
  match d.separator with
  | none => d
  | some d' =>
    if d'.state.ValueAllowed then
      match d'.lexeme with
      | some (.delim c, d'') =>
        if c = '[' ∨ c = '\x7b' then (skipTokens d''.rest.length 1 d'').getD (new []) else new []
      | some (_, d'') => d''
      | none => new []
    else d

/-! ## Reading what the encoder writes -/

/-- The decoder reads the tokens and is then at another place. -/
def Reads : Decoder → List Token → Decoder → Prop
  | d, [], d' => d = d'
  | d, t :: ts, d' => ∃ d₁, d.token = some (t, d₁) ∧ Reads d₁ ts d'

theorem Reads.append {d d' d'' : Decoder} {ts us : List Token} (h : Reads d ts d') (h' : Reads d' us d'') :
    Reads d (ts ++ us) d'' := by
  induction ts generalizing d with
  | nil =>
    obtain rfl : d = d' := h
    exact h'
  | cons t ts ih =>
    obtain ⟨d₁, htoken, hrest⟩ := h
    exact ⟨d₁, htoken, ih hrest⟩

theorem reads_append {d d'' : Decoder} {ts us : List Token} (h : Reads d (ts ++ us) d'') :
    ∃ d', Reads d ts d' ∧ Reads d' us d'' := by
  induction ts generalizing d with
  | nil => exact ⟨d, rfl, h⟩
  | cons t ts ih =>
    obtain ⟨d₁, htoken, hrest⟩ := h
    obtain ⟨d', hts, hus⟩ := ih hrest
    exact ⟨d', ⟨d₁, htoken, hts⟩, hus⟩

theorem dropWhile_isSpace {c : Char} (h : isSpace c = false) (cs : List Char) :
    (c :: cs).dropWhile isSpace = c :: cs := List.dropWhile_cons_of_neg (by simp [h])

theorem separator_none {c : Char} (h : isSpace c = false) (hcomma : c ≠ ',') (hcolon : c ≠ ':') (cs : List Char)
    (s : TokenState) (stack : List TokenState) : separator ⟨c :: cs, s, stack⟩ = some ⟨c :: cs, s, stack⟩ := by
  unfold separator
  simp only [dropWhile_isSpace h]
  split
  · rename_i heq
    exact absurd (List.cons.inj heq).1 hcolon
  · rename_i heq
    exact absurd (List.cons.inj heq).1 hcomma
  · rfl

theorem separator_value (v : Json) (cs : List Char) (s : TokenState) (stack : List TokenState) :
    separator ⟨render v ++ cs, s, stack⟩ = some ⟨render v ++ cs, s, stack⟩ := by
  obtain ⟨c, cs', hv, hc⟩ := render_starts v
  simp only [between, Bool.or_eq_false_iff, beq_eq_false_iff_ne] at hc
  rw [hv, List.cons_append]
  exact separator_none hc.1.1.1.1 hc.1.1.1.2 hc.1.1.2 _ _ _

theorem lexeme_quoted (k : String) (cs : List Char) {s : TokenState} (hs : s = .objectStart ∨ s = .objectKey)
    (stack : List TokenState) :
    lexeme ⟨quoted k ++ cs, s, stack⟩ = some (.str k, ⟨cs, .objectColon, stack⟩) := by
  have hlex := lexString_escape k cs
  simp only [lexeme, quoted, List.cons_append, List.append_assoc, List.nil_append]
  rw [dropWhile_isSpace (by decide)]
  simp only [if_pos hs, hlex, Option.map_some, ofUnits_map_unitOf, String.ofList_toList]

theorem reads_scalar {d : Decoder} {cs cs' : List Char} {s : TokenState} {stack : List TokenState} {t : Token}
    (hd : d.separator = some ⟨cs, s, stack⟩)
    (hlex : lexeme ⟨cs, s, stack⟩ = some (t, ⟨cs', s.valueEnd, stack⟩)) :
    Reads d [t] ⟨cs', s.valueEnd, stack⟩ := by
  refine ⟨_, ?_, rfl⟩
  rw [token, hd]
  exact hlex

theorem lexeme_scalar {cs cs' : List Char} {c : Char} {s : TokenState} {stack : List TokenState} {t : Token}
    (hs : s.ValueAllowed) (hc : between c = false) (hbracket : c ≠ '[' ∧ c ≠ '\x7b' ∧ c ≠ quote)
    (hlex : lexScalar (c :: cs) = some (t, cs')) :
    lexeme ⟨c :: cs, s, stack⟩ = some (t, ⟨cs', s.valueEnd, stack⟩) := by
  simp only [between, Bool.or_eq_false_iff, beq_eq_false_iff_ne] at hc
  unfold lexeme
  simp only [dropWhile_isSpace hc.1.1.1.1]
  split
  · contradiction
  · rename_i heq
    exact absurd (List.cons.inj heq).1 hbracket.1
  · rename_i heq
    exact absurd (List.cons.inj heq).1 hc.1.2
  · rename_i heq
    exact absurd (List.cons.inj heq).1 hbracket.2.1
  · rename_i heq
    exact absurd (List.cons.inj heq).1 hc.2
  · rename_i heq
    exact absurd (List.cons.inj heq).1 hbracket.2.2
  · rw [if_pos hs, hlex]
    rfl

theorem numberEnd_cons {c : Char} (h : isDigit c = false ∧ c ≠ '.' ∧ c ≠ 'e' ∧ c ≠ 'E') (cs : List Char) :
    NumberEnd (c :: cs) := by
  intro d hd
  obtain rfl : c = d := by simpa using hd
  exact h

theorem numberEnd_elems (vs : List Json) (cs : List Char) : NumberEnd (renderElems true vs ++ ']' :: cs) := by
  cases vs with
  | nil => exact numberEnd_cons (by decide) _
  | cons v vs => exact numberEnd_cons (by decide) _

theorem numberEnd_fields (fields : List (String × Json)) (cs : List Char) :
    NumberEnd (renderFields true fields ++ '\x7d' :: cs) := by
  cases fields with
  | nil => exact numberEnd_cons (by decide) _
  | cons f fields => exact numberEnd_cons (by decide) _

theorem decimal_starts (n : ℤ) : ∃ c cs, decimal n = c :: cs ∧ between c = false ∧ c ≠ '[' ∧ c ≠ '\x7b' ∧ c ≠ quote := by
  obtain ⟨c, cs, hn, hc⟩ := render_starts (.num n)
  rw [render] at hn
  refine ⟨c, cs, hn, hc, ?_⟩
  have hdn : c = '-' ∨ isDigit c = true := by
    unfold decimal at hn
    split at hn
    · exact .inl (List.cons.inj hn).1.symm
    · exact .inr (isDigit_of_mem_toDigits (n := n.natAbs) (by simp [hn]))
  refine ⟨?_, ?_, ?_⟩ <;> rintro rfl <;> revert hdn <;> decide

mutual

/-- The text of a value is read as the tokens of the value. -/
theorem reads_render (v : Json) {d : Decoder} {cs : List Char} {s : TokenState} {stack : List TokenState}
    (hd : d.separator = some ⟨render v ++ cs, s, stack⟩) (hs : s.ValueAllowed) (hcs : NumberEnd cs) :
    Reads d v.tokens ⟨cs, s.valueEnd, stack⟩ := by
  cases v with
  | null => exact reads_scalar hd (lexeme_scalar hs (by decide) (by decide) rfl)
  | bool b =>
    cases b
    · exact reads_scalar hd (lexeme_scalar hs (by decide) (by decide) rfl)
    · exact reads_scalar hd (lexeme_scalar hs (by decide) (by decide) rfl)
  | num n =>
    obtain ⟨c, ds, hn, hc, hbracket⟩ := decimal_starts n
    have hlex := lexScalar_decimal n hcs
    rw [render] at hd
    rw [hn, List.cons_append] at hlex hd
    exact reads_scalar hd (hn ▸ lexeme_scalar hs hc hbracket hlex)
  | str k =>
    refine reads_scalar hd ?_
    have hlex := lexString_escape k cs
    simp only [lexeme, render, quoted, List.cons_append, List.append_assoc, List.nil_append]
    rw [dropWhile_isSpace (by decide)]
    have hkey : ¬ (s = .objectStart ∨ s = .objectKey) := by
      rintro (rfl | rfl) <;> revert hs <;> decide
    simp only [if_neg hkey, if_pos hs, hlex, Option.map_some, ofUnits_map_unitOf, String.ofList_toList]
  | arr vs =>
    refine ⟨⟨renderElems false vs ++ ']' :: cs, .arrayStart, s :: stack⟩, ?_, reads_elems vs false hcs⟩
    rw [token, hd, Option.bind_some, lexeme, render, List.cons_append, List.append_assoc]
    simp only [dropWhile_isSpace (show isSpace '[' = false by decide)]
    rw [if_pos hs]
    rfl
  | obj fields =>
    refine ⟨⟨renderFields false fields ++ '\x7d' :: cs, .objectStart, s :: stack⟩, ?_, reads_fields fields false hcs⟩
    rw [token, hd, Option.bind_some, lexeme, render, List.cons_append, List.append_assoc]
    simp only [dropWhile_isSpace (show isSpace '\x7b' = false by decide)]
    rw [if_pos hs]
    rfl

theorem reads_elems (vs : List Json) (comma : Bool) {cs : List Char} {s : TokenState} {stack : List TokenState}
    (hcs : NumberEnd cs) :
    Reads ⟨renderElems comma vs ++ ']' :: cs, if comma then .arrayComma else .arrayStart, s :: stack⟩
      (tokensElems vs ++ [.delim ']']) ⟨cs, s.valueEnd, stack⟩ := by
  cases vs with
  | nil =>
    refine ⟨_, ?_, rfl⟩
    rw [renderElems, List.nil_append, token, separator_none (by decide) (by decide) (by decide), Option.bind_some, lexeme]
    simp only [dropWhile_isSpace (show isSpace ']' = false by decide)]
    rw [if_pos (by cases comma <;> simp)]
    rfl
  | cons v vs =>
    rw [tokensElems, List.append_assoc]
    have hrest := @reads_elems vs true cs s stack hcs
    have hend := numberEnd_elems vs cs
    cases comma with
    | false =>
      refine Reads.append (reads_render v (s := .arrayStart) ?_ (by decide) hend) hrest
      simpa [renderElems] using separator_value v _ _ _
    | true =>
      refine Reads.append (reads_render v (s := .arrayValue) ?_ (by decide) hend) hrest
      simp [renderElems, separator, dropWhile_isSpace (show isSpace ',' = false by decide)]

theorem reads_fields (fields : List (String × Json)) (comma : Bool) {cs : List Char} {s : TokenState}
    {stack : List TokenState} (hcs : NumberEnd cs) :
    Reads ⟨renderFields comma fields ++ '\x7d' :: cs, if comma then .objectComma else .objectStart, s :: stack⟩
      (tokensFields fields ++ [.delim '\x7d']) ⟨cs, s.valueEnd, stack⟩ := by
  match fields with
  | [] =>
    refine ⟨_, ?_, rfl⟩
    rw [renderFields, List.nil_append, token, separator_none (by decide) (by decide) (by decide), Option.bind_some,
      lexeme]
    simp only [dropWhile_isSpace (show isSpace '\x7d' = false by decide)]
    rw [if_pos (by cases comma <;> simp)]
    rfl
  | (k, v) :: fields =>
    have hrest := @reads_fields fields true cs s stack hcs
    have hend := numberEnd_fields fields cs
    have hv : Reads ⟨':' :: (render v ++ (renderFields true fields ++ '\x7d' :: cs)), .objectColon, s :: stack⟩ v.tokens
        ⟨renderFields true fields ++ '\x7d' :: cs, .objectComma, s :: stack⟩ := by
      refine reads_render v (s := .objectValue) ?_ (by decide) hend
      simp [separator, dropWhile_isSpace (show isSpace ':' = false by decide)]
    rw [tokensFields, List.cons_append, List.append_assoc]
    refine ⟨_, ?_, hv.append hrest⟩
    rw [token]
    cases comma with
    | false =>
      simp only [renderFields, quoted, Bool.false_eq_true, if_false, List.nil_append, List.cons_append, List.append_assoc]
      rw [separator_none (by decide) (by decide) (by decide)]
      simpa [quoted] using lexeme_quoted k _ (.inl rfl) (s :: stack)
    | true =>
      simp only [renderFields, if_true, List.cons_append, List.append_assoc, List.nil_append, separator,
        dropWhile_isSpace (show isSpace ',' = false by decide)]
      simpa using lexeme_quoted k _ (.inr rfl) (s :: stack)

end

theorem reads_new (v : Json) : Reads (new (render v)) v.tokens ⟨[], .topValue, []⟩ := by
  have hsep := separator_value v [] .topValue []
  rw [List.append_nil] at hsep
  exact reads_render v (by rw [List.append_nil]; exact hsep) (by decide) (by simp [NumberEnd])

/-! ### Progress -/

theorem length_dropWhile (p : Char → Bool) (cs : List Char) : (cs.dropWhile p).length ≤ cs.length :=
  (List.dropWhile_suffix p).length_le

theorem length_separator {d d' : Decoder} (h : d.separator = some d') : d'.rest.length ≤ d.rest.length := by
  have hle := length_dropWhile isSpace d.rest
  unfold separator at h
  split at h
  · rename_i hcs
    rw [hcs, List.length_cons] at hle
    split_ifs at h
    obtain rfl := Option.some.inj h
    simp only
    omega
  · rename_i hcs
    rw [hcs, List.length_cons] at hle
    split_ifs at h
    all_goals
      obtain rfl := Option.some.inj h
      simp only
      omega
  · obtain rfl := Option.some.inj h
    exact hle

theorem rest_close {cs : List Char} {stack : List TokenState} {d : Decoder} (h : close cs stack = some d) :
    d.rest = cs := by
  cases stack with
  | nil => cases h
  | cons s stack =>
    obtain rfl := Option.some.inj h
    rfl

theorem length_lexeme {d d' : Decoder} {t : Token} (h : d.lexeme = some (t, d')) : d'.rest.length < d.rest.length := by
  have hle := length_dropWhile isSpace d.rest
  unfold lexeme at h
  split at h
  · cases h
  · rename_i hcs
    rw [hcs, List.length_cons] at hle
    split_ifs at h
    obtain ⟨-, rfl⟩ := Prod.mk.inj (Option.some.inj h)
    exact hle
  · rename_i hcs
    rw [hcs, List.length_cons] at hle
    split_ifs at h
    obtain ⟨d₁, hclose, heq⟩ := Option.map_eq_some_iff.1 h
    obtain ⟨-, rfl⟩ := Prod.mk.inj heq
    rw [rest_close hclose]
    exact hle
  · rename_i hcs
    rw [hcs, List.length_cons] at hle
    split_ifs at h
    obtain ⟨-, rfl⟩ := Prod.mk.inj (Option.some.inj h)
    exact hle
  · rename_i hcs
    rw [hcs, List.length_cons] at hle
    split_ifs at h
    obtain ⟨d₁, hclose, heq⟩ := Option.map_eq_some_iff.1 h
    obtain ⟨-, rfl⟩ := Prod.mk.inj heq
    rw [rest_close hclose]
    exact hle
  · rename_i hcs
    rw [hcs, List.length_cons] at hle
    split_ifs at h
    all_goals
      obtain ⟨q, hq, heq⟩ := Option.map_eq_some_iff.1 h
      obtain ⟨-, rfl⟩ := Prod.mk.inj heq
      have := length_lexString hq
      simp only
      omega
  · split_ifs at h
    obtain ⟨q, hq, heq⟩ := Option.map_eq_some_iff.1 h
    obtain ⟨-, rfl⟩ := Prod.mk.inj heq
    have := length_lexScalar hq
    simp only
    omega

/-- A token takes some of the text. -/
theorem length_token {d d' : Decoder} {t : Token} (h : d.token = some (t, d')) : d'.rest.length < d.rest.length := by
  obtain ⟨d₁, hsep, hlex⟩ := Option.bind_eq_some_iff.1 h
  exact lt_of_lt_of_le (length_lexeme hlex) (length_separator hsep)

theorem Reads.length {d d' : Decoder} {ts : List Token} (h : Reads d ts d') :
    d'.rest.length + ts.length ≤ d.rest.length := by
  induction ts generalizing d with
  | nil =>
    obtain rfl : d = d' := h
    simp
  | cons t ts ih =>
    obtain ⟨d₁, htoken, hrest⟩ := h
    have := ih hrest
    have := length_token htoken
    simp only [List.length_cons]
    omega

/-! ### Reading over a value -/

theorem skipTokens_zero (fuel : ℕ) (d : Decoder) : skipTokens fuel 0 d = some d := by
  cases fuel <;> rfl

theorem skipTokens_token {d d' : Decoder} {t : Token} (htoken : d.token = some (t, d')) (fuel depth : ℕ) :
    skipTokens (fuel + 1) (depth + 1) d = skipTokens fuel (depthAfter depth t) d' := by
  rw [skipTokens, htoken]
  rfl

mutual

/-- The tokens of a value leave the depth as it is. -/
theorem skipTokens_tokens (v : Json) {d d' : Decoder} (h : Reads d v.tokens d') (fuel depth : ℕ) :
    skipTokens (fuel + v.tokens.length) (depth + 1) d = skipTokens fuel (depth + 1) d' := by
  have hscalar : ∀ t, (∀ c, t ≠ Token.delim c) → Reads d [t] d' →
      skipTokens (fuel + 1) (depth + 1) d = skipTokens fuel (depth + 1) d' := by
    rintro t ht ⟨d₁, htoken, rfl⟩
    rw [skipTokens_token htoken]
    cases t with
    | delim c => exact absurd rfl (ht c)
    | _ => rfl
  cases v with
  | null => exact hscalar _ (by simp) h
  | bool b => exact hscalar _ (by simp) h
  | num n => exact hscalar _ (by simp) h
  | str s => exact hscalar _ (by simp) h
  | arr vs =>
    obtain ⟨d₁, hopen, h⟩ := h
    obtain ⟨d₂, helems, d₃, hclose, rfl⟩ := reads_append h
    have hlen : fuel + (tokens (.arr vs)).length = fuel + 1 + (tokensElems vs).length + 1 := by
      simp only [tokens, List.length_cons, List.length_append, List.length_nil]
      omega
    rw [hlen, skipTokens_token hopen]
    exact (skipTokens_tokensElems vs helems (fuel + 1) (depth + 1)).trans (skipTokens_token hclose _ _)
  | obj fields =>
    obtain ⟨d₁, hopen, h⟩ := h
    obtain ⟨d₂, hfields, d₃, hclose, rfl⟩ := reads_append h
    have hlen : fuel + (tokens (.obj fields)).length = fuel + 1 + (tokensFields fields).length + 1 := by
      simp only [tokens, List.length_cons, List.length_append, List.length_nil]
      omega
    rw [hlen, skipTokens_token hopen]
    exact (skipTokens_tokensFields fields hfields (fuel + 1) (depth + 1)).trans (skipTokens_token hclose _ _)

theorem skipTokens_tokensElems (vs : List Json) {d d' : Decoder} (h : Reads d (tokensElems vs) d') (fuel depth : ℕ) :
    skipTokens (fuel + (tokensElems vs).length) (depth + 1) d = skipTokens fuel (depth + 1) d' := by
  cases vs with
  | nil =>
    obtain rfl : d = d' := h
    rfl
  | cons v vs =>
    obtain ⟨d₁, hv, hvs⟩ := reads_append h
    have hlen : fuel + (tokensElems (v :: vs)).length = fuel + (tokensElems vs).length + v.tokens.length := by
      simp only [tokensElems, List.length_append]
      omega
    rw [hlen, skipTokens_tokens v hv, skipTokens_tokensElems vs hvs]

theorem skipTokens_tokensFields (fields : List (String × Json)) {d d' : Decoder}
    (h : Reads d (tokensFields fields) d') (fuel depth : ℕ) :
    skipTokens (fuel + (tokensFields fields).length) (depth + 1) d = skipTokens fuel (depth + 1) d' := by
  match fields with
  | [] =>
    obtain rfl : d = d' := h
    rfl
  | (k, v) :: fields =>
    obtain ⟨d₀, hkey, h⟩ := h
    obtain ⟨d₁, hv, hfields⟩ := reads_append h
    have hlen : fuel + (tokensFields ((k, v) :: fields)).length
        = fuel + (tokensFields fields).length + v.tokens.length + 1 := by
      simp only [tokensFields, List.length_append, List.length_cons]
      omega
    rw [hlen, skipTokens_token hkey]
    exact (skipTokens_tokens v hv _ _).trans (skipTokens_tokensFields fields hfields _ _)

end

theorem valueAllowed_of_open {d d' : Decoder} {c : Char} (hc : c = '[' ∨ c = '\x7b')
    (h : d.lexeme = some (.delim c, d')) : d.state.ValueAllowed := by
  unfold lexeme at h
  split at h
  · cases h
  · split_ifs at h
    assumption
  · split_ifs at h
    obtain ⟨d₁, -, heq⟩ := Option.map_eq_some_iff.1 h
    obtain rfl := Token.delim.inj (Prod.mk.inj heq).1
    exact absurd hc (by decide)
  · split_ifs at h
    assumption
  · split_ifs at h
    obtain ⟨d₁, -, heq⟩ := Option.map_eq_some_iff.1 h
    obtain rfl := Token.delim.inj (Prod.mk.inj heq).1
    exact absurd hc (by decide)
  · split_ifs at h
    · obtain ⟨q, -, heq⟩ := Option.map_eq_some_iff.1 h
      cases (Prod.mk.inj heq).1
    · assumption
  · split_ifs at h
    assumption

theorem skipValue_of_open {d d₁ d' : Decoder} {c : Char} (hc : c = '[' ∨ c = '\x7b')
    (hopen : d.token = some (.delim c, d₁)) (hskip : skipTokens d₁.rest.length 1 d₁ = some d') :
    d.skipValue = d' := by
  obtain ⟨d₀, hsep, hlex⟩ := Option.bind_eq_some_iff.1 hopen
  rw [skipValue, hsep]
  simp only [if_pos (valueAllowed_of_open hc hlex), hlex]
  rw [if_pos hc, hskip]
  rfl

/-- The decoder reads over an object. -/
theorem skipValue_obj (fields : List (String × Json)) {d d' : Decoder} (h : Reads d (tokens (.obj fields)) d') :
    d.skipValue = d' := by
  obtain ⟨d₁, hopen, hrest⟩ := h
  obtain ⟨d₂, hfields, d₃, hclose, rfl⟩ := reads_append hrest
  obtain ⟨fuel, hfuel⟩ : ∃ fuel, d₁.rest.length = fuel + 1 + (tokensFields fields).length := by
    have := hrest.length
    rw [List.length_append, List.length_singleton] at this
    exact ⟨d₁.rest.length - 1 - (tokensFields fields).length, by omega⟩
  refine skipValue_of_open (.inr rfl) hopen ?_
  rw [hfuel]
  refine (skipTokens_tokensFields fields hfields (fuel + 1) 0).trans ?_
  rw [skipTokens_token hclose, show depthAfter 0 (.delim '\x7d') = 0 by decide, skipTokens_zero]

end Decoder

end AdGuardHome.Lib
