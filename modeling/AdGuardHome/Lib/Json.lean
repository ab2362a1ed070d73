import AdGuardHome.Lib.Digits
import Mathlib.Data.Int.Basic

/-!
# JSON

The texts that an encoder writes for JSON values, with the characters that have a meaning in HTML escaped, their
tokens, and the functions that read a string, a number or a literal at the start of a text.
-/

namespace AdGuardHome.Lib

/-- A value to be encoded; its numbers are integers. -/
inductive Json
  | null
  | bool (b : Bool)
  | num (n : ℤ)
  | str (s : String)
  | arr (vs : List Json)
  | obj (fields : List (String × Json))

/-- A token of a JSON text; the delimiters are the brackets and the braces. -/
inductive Token
  | delim (c : Char)
  | str (s : String)
  | number (text : List Char)
  | bool (b : Bool)
  | null
deriving DecidableEq

namespace Json

/-! ## Strings -/

/-- The quotation mark. -/
abbrev quote : Char := '\x22'

abbrev backslash : Char := '\x5c'

/-- The characters that are not written as they are. -/
def escaped (c : Char) : Bool :=
  c.toNat < 32 || c == quote || c == backslash || c == '<' || c == '>' || c == '&' || c == '\u2028' || c == '\u2029'

def hexChar (n : ℕ) : Char := if n < 10 then Char.ofNat (48 + n) else Char.ofNat (87 + n)

/-- The second character of an escape of two. -/
def shortEscape (c : Char) : Option Char :=
  if c = quote ∨ c = backslash then some c
  else if c = '\x08' then some 'b'
  else if c = '\x0c' then some 'f'
  else if c = '\n' then some 'n'
  else if c = '\r' then some 'r'
  else if c = '\t' then some 't'
  else none

/-- Four hexadecimal digits. -/
def hex4 (n : ℕ) : List Char :=
  [hexChar (n / 4096 % 16), hexChar (n / 256 % 16), hexChar (n / 16 % 16), hexChar (n % 16)]

/-- The text of a character in a string. -/
def escapeChar (c : Char) : List Char :=
  match shortEscape c with
  | some e => [backslash, e]
  | none => if escaped c then backslash :: 'u' :: hex4 c.toNat else [c]

/-- The text of a string, without the quotation marks around it. -/
def escape (s : String) : List Char := s.toList.flatMap escapeChar

def quoted (s : String) : List Char := quote :: (escape s ++ [quote])

/-! ## Values -/

/-- The digits of an integer. -/
def decimal (n : ℤ) : List Char := if n < 0 then '-' :: Nat.toDigits 10 n.natAbs else Nat.toDigits 10 n.natAbs

mutual

/-- The text of a value. -/
def render : Json → List Char
  | null => ['n', 'u', 'l', 'l']
  | bool true => ['t', 'r', 'u', 'e']
  | bool false => ['f', 'a', 'l', 's', 'e']
  | num n => decimal n
  | str s => quoted s
  | arr vs => '[' :: (renderElems false vs ++ [']'])
  | obj fields => '\x7b' :: (renderFields false fields ++ ['\x7d'])

/-- The elements of an array, with a comma before the first one if there are others before it. -/
def renderElems : Bool → List Json → List Char
  | _, [] => []
  | comma, v :: vs => (if comma then [','] else []) ++ (render v ++ renderElems true vs)

/-- The fields of an object, with a comma before the first one if there are others before it. -/
def renderFields : Bool → List (String × Json) → List Char
  | _, [] => []
  | comma, (k, v) :: fields =>
    (if comma then [','] else []) ++ (quoted k ++ ':' :: (render v ++ renderFields true fields))

end

mutual

/-- The tokens of a value. -/
def tokens : Json → List Token
  | null => [.null]
  | bool b => [.bool b]
  | num n => [.number (decimal n)]
  | str s => [.str s]
  | arr vs => .delim '[' :: (tokensElems vs ++ [.delim ']'])
  | obj fields => .delim '\x7b' :: (tokensFields fields ++ [.delim '\x7d'])

def tokensElems : List Json → List Token
  | [] => []
  | v :: vs => tokens v ++ tokensElems vs

def tokensFields : List (String × Json) → List Token
  | [] => []
  | (k, v) :: fields => .str k :: (tokens v ++ tokensFields fields)

end

theorem tokensFields_append (fields fields' : List (String × Json)) :
    tokensFields (fields ++ fields') = tokensFields fields ++ tokensFields fields' := by
  induction fields with
  | nil => rfl
  | cons f fields ih =>
    obtain ⟨k, v⟩ := f
    rw [List.cons_append, tokensFields, tokensFields, ih, List.cons_append, List.append_assoc]

/-! ## Lexemes -/

def isSpace (c : Char) : Bool := c == ' ' || c == '\t' || c == '\r' || c == '\n'

def isDigit (c : Char) : Bool := '0' ≤ c && c ≤ '9'

def hexCharValue (c : Char) : Option ℕ :=
  if isDigit c then some (c.toNat - 48)
  else if 'a' ≤ c ∧ c ≤ 'f' then some (c.toNat - 87)
  else if 'A' ≤ c ∧ c ≤ 'F' then some (c.toNat - 55)
  else none

/-- The character of an escape of two. -/
def unescape (c : Char) : Option Char :=
  if c = quote ∨ c = backslash ∨ c = '/' then some c
  else if c = 'b' then some '\x08'
  else if c = 'f' then some '\x0c'
  else if c = 'n' then some '\n'
  else if c = 'r' then some '\r'
  else if c = 't' then some '\t'
  else none

/-- Reads a string up to the quotation mark at its end: its characters and the numbers that stand for UTF-16 units, and
the rest of the text. -/
def lexString : List Char → Option (List (Char ⊕ ℕ) × List Char)
  | [] => none
  | [c] => if c = quote then some ([], []) else none
  | c :: d :: cs =>
    if c = quote then some ([], d :: cs)
    else if c = backslash then
      if d = 'u' then
        match cs with
        | h₃ :: h₂ :: h₁ :: h₀ :: cs =>
          match hexCharValue h₃, hexCharValue h₂, hexCharValue h₁, hexCharValue h₀ with
          | some n₃, some n₂, some n₁, some n₀ =>
            (lexString cs).map fun p => (.inr (((n₃ * 16 + n₂) * 16 + n₁) * 16 + n₀) :: p.1, p.2)
          | _, _, _, _ => none
        | _ => none
      else (unescape d).bind fun e => (lexString cs).map fun p => (.inl e :: p.1, p.2)
    else if c.toNat < 32 then none
    else (lexString (d :: cs)).map fun p => (.inl c :: p.1, p.2)

def isSurrogate (n : ℕ) : Bool := 0xd800 ≤ n && n < 0xe000

/-- The characters of the units; a surrogate that is not one of a pair stands for the replacement character. -/
def ofUnits : List (Char ⊕ ℕ) → List Char
  | [] => []
  | .inl c :: us => c :: ofUnits us
  | .inr n :: .inr m :: us =>
    if 0xd800 ≤ n ∧ n < 0xdc00 ∧ 0xdc00 ≤ m ∧ m < 0xe000 then
      Char.ofNat (0x10000 + (n - 0xd800) * 0x400 + (m - 0xdc00)) :: ofUnits us
    else (if isSurrogate n then '\ufffd' else Char.ofNat n) :: ofUnits (.inr m :: us)
  | .inr n :: us => (if isSurrogate n then '\ufffd' else Char.ofNat n) :: ofUnits us

/-- Reads the digits of a number from the point on, and the rest of the text. -/
def lexFraction (cs : List Char) : Option (List Char × List Char) :=
  match cs with
  | '.' :: cs =>
    let ds := cs.takeWhile isDigit
    if ds = [] then none else some ('.' :: ds, cs.drop ds.length)
  | cs => some ([], cs)

/-- Reads an exponent, if there is one, and the rest of the text. -/
def lexExponent (cs : List Char) : Option (List Char × List Char) :=
  match cs with
  | e :: cs =>
    if e = 'e' ∨ e = 'E' then
      let sign := (cs.take 1).filter fun c => c = '+' ∨ c = '-'
      let ds := (cs.drop sign.length).takeWhile isDigit
      if ds = [] then none else some (e :: (sign ++ ds), cs.drop (sign.length + ds.length))
    else some ([], e :: cs)
  | [] => some ([], [])

/-- Reads a number, and the rest of the text. -/
def lexNumber (cs : List Char) : Option (List Char × List Char) :=
  let sign := (cs.take 1).filter (· = '-')
  let rest := cs.drop sign.length
  let ds := if rest.head? = some '0' then ['0'] else rest.takeWhile isDigit
  if ds = [] then none
  else do
    let (frac, cs) ← lexFraction (rest.drop ds.length)
    let (exp, cs) ← lexExponent cs
    some (sign ++ ds ++ frac ++ exp, cs)

/-- Reads a number or a literal, and the rest of the text. -/
def lexScalar : List Char → Option (Token × List Char)
  | 'n' :: 'u' :: 'l' :: 'l' :: cs => some (.null, cs)
  | 't' :: 'r' :: 'u' :: 'e' :: cs => some (.bool true, cs)
  | 'f' :: 'a' :: 'l' :: 's' :: 'e' :: cs => some (.bool false, cs)
  | cs => (lexNumber cs).map fun p => (.number p.1, p.2)

/-! ## Reading what is written -/

/-- The unit that stands for a character in the text of a string. -/
def unitOf (c : Char) : Char ⊕ ℕ := if shortEscape c = none ∧ escaped c = true then .inr c.toNat else .inl c

theorem hexCharValue_hexChar {n : ℕ} (h : n < 16) : hexCharValue (hexChar n) = some n := by
  revert n
  decide

theorem toNat_lt_of_escaped {c : Char} (h : escaped c = true) : c.toNat < 0xd800 := by
  simp only [escaped, Bool.or_eq_true, decide_eq_true_eq, beq_iff_eq] at h
  rcases h with ((((((h | rfl) | rfl) | rfl) | rfl) | rfl) | rfl) | rfl
  · omega
  all_goals decide

theorem lexString_unescape {d e : Char} (hd : d ≠ 'u') (h : unescape d = some e) (cs : List Char) :
    lexString (backslash :: d :: cs) = (lexString cs).map fun p => (.inl e :: p.1, p.2) := by
  rw [lexString.eq_def]
  simp only
  rw [if_neg (by decide), if_pos trivial, if_neg hd, h]
  rfl

theorem lexString_hex4 {n : ℕ} (h : n < 0x10000) (cs : List Char) :
    lexString (backslash :: 'u' :: (hex4 n ++ cs)) = (lexString cs).map fun p => (.inr n :: p.1, p.2) := by
  have hdigit : ∀ m, hexCharValue (hexChar (m % 16)) = some (m % 16) :=
    fun m => hexCharValue_hexChar (Nat.mod_lt _ (by decide))
  have hval : ((n / 4096 % 16 * 16 + n / 256 % 16) * 16 + n / 16 % 16) * 16 + n % 16 = n := by omega
  rw [lexString.eq_def]
  simp only [hex4, List.cons_append, List.nil_append]
  rw [if_neg (by decide), if_pos trivial, if_pos trivial]
  simp only [hdigit, hval]

theorem lexString_plain {c : Char} (hc : escaped c = false) {cs : List Char} (hcs : cs ≠ []) :
    lexString (c :: cs) = (lexString cs).map fun p => (.inl c :: p.1, p.2) := by
  obtain ⟨d, ds, rfl⟩ := List.exists_cons_of_ne_nil hcs
  simp only [escaped, Bool.or_eq_false_iff, decide_eq_false_iff_not, beq_eq_false_iff_ne] at hc
  obtain ⟨⟨⟨⟨⟨⟨⟨hge, hquote⟩, hslash⟩, -⟩, -⟩, -⟩, -⟩, -⟩ := hc
  rw [lexString.eq_def]
  simp only
  rw [if_neg hquote, if_neg hslash, if_neg hge]

theorem unescape_shortEscape {c e : Char} (h : shortEscape c = some e) : e ≠ 'u' ∧ unescape e = some c := by
  unfold shortEscape at h
  split_ifs at h with hsame hb hf hn hr ht
  · obtain rfl := Option.some.inj h
    obtain rfl | rfl := hsame <;> decide
  · obtain rfl := Option.some.inj h
    rw [hb]
    decide
  · obtain rfl := Option.some.inj h
    rw [hf]
    decide
  · obtain rfl := Option.some.inj h
    rw [hn]
    decide
  · obtain rfl := Option.some.inj h
    rw [hr]
    decide
  · obtain rfl := Option.some.inj h
    rw [ht]
    decide

theorem lexString_escapeChar (c : Char) {cs : List Char} (hcs : cs ≠ []) :
    lexString (escapeChar c ++ cs) = (lexString cs).map fun p => (unitOf c :: p.1, p.2) := by
  unfold unitOf escapeChar
  cases hshort : shortEscape c with
  | some e =>
    obtain ⟨he, hun⟩ := unescape_shortEscape hshort
    simpa using lexString_unescape he hun cs
  | none =>
    by_cases hesc : escaped c = true
    · have := toNat_lt_of_escaped hesc
      simpa [hesc] using lexString_hex4 (show c.toNat < 0x10000 by omega) cs
    · simpa [hesc] using lexString_plain (by simpa using hesc) hcs

theorem unitOf_inr {c : Char} {n : ℕ} (h : unitOf c = .inr n) : n < 0xd800 ∧ Char.ofNat n = c := by
  unfold unitOf at h
  split at h
  · rename_i hesc
    obtain rfl := Sum.inr.inj h
    exact ⟨toNat_lt_of_escaped hesc.2, Char.ofNat_toNat c⟩
  · cases h

theorem unitOf_inl {c d : Char} (h : unitOf c = .inl d) : d = c := by
  unfold unitOf at h
  split at h
  · cases h
  · exact (Sum.inl.inj h).symm

theorem ofUnits_inr {n : ℕ} (h : n < 0xd800) (us : List (Char ⊕ ℕ)) :
    ofUnits (.inr n :: us) = Char.ofNat n :: ofUnits us := by
  have hsurrogate : isSurrogate n = false := by
    simp only [isSurrogate, Bool.and_eq_false_iff, decide_eq_false_iff_not]
    omega
  rcases us with _ | ⟨_ | m, us⟩
  · simp [ofUnits, hsurrogate]
  · simp [ofUnits, hsurrogate]
  · rw [ofUnits, if_neg (by omega), hsurrogate]
    rfl

theorem ofUnits_map_unitOf (cs : List Char) : ofUnits (cs.map unitOf) = cs := by
  induction cs with
  | nil => rfl
  | cons c cs ih =>
    rw [List.map_cons]
    cases hc : unitOf c with
    | inl d => rw [ofUnits, ih, unitOf_inl hc]
    | inr n =>
      obtain ⟨hn, hchar⟩ := unitOf_inr hc
      rw [ofUnits_inr hn, ih, hchar]

theorem lexString_quote (cs : List Char) : lexString (quote :: cs) = some ([], cs) := by
  rw [lexString.eq_def]
  cases cs <;> simp

/-- Reading the text of a string gives the string. -/
theorem lexString_escape (s : String) (cs : List Char) :
    lexString (escape s ++ quote :: cs) = some (s.toList.map unitOf, cs) := by
  unfold escape
  induction s.toList with
  | nil => exact lexString_quote cs
  | cons c l ih =>
    rw [List.flatMap_cons, List.append_assoc, lexString_escapeChar c (by simp), ih]
    rfl

/-! ### Numbers -/

/-- No number goes on with the text. -/
def NumberEnd (cs : List Char) : Prop := ∀ c ∈ cs.head?, isDigit c = false ∧ c ≠ '.' ∧ c ≠ 'e' ∧ c ≠ 'E'

theorem isDigit_of_mem_toDigits {n : ℕ} {c : Char} (h : c ∈ Nat.toDigits 10 n) : isDigit c = true := by
  have := Nat.isDigit_of_mem_toDigits (by decide) (by decide) h
  simpa [isDigit, Char.isDigit, Char.le_def] using this

theorem takeWhile_toDigits (n : ℕ) {cs : List Char} (hcs : NumberEnd cs) :
    (Nat.toDigits 10 n ++ cs).takeWhile isDigit = Nat.toDigits 10 n := by
  rw [List.takeWhile_append_of_pos fun c hc => isDigit_of_mem_toDigits hc]
  cases cs with
  | nil => simp
  | cons c cs => simp [(hcs c rfl).1]

theorem lexFraction_end {cs : List Char} (hcs : NumberEnd cs) : lexFraction cs = some ([], cs) := by
  cases cs with
  | nil => rfl
  | cons c cs =>
    unfold lexFraction
    split
    · rename_i heq
      exact absurd (List.cons.inj heq).1 (hcs c rfl).2.1
    · rfl

theorem lexExponent_end {cs : List Char} (hcs : NumberEnd cs) : lexExponent cs = some ([], cs) := by
  cases cs with
  | nil => rfl
  | cons c cs =>
    obtain ⟨-, -, he, hE⟩ := hcs c rfl
    simp [lexExponent, he, hE]

theorem lexNumber_decimal (n : ℤ) {cs : List Char} (hcs : NumberEnd cs) :
    lexNumber (decimal n ++ cs) = some (decimal n, cs) := by
  have hdigits : (if (Nat.toDigits 10 n.natAbs ++ cs).head? = some '0' then ['0']
      else (Nat.toDigits 10 n.natAbs ++ cs).takeWhile isDigit) = Nat.toDigits 10 n.natAbs := by
    rw [List.head?_append_of_ne_nil _ Nat.toDigits_ne_nil, takeWhile_toDigits _ hcs]
    by_cases h0 : n.natAbs = 0
    · rw [h0]
      decide
    · rw [if_neg (head?_toDigits (by omega))]
  have hne : Nat.toDigits 10 n.natAbs ≠ [] := Nat.toDigits_ne_nil
  obtain ⟨d, ds, hd⟩ := List.exists_cons_of_ne_nil hne
  have hminus : d ≠ '-' := by
    have := isDigit_of_mem_toDigits (n := n.natAbs) (c := d) (by simp [hd])
    rintro rfl
    revert this
    decide
  unfold lexNumber decimal
  split
  · simp only [List.cons_append, List.take_succ_cons, List.take_zero, List.filter_cons, decide_true, if_true,
      List.filter_nil, List.length_singleton, List.drop_succ_cons, List.drop_zero, hdigits, if_neg hne,
      List.drop_left, lexFraction_end hcs]
    simp [lexExponent_end hcs]
  · rw [hd] at hdigits hne ⊢
    simp only [List.cons_append, List.take_succ_cons, List.take_zero, List.filter_cons, hminus, decide_false,
      List.filter_nil] at hdigits ⊢
    simp only [Bool.false_eq_true, if_false, List.length_nil, List.drop_zero, hdigits, if_neg hne]
    simp [lexFraction_end hcs, lexExponent_end hcs]

theorem lexScalar_decimal (n : ℤ) {cs : List Char} (hcs : NumberEnd cs) :
    lexScalar (decimal n ++ cs) = some (.number (decimal n), cs) := by
  obtain ⟨d, ds, hd, hdn⟩ : ∃ d ds, decimal n = d :: ds ∧ (d = '-' ∨ isDigit d = true) := by
    unfold decimal
    split
    · exact ⟨_, _, rfl, .inl rfl⟩
    · obtain ⟨d, ds, hd⟩ := List.exists_cons_of_ne_nil (@Nat.toDigits_ne_nil n.natAbs 10)
      exact ⟨d, ds, hd, .inr (isDigit_of_mem_toDigits (n := n.natAbs) (by simp [hd]))⟩
  have hne : d ≠ 'n' ∧ d ≠ 't' ∧ d ≠ 'f' := by
    refine ⟨?_, ?_, ?_⟩ <;> rintro rfl <;> revert hdn <;> decide
  have hnumber := lexNumber_decimal n hcs
  rw [hd, List.cons_append] at hnumber ⊢
  unfold lexScalar
  split
  · rename_i heq
    exact absurd (List.cons.inj heq).1 hne.1
  · rename_i heq
    exact absurd (List.cons.inj heq).1 hne.2.1
  · rename_i heq
    exact absurd (List.cons.inj heq).1 hne.2.2
  · rw [hnumber]
    rfl

/-! ### Values -/

/-- The characters with which no value starts. -/
def between (c : Char) : Bool := isSpace c || c == ',' || c == ':' || c == ']' || c == '\x7d'

theorem render_starts (v : Json) : ∃ c cs, render v = c :: cs ∧ between c = false := by
  have hdigit : ∀ c, isDigit c = true → between c = false := by
    intro c hc
    simp only [isDigit, Bool.and_eq_true, decide_eq_true_eq] at hc
    simp only [between, isSpace, Bool.or_eq_false_iff, beq_eq_false_iff_ne]
    refine ⟨⟨⟨⟨⟨⟨⟨?_, ?_⟩, ?_⟩, ?_⟩, ?_⟩, ?_⟩, ?_⟩, ?_⟩ <;> rintro rfl <;> revert hc <;> decide
  cases v with
  | null => exact ⟨_, _, rfl, by decide⟩
  | bool b => cases b <;> exact ⟨_, _, rfl, by decide⟩
  | num n =>
    simp only [render, decimal]
    split
    · exact ⟨_, _, rfl, by decide⟩
    · obtain ⟨d, ds, hd⟩ := List.exists_cons_of_ne_nil (@Nat.toDigits_ne_nil n.natAbs 10)
      exact ⟨d, ds, hd, hdigit d (isDigit_of_mem_toDigits (n := n.natAbs) (by simp [hd]))⟩
  | str s => exact ⟨_, _, by rw [render, quoted], by decide⟩
  | arr vs => exact ⟨_, _, by rw [render], by decide⟩
  | obj fields => exact ⟨_, _, by rw [render], by decide⟩

/-! ## The rest of the text -/

theorem length_lexString {cs : List Char} {p : List (Char ⊕ ℕ) × List Char} (h : lexString cs = some p) :
    p.2.length < cs.length := by
  fun_induction lexString cs generalizing p with
  | case1 | case3 | case6 | case7 | case9 => cases h
  | case2 =>
    obtain rfl := Option.some.inj h
    simp
  | case4 =>
    obtain rfl := Option.some.inj h
    simp
  | case5 h₃ h₂ h₁ h₀ cs n₃ n₂ n₁ n₀ _ _ _ _ _ ih =>
    obtain ⟨q, hq, rfl⟩ := Option.map_eq_some_iff.1 h
    have := ih hq
    simp only [List.length_cons]
    omega
  | case8 d cs _ _ ih =>
    obtain ⟨e, -, h⟩ := Option.bind_eq_some_iff.1 h
    obtain ⟨q, hq, rfl⟩ := Option.map_eq_some_iff.1 h
    have := ih hq
    simp only [List.length_cons]
    omega
  | case10 c d cs _ _ _ ih =>
    obtain ⟨q, hq, rfl⟩ := Option.map_eq_some_iff.1 h
    have := ih hq
    simp only [List.length_cons] at this ⊢
    omega

theorem length_lexFraction {cs : List Char} {p : List Char × List Char} (h : lexFraction cs = some p) :
    p.2.length ≤ cs.length := by
  unfold lexFraction at h
  split at h
  · simp only at h
    split_ifs at h
    obtain rfl := Option.some.inj h
    simp only [List.length_drop, List.length_cons]
    omega
  · obtain rfl := Option.some.inj h
    rfl

theorem length_lexExponent {cs : List Char} {p : List Char × List Char} (h : lexExponent cs = some p) :
    p.2.length ≤ cs.length := by
  unfold lexExponent at h
  split at h
  · simp only at h
    split_ifs at h
    · obtain rfl := Option.some.inj h
      simp only [List.length_drop, List.length_cons]
      omega
    · obtain rfl := Option.some.inj h
      rfl
  · obtain rfl := Option.some.inj h
    rfl

theorem length_lexNumber {cs : List Char} {p : List Char × List Char} (h : lexNumber cs = some p) :
    p.2.length < cs.length := by
  unfold lexNumber at h
  simp only at h
  generalize (List.filter (fun x => decide (x = '-')) (List.take 1 cs)).length = k at h
  generalize hdigits : (if (cs.drop k).head? = some '0' then ['0'] else (cs.drop k).takeWhile isDigit) = ds at h
  split_ifs at h with hds
  obtain ⟨q, hq, h⟩ := Option.bind_eq_some_iff.1 h
  obtain ⟨r, hr, h⟩ := Option.bind_eq_some_iff.1 h
  obtain rfl := Option.some.inj h
  have h1 := length_lexFraction hq
  have h2 := length_lexExponent hr
  have hpos := List.length_pos_iff.2 hds
  have hle : ds.length ≤ (cs.drop k).length := by
    rw [← hdigits]
    split
    · rename_i hhead
      cases hc : cs.drop k with
      | nil => simp [hc] at hhead
      | cons c l => simp
    · exact (List.takeWhile_prefix _).length_le
  rw [List.length_drop] at h1 hle
  rw [List.length_drop] at h1
  simp only at h2 ⊢
  omega

theorem length_lexScalar {cs : List Char} {p : Token × List Char} (h : lexScalar cs = some p) :
    p.2.length < cs.length := by
  unfold lexScalar at h
  split at h
  · obtain rfl := Option.some.inj h
    simp only [List.length_cons]
    omega
  · obtain rfl := Option.some.inj h
    simp only [List.length_cons]
    omega
  · obtain rfl := Option.some.inj h
    simp only [List.length_cons]
    omega
  · obtain ⟨q, hq, rfl⟩ := Option.map_eq_some_iff.1 h
    exact length_lexNumber hq

end Json

end AdGuardHome.Lib
