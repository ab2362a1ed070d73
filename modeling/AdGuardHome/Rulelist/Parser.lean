import AdGuardHome.Lib.Crc32
import AdGuardHome.Lib.Lines
import AdGuardHome.Lib.Trim
import AdGuardHome.Lib.Utf8
import Mathlib.Data.List.TakeWhile

/-!
# The parser of rule lists (`internal/filtering/rulelist/parser.go`)

A list is parsed line by line: what is no rule is left out, and the rules go to the destination and to the running
checksum, to the latter without anything between them.  The source is all that a reader gives before the error that
it ends with, and is taken to report its end after the last bytes and not with them.
-/

namespace AdGuardHome.Rulelist

open AdGuardHome.Lib

/-! ## Bytes -/

/-- The characters of `unicode.IsSpace`. -/
def spaces : List (List UInt8) :=
  ['\t', '\n', '\x0b', '\x0c', '\r', ' ', '\u0085', '\u00a0', '\u1680', '\u2000', '\u2001', '\u2002', '\u2003',
    '\u2004', '\u2005', '\u2006', '\u2007', '\u2008', '\u2009', '\u200a', '\u2028', '\u2029', '\u202f', '\u205f',
    '\u3000'].map fun c => utf8 [c]

/-- `bytes.TrimSpace` -/
def trimSpace (s : List UInt8) : List UInt8 := trim spaces s

/-- `bytes.EqualFold` with an ASCII text without the letters `k` and `s`, to which no other characters fold. -/
def equalFold (s t : List UInt8) : Bool := s.map lower == t.map lower
where
  lower (b : UInt8) : UInt8 := if 65 ≤ b ∧ b ≤ 90 then b + 32 else b

/-- `bytes.Index` -/
def index (s sep : List UInt8) : ℤ :=
  match (List.range (s.length + 1)).find? fun i => sep.isPrefixOf (s.drop i) with
  | some i => i
  | none => -1

/-- `hasPrefixFold` -/
def hasPrefixFold (b pref : List UInt8) : Bool := pref.length ≤ b.length && equalFold (b.take pref.length) pref

/-- `isHTMLLine` -/
def isHTMLLine (line : List UInt8) : Bool :=
  hasPrefixFold line (utf8 "<html".toList) || hasPrefixFold line (utf8 "<!doctype".toList)

/-- `likelyBinary` -/
def likelyBinary (b : UInt8) : Bool := (b < 32 || b == 0x7f) && b != 10 && b != 13 && b != 9

/-! ## The scanner -/

/-- What `src` gives, with the error after it unless it is `io.EOF`. -/
structure Reader where
  data : List UInt8
  err : Option String

/-- `bufio.MaxScanTokenSize` -/
def maxScanTokenSize : ℕ := 64 * 1024

/-- `bufio.dropCR` -/
def dropCR (data : List UInt8) : List UInt8 := if data.getLast? = some 13 then data.dropLast else data

/-- The tokens of a `bufio.Scanner` that splits into lines, and its error.  It stops at the first line that does not
fit. -/
def scan (src : Reader) : List (List UInt8) × Option String :=
  let raw := lines 10 src.data
  let fit := raw.takeWhile (·.length < maxScanTokenSize)
  (fit.map dropCR, if fit.length < raw.length then some "bufio.Scanner: token too long" else src.err)

/-! ## The parser -/

/-- The errors of `Parse`. -/
inductive ParseError
  /-- `ErrHTML` -/
  | html
  | binary (line : ℕ) (character : ℤ) (b : UInt8)
  | writing (err : String)
  | scanning (err : String)
deriving DecidableEq

/-- `%q` of a byte that is likely binary. -/
def quoteByte (b : UInt8) : String :=
  match b.toNat with
  | 7 => "'\\a'"
  | 8 => "'\\b'"
  | 11 => "'\\v'"
  | 12 => "'\\f'"
  | n => "'\\x" ++ String.ofList [Nat.digitChar (n / 16), Nat.digitChar (n % 16)] ++ "'"

def ParseError.text : ParseError → String
  | .html => "data is HTML, not plain text"
  | .binary line character b =>
    "line " ++ Nat.repr line ++ ": character " ++ toString character ++ ": likely binary character " ++ quoteByte b
  | .writing err => "writing rule line: " ++ err
  | .scanning err => "scanning filter contents: " ++ err

structure ParseResult where
  title : List UInt8
  rulesCount : ℕ
  bytesWritten : ℕ
  checksum : UInt32
deriving DecidableEq

structure Parser where
  title : List UInt8
  rulesCount : ℕ
  written : ℕ
  checksum : UInt32
  titleFound : Bool

/-- `dst`: the error of the write of a rule after so many others, which writes nothing then. -/
abbrev Writer := ℕ → Option String

/-- `parseLine` -/
def parseLine (line : List UInt8) : Option ℕ × Bool :=
  match line with
  | [] => (none, false)
  | b :: _ =>
    if b = 35 ∨ b = 33 then (none, false)
    else
      let badIdx := line.findIdx? likelyBinary
      (badIdx, badIdx.isNone)

namespace Parser

/-- `NewParser` -/
def new : Parser := ⟨[], 0, 0, 0, false⟩

/-- `Parser.result` -/
def result (p : Parser) : ParseResult := ⟨p.title, p.rulesCount, p.written, p.checksum⟩

/-- `titlePattern` -/
def titlePattern : List UInt8 := utf8 "! Title: ".toList

/-- `Parser.parseLineTitle`; the trimmed title is `nil` exactly when it is empty. -/
def parseLineTitle (p : Parser) (line : List UInt8) : Parser × Option ℕ × Bool :=
  match line with
  | [] => (p, none, false)
  | b :: _ =>
    if b = 35 then (p, none, false)
    else if b ≠ 33 then
      let badIdx := line.findIdx? likelyBinary
      (p, badIdx, badIdx.isNone)
    else if titlePattern.isPrefixOf line then
      let title := trimSpace (line.drop titlePattern.length)
      if title ≠ [] then ({ p with title := title, titleFound := true }, none, false) else (p, none, false)
    else (p, none, false)

/-- What `Parser.processLine` learns about a trimmed line. -/
def verdict (p : Parser) (trimmed : List UInt8) : Parser × Option ℕ × Bool :=
  if p.titleFound then (p, parseLine trimmed) else p.parseLineTitle trimmed

/-- `Parser.processLine`: the parser, the bytes that are written and the error. -/
def processLine (dst : Writer) (p : Parser) (line : List UInt8) (lineNum : ℕ) :
    Parser × List UInt8 × Option ParseError :=
  let trimmed := trimSpace line
  if p.written = 0 ∧ isHTMLLine trimmed then (p, [], some .html)
  else
    match p.verdict trimmed with
    | (p, some badIdx, _) =>
      (p, [], some (.binary lineNum (badIdx + index line trimmed + 1) (trimmed.getD badIdx 0)))
    | (p, none, false) => (p, [], none)
    | (p, none, true) =>
      let werr := dst p.rulesCount
      let p := { p with rulesCount := p.rulesCount + 1, checksum := Crc32.update p.checksum trimmed }
      match werr with
      | some err => (p, [], some (.writing err))
      | none => (p, trimmed ++ [10], none)

/-- The loop of `Parser.Parse`. -/
def processLines (dst : Writer) (p : Parser) (lineNum : ℕ) :
    List (List UInt8) → Parser × List UInt8 × Option ParseError
  | [] => (p, [], none)
  | line :: rest =>
    match p.processLine dst line lineNum with
    | (p, out, err) =>
      let p := { p with written := p.written + out.length }
      match err with
      | some err => (p, out, some err)
      | none =>
        match processLines dst p (lineNum + 1) rest with
        | (p, out', err) => (p, out ++ out', err)

/-- `Parser.Parse`: the result, the bytes that are written and the error. -/
def parse (dst : Writer) (src : Reader) : ParseResult × List UInt8 × Option ParseError :=
  let (tokens, scanErr) := scan src
  match processLines dst new 1 tokens with
  | (p, out, some err) => (p.result, out, some err)
  | (p, out, none) => (p.result, out, scanErr.map .scanning)

end Parser

/-! ## Rules -/

/-- A trimmed line that is not empty and no comment. -/
def isRule : List UInt8 → Bool
  | [] => false
  | b :: _ => b != 35 && b != 33

/-- The rules among the lines. -/
def rulesOf (tokens : List (List UInt8)) : List (List UInt8) := (tokens.map trimSpace).filter isRule

/-- The rules of a source. -/
def ruleLines (src : Reader) : List (List UInt8) := rulesOf (scan src).1

/-- Rules as they are written to a file. -/
structure Clean (rules : List (List UInt8)) : Prop where
  trimmed : ∀ r ∈ rules, trimSpace r = r
  isRule : ∀ r ∈ rules, isRule r = true
  printable : ∀ r ∈ rules, ∀ b ∈ r, likelyBinary b = false
  oneLine : ∀ r ∈ rules, 10 ∉ r
  fits : ∀ r ∈ rules, r.length < maxScanTokenSize
  text : ∀ r ∈ rules.head?, isHTMLLine r = false

theorem nil_not_mem_spaces : [] ∉ spaces := by
  intro h
  obtain ⟨c, -, hc⟩ := List.mem_map.1 h
  rw [utf8_cons, utf8_nil, List.append_nil] at hc
  exact encode_ne_nil c hc

theorem trimSpace_trimSpace (s : List UInt8) : trimSpace (trimSpace s) = trimSpace s := trim_trim nil_not_mem_spaces s

theorem dropCR_trimSpace (s : List UInt8) : dropCR (trimSpace s) = trimSpace s := by
  refine if_neg fun h => ?_
  obtain ⟨t, ht⟩ := List.getLast?_eq_some_iff.1 h
  have hcr : [13] ∈ spaces := by decide +kernel
  exact not_suffix_trim nil_not_mem_spaces s _ hcr ⟨t, ht.symm⟩

theorem prefix_dropCR (data : List UInt8) : dropCR data <+: data := by
  unfold dropCR
  split
  · exact List.dropLast_prefix data
  · exact List.prefix_rfl

/-- A token is a part of a line. -/
theorem infix_of_mem_scan {src : Reader} {token : List UInt8} (h : token ∈ (scan src).1) :
    10 ∉ token ∧ token.length < maxScanTokenSize := by
  obtain ⟨line, hline, rfl⟩ := List.mem_map.1 h
  have hmem : line ∈ lines 10 src.data := (List.takeWhile_prefix _).subset hline
  have hfits : line.length < maxScanTokenSize := by simpa using List.mem_takeWhile_imp hline
  exact ⟨fun h10 => not_mem_of_mem_lines hmem ((prefix_dropCR line).subset h10),
    (prefix_dropCR line).length_le.trans_lt hfits⟩

theorem parseLine_eq (line : List UInt8) :
    parseLine line =
      if isRule line then (line.findIdx? likelyBinary, (line.findIdx? likelyBinary).isNone) else (none, false) := by
  cases line with
  | nil => rfl
  | cons b bs =>
    unfold parseLine isRule
    by_cases hb : b = 35 ∨ b = 33
    · rcases hb with rfl | rfl <;> rfl
    · rw [not_or] at hb
      simp [hb]

namespace Parser

variable {dst : Writer} {p q : Parser}

/-- The search for a title looks at the comments only. -/
theorem parseLineTitle_snd (p : Parser) (line : List UInt8) : (p.parseLineTitle line).2 = parseLine line := by
  cases line with
  | nil => rfl
  | cons b bs =>
    by_cases hhash : b = 35
    · simp [parseLineTitle, parseLine, hhash]
    · by_cases hbang : b = 33
      · have hcomment : parseLine (b :: bs) = (none, false) := if_pos (.inr hbang)
        rw [hcomment]
        unfold parseLineTitle
        dsimp only
        rw [if_neg hhash, if_neg (not_not_intro hbang)]
        split
        · split <;> rfl
        · rfl
      · simp [parseLineTitle, parseLine, hhash, hbang]

theorem parseLineTitle_fst (p : Parser) (line : List UInt8) :
    ∃ title found, (p.parseLineTitle line).1 = { p with title := title, titleFound := found } := by
  unfold parseLineTitle
  split
  · exact ⟨_, _, rfl⟩
  · split
    · exact ⟨_, _, rfl⟩
    · split
      · exact ⟨_, _, rfl⟩
      · split
        · dsimp only
          split <;> exact ⟨_, _, rfl⟩
        · exact ⟨_, _, rfl⟩

theorem parseLineTitle_of_isRule {line : List UInt8} (h : isRule line = true) : (p.parseLineTitle line).1 = p := by
  cases line with
  | nil => cases h
  | cons b bs =>
    simp only [isRule, Bool.and_eq_true, bne_iff_ne] at h
    simp [parseLineTitle, h]

theorem verdict_snd (p : Parser) (trimmed : List UInt8) : (p.verdict trimmed).2 = parseLine trimmed := by
  unfold verdict
  split
  · rfl
  · exact p.parseLineTitle_snd trimmed

theorem verdict_fst (p : Parser) (trimmed : List UInt8) :
    ∃ title found, (p.verdict trimmed).1 = { p with title := title, titleFound := found } := by
  unfold verdict
  split
  · exact ⟨_, _, rfl⟩
  · exact p.parseLineTitle_fst trimmed

theorem verdict_of_isRule {trimmed : List UInt8} (h : isRule trimmed = true) : (p.verdict trimmed).1 = p := by
  unfold verdict
  split
  · rfl
  · exact parseLineTitle_of_isRule h

/-- The parser after a rule. -/
def counted (p : Parser) (rule : List UInt8) : Parser :=
  { p with rulesCount := p.rulesCount + 1, checksum := Crc32.update p.checksum rule }

section ProcessLine

variable {line : List UInt8} {n : ℕ}

theorem processLine_other (htext : ¬(p.written = 0 ∧ isHTMLLine (trimSpace line) = true))
    (h : isRule (trimSpace line) = false) :
    ∃ title found, p.processLine dst line n = ({ p with title := title, titleFound := found }, [], none) := by
  have hsnd := p.verdict_snd (trimSpace line)
  rw [parseLine_eq, h, if_neg Bool.false_ne_true] at hsnd
  obtain ⟨title, found, hfst⟩ := p.verdict_fst (trimSpace line)
  refine ⟨title, found, ?_⟩
  unfold processLine
  dsimp only
  rw [if_neg htext, show p.verdict (trimSpace line) = (_, none, false) from Prod.ext hfst hsnd]

theorem processLine_rule (dst : Writer) (n : ℕ) (htext : ¬(p.written = 0 ∧ isHTMLLine (trimSpace line) = true))
    (h : isRule (trimSpace line) = true) (hprint : ∀ b ∈ trimSpace line, likelyBinary b = false) :
    p.processLine dst line n =
      match dst p.rulesCount with
      | some err => (p.counted (trimSpace line), [], some (.writing err))
      | none => (p.counted (trimSpace line), trimSpace line ++ [10], none) := by
  have hidx : (trimSpace line).findIdx? likelyBinary = none := List.findIdx?_eq_none_iff.2 hprint
  have hsnd := p.verdict_snd (trimSpace line)
  rw [parseLine_eq, h, if_pos rfl, hidx] at hsnd
  unfold processLine
  dsimp only
  rw [if_neg htext, show p.verdict (trimSpace line) = (_, none, true) from Prod.ext (verdict_of_isRule h) hsnd]
  rfl

/-- The lines that are accepted. -/
theorem processLine_ok (h : (p.processLine dst line n).2.2 = none) :
    ¬(p.written = 0 ∧ isHTMLLine (trimSpace line) = true) ∧
      (isRule (trimSpace line) = true → (∀ b ∈ trimSpace line, likelyBinary b = false) ∧ dst p.rulesCount = none) := by
  have htext : ¬(p.written = 0 ∧ isHTMLLine (trimSpace line) = true) := fun htext => by
    rw [processLine, if_pos htext] at h
    cases h
  refine ⟨htext, fun hrule => ?_⟩
  have hprint : ∀ b ∈ trimSpace line, likelyBinary b = false := by
    rw [← List.findIdx?_eq_none_iff]
    cases hidx : (trimSpace line).findIdx? likelyBinary with
    | none => rfl
    | some k =>
      have hsnd := p.verdict_snd (trimSpace line)
      rw [parseLine_eq, hrule, if_pos rfl, hidx] at hsnd
      unfold processLine at h
      dsimp only at h
      rw [if_neg htext,
        show p.verdict (trimSpace line) = (_, some k, false) from Prod.ext (verdict_of_isRule hrule) hsnd] at h
      cases h
  refine ⟨hprint, ?_⟩
  rw [processLine_rule dst n htext hrule hprint] at h
  cases hdst : dst p.rulesCount with
  | none => rfl
  | some err =>
    rw [hdst] at h
    cases h

end ProcessLine

/-! ## Parsing -/

/-- The parser `q` has counted and written the rules since `p`. -/
structure Parsed (p q : Parser) (rules : List (List UInt8)) : Prop where
  rulesCount : q.rulesCount = p.rulesCount + rules.length
  written : q.written = p.written + (unlines 10 rules).length
  checksum : q.checksum = Crc32.update p.checksum rules.flatten

/-- Lines that are accepted: the rules are printable and the first of a list is no HTML. -/
structure Accepted (written : ℕ) (rules : List (List UInt8)) : Prop where
  printable : ∀ r ∈ rules, ∀ b ∈ r, likelyBinary b = false
  text : written = 0 → ∀ r ∈ rules.head?, isHTMLLine r = false

theorem rulesOf_cons (line : List UInt8) (rest : List (List UInt8)) :
    rulesOf (line :: rest) = if isRule (trimSpace line) then trimSpace line :: rulesOf rest else rulesOf rest := by
  unfold rulesOf
  rw [List.map_cons, List.filter_cons]

theorem processLines_ok {tokens : List (List UInt8)} {n : ℕ} (h : (processLines dst p n tokens).2.2 = none) :
    (processLines dst p n tokens).2.1 = unlines 10 (rulesOf tokens) ∧
      Parsed p (processLines dst p n tokens).1 (rulesOf tokens) ∧ Accepted p.written (rulesOf tokens) := by
  induction tokens generalizing p n with
  | nil =>
    exact ⟨rfl, ⟨rfl, rfl, (Crc32.update_nil _).symm⟩, fun r hr => absurd hr List.not_mem_nil,
      fun _ r hr => by cases hr⟩
  | cons line rest ih =>
    have herr : (p.processLine dst line n).2.2 = none := by
      rw [processLines] at h
      cases hline : (p.processLine dst line n).2.2 with
      | none => rfl
      | some e =>
        rw [show p.processLine dst line n = (_, _, some e) from Prod.ext rfl (Prod.ext rfl hline)] at h
        cases h
    obtain ⟨htext, hok⟩ := processLine_ok herr
    rw [rulesOf_cons]
    cases hrule : isRule (trimSpace line) with
    | false =>
      obtain ⟨title, found, hline⟩ := processLine_other htext hrule
      rw [processLines, hline] at h ⊢
      obtain ⟨hout, ⟨hcount, hwritten, hsum⟩, hacc⟩ := ih h
      exact ⟨hout, ⟨hcount, hwritten, hsum⟩, hacc⟩
    | true =>
      obtain ⟨hprint, hdst⟩ := hok hrule
      have hline := processLine_rule dst n htext hrule hprint
      rw [hdst] at hline
      rw [processLines, hline] at h ⊢
      obtain ⟨hout, ⟨hcount, hwritten, hsum⟩, hacc⟩ := ih h
      rw [if_pos rfl]
      refine ⟨?_, ⟨?_, ?_, ?_⟩, ?_, ?_⟩
      · rw [unlines_cons]
        exact (congrArg (trimSpace line ++ [10] ++ ·) hout).trans (List.append_assoc _ [10] _)
      · rw [hcount, List.length_cons]
        exact Nat.add_right_comm _ 1 _
      · rw [hwritten, unlines_cons]
        simp only [counted, List.length_append, List.length_cons, List.length_nil]
        omega
      · rw [hsum, List.flatten_cons, Crc32.update_append]
        rfl
      · intro r hr
        rcases List.mem_cons.1 hr with rfl | hr
        · exact hprint
        · exact hacc.printable r hr
      · intro hzero r hr
        obtain rfl : trimSpace line = r := Option.some.inj hr
        exact Bool.eq_false_iff.2 fun hhtml => htext ⟨hzero, hhtml⟩

theorem parse_of_processLines {src : Reader} (h : (processLines dst new 1 (scan src).1).2.2 = none) :
    parse dst src = ((processLines dst new 1 (scan src).1).1.result, (processLines dst new 1 (scan src).1).2.1,
      (scan src).2.map .scanning) := by
  unfold parse
  dsimp only
  rw [show processLines dst new 1 (scan src).1 = (_, _, none) from Prod.ext rfl (Prod.ext rfl h)]

theorem result_of_parsed {rules : List (List UInt8)} (h : Parsed new q rules) :
    q.result = ⟨q.title, rules.length, (unlines 10 rules).length, Crc32.update 0 rules.flatten⟩ := by
  unfold result
  rw [h.rulesCount, h.written, h.checksum]
  simp [new]

/-- What a list that is accepted leaves. -/
theorem parse_ok {src : Reader} (h : (parse dst src).2.2 = none) :
    (parse dst src).2.1 = unlines 10 (ruleLines src) ∧
      (∃ title, (parse dst src).1 = ⟨title, (ruleLines src).length, (unlines 10 (ruleLines src)).length,
        Crc32.update 0 (ruleLines src).flatten⟩) ∧ Clean (ruleLines src) := by
  have hlines : (processLines dst new 1 (scan src).1).2.2 = none := by
    unfold parse at h
    dsimp only at h
    split at h
    · cases h
    · rename_i heq
      rw [heq]
  obtain ⟨hout, hparsed, hacc⟩ := processLines_ok hlines
  rw [parse_of_processLines hlines]
  refine ⟨hout, ⟨_, result_of_parsed hparsed⟩, ?_⟩
  have hmem : ∀ r ∈ ruleLines src, ∃ token ∈ (scan src).1, trimSpace token = r ∧ isRule r = true := fun r hr => by
    obtain ⟨hr, hrule⟩ := List.mem_filter.1 hr
    obtain ⟨token, htoken, rfl⟩ := List.mem_map.1 hr
    exact ⟨token, htoken, rfl, hrule⟩
  refine ⟨fun r hr => ?_, fun r hr => ?_, hacc.printable, fun r hr => ?_, fun r hr => ?_, hacc.text rfl⟩
  all_goals obtain ⟨token, htoken, rfl, hrule⟩ := hmem r hr
  · exact trimSpace_trimSpace token
  · exact hrule
  · exact fun h10 => (infix_of_mem_scan htoken).1 ((infix_trim token).subset h10)
  · exact (infix_trim token).length_le.trans_lt (infix_of_mem_scan htoken).2

/-- Lines that are rules are accepted. -/
theorem processLines_rules (p : Parser) (n : ℕ) {rules : List (List UInt8)} (htrim : ∀ r ∈ rules, trimSpace r = r)
    (hrule : ∀ r ∈ rules, isRule r = true) (hacc : Accepted p.written rules)
    (hdst : ∀ k, p.rulesCount ≤ k → k < p.rulesCount + rules.length → dst k = none) :
    (processLines dst p n rules).2.2 = none ∧ (processLines dst p n rules).1.title = p.title := by
  induction rules generalizing p n with
  | nil => exact ⟨rfl, rfl⟩
  | cons r rest ih =>
    have hr : trimSpace r = r := htrim r List.mem_cons_self
    have htext : ¬(p.written = 0 ∧ isHTMLLine (trimSpace r) = true) := by
      rintro ⟨hzero, hhtml⟩
      rw [hr, hacc.text hzero r rfl] at hhtml
      cases hhtml
    have hline := processLine_rule dst n htext (by rw [hr]; exact hrule r List.mem_cons_self)
      (by rw [hr]; exact hacc.printable r List.mem_cons_self)
    rw [hdst _ le_rfl (by simp)] at hline
    rw [processLines, hline]
    refine ih _ (n + 1) (fun x hx => htrim x (List.mem_cons_of_mem _ hx))
      (fun x hx => hrule x (List.mem_cons_of_mem _ hx))
      ⟨fun x hx => hacc.printable x (List.mem_cons_of_mem _ hx), fun hzero => by simp at hzero⟩ fun k hle hlt => ?_
    simp only [counted] at hle hlt
    refine hdst k (by omega) ?_
    rw [List.length_cons]
    omega

end Parser

/-! ## Files of rules -/

theorem scan_unlines {rules : List (List UInt8)} (h : Clean rules) :
    scan ⟨unlines 10 rules, none⟩ = (rules, none) := by
  have hfit : rules.takeWhile (fun r => decide (r.length < maxScanTokenSize)) = rules :=
    List.takeWhile_eq_self_iff.2 fun r hr => by simpa using h.fits r hr
  have hcr : rules.map dropCR = rules := by
    conv_rhs => rw [← List.map_id rules]
    refine List.map_congr_left fun r hr => ?_
    rw [← h.trimmed r hr, dropCR_trimSpace, id]
  unfold scan
  dsimp only
  rw [lines_unlines h.oneLine, hfit, hcr, if_neg (lt_irrefl _)]

theorem ruleLines_unlines {rules : List (List UInt8)} (h : Clean rules) :
    ruleLines ⟨unlines 10 rules, none⟩ = rules := by
  have htrim : rules.map trimSpace = rules := by
    conv_rhs => rw [← List.map_id rules]
    exact List.map_congr_left h.trimmed
  rw [ruleLines, scan_unlines h, rulesOf, htrim, List.filter_eq_self]
  exact h.isRule

/-- Parsing a file of rules gives the rules back. -/
theorem parse_unlines {rules : List (List UInt8)} (h : Clean rules) {dst : Writer}
    (hdst : ∀ k < rules.length, dst k = none) :
    Parser.parse dst ⟨unlines 10 rules, none⟩ =
      (⟨[], rules.length, (unlines 10 rules).length, Crc32.update 0 rules.flatten⟩, unlines 10 rules, none) := by
  have hrules : rulesOf rules = rules := by
    have hlines := ruleLines_unlines h
    rwa [ruleLines, scan_unlines h] at hlines
  obtain ⟨herr, htitle⟩ := Parser.processLines_rules .new 1 h.trimmed h.isRule ⟨h.printable, fun _ => h.text⟩
    fun k _ hk => hdst k (by simpa [Parser.new] using hk)
  obtain ⟨hout, hparsed, -⟩ := Parser.processLines_ok herr
  rw [hrules] at hout hparsed
  rw [Parser.parse_of_processLines (by rwa [scan_unlines h]), scan_unlines h, Parser.result_of_parsed hparsed, hout,
    htitle]
  rfl

end AdGuardHome.Rulelist
