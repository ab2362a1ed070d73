import AdGuardHome.Rulelist.Parser

/-!
# Rule lists that are parsed again (`internal/filtering/rulelist/parser.go`)

What `Parse` writes are the rules of its source, one in a line, and these are what is left when the lines of the source
are trimmed and the empty ones and the comments are taken out, whatever ends the lines.  A file of rules is parsed to
itself at the next start (`parse_fixed`).
-/

namespace AdGuardHome.Rulelist

open AdGuardHome.Lib

variable {src : Reader}

theorem eq_singleton_of_getLast?_eq : ∀ w ∈ spaces, w.getLast? = some 13 → w = [13] := by
  decide +kernel

theorem trimSpace_dropCR (line : List UInt8) : trimSpace (dropCR line) = trimSpace line := by
  have hcr : [13] ∈ spaces := by decide +kernel
  unfold dropCR
  split
  · rename_i hlast
    obtain ⟨init, rfl⟩ := List.getLast?_eq_some_iff.1 hlast
    rw [List.dropLast_concat]
    exact (trim_concat hcr nil_not_mem_spaces eq_singleton_of_getLast?_eq init).symm
  · rfl

/-- A scan without an error has got all the lines. -/
theorem scan_ok (h : (scan src).2 = none) : (scan src).1 = (lines 10 src.data).map dropCR := by
  unfold scan at h ⊢
  dsimp only at h ⊢
  split at h
  · cases h
  · rename_i hall
    rw [(List.takeWhile_prefix _).eq_of_length_le (Nat.le_of_not_lt hall)]

theorem parse_scan {dst : Writer} (h : (Parser.parse dst src).2.2 = none) : (scan src).2 = none := by
  unfold Parser.parse at h
  dsimp only at h
  split at h
  · cases h
  · exact Option.map_eq_none_iff.1 h

theorem rulesOf_map_dropCR (raw : List (List UInt8)) : rulesOf (raw.map dropCR) = rulesOf raw := by
  unfold rulesOf
  rw [List.map_map]
  congr 1
  exact List.map_congr_left fun line _ => trimSpace_dropCR line

theorem ruleLines_eq (h : (scan src).2 = none) : ruleLines src = rulesOf (lines 10 src.data) := by
  rw [ruleLines, scan_ok h, rulesOf_map_dropCR]

/-- A list that is accepted is written as its trimmed lines without the empty ones and the comments; what is written is
parsed to itself, with the same counts and checksum; and so is every list with the same rules. -/
theorem parse_fixed {dst : Writer} {res : ParseResult} {out : List UInt8}
    (hparse : Parser.parse dst src = (res, out, none)) :
    out = unlines 10 (((lines 10 src.data).map trimSpace).filter isRule) ∧
      (∀ dst' : Writer, (∀ k < res.rulesCount, dst' k = none) →
        ∃ title, Parser.parse dst' ⟨out, none⟩ = ({ res with title := title }, out, none)) ∧
      ∀ (dst' : Writer) (src' : Reader) (res' : ParseResult) (out' : List UInt8),
        Parser.parse dst' src' = (res', out', none) →
          ((lines 10 src'.data).map trimSpace).filter isRule = ((lines 10 src.data).map trimSpace).filter isRule →
            out' = out ∧ res'.rulesCount = res.rulesCount ∧ res'.bytesWritten = res.bytesWritten ∧
              res'.checksum = res.checksum := by
  have hnone : (Parser.parse dst src).2.2 = none := by rw [hparse]
  have hrules := ruleLines_eq (parse_scan hnone)
  obtain ⟨hout, ⟨title, hres⟩, hclean⟩ := Parser.parse_ok hnone
  rw [hparse] at hout hres
  dsimp only at hout hres
  subst hout hres
  refine ⟨by rw [hrules]; rfl, fun dst' hdst' => ⟨[], parse_unlines hclean hdst'⟩, ?_⟩
  intro dst' src' res' out' hparse' hsame
  have hnone' : (Parser.parse dst' src').2.2 = none := by rw [hparse']
  have hrules' : ruleLines src' = ruleLines src := by
    rw [hrules, ruleLines_eq (parse_scan hnone')]
    exact hsame
  obtain ⟨hout', ⟨title', hres'⟩, -⟩ := Parser.parse_ok hnone'
  rw [hparse', hrules'] at hout' hres'
  dsimp only at hout' hres'
  subst hout' hres'
  exact ⟨rfl, rfl, rfl, rfl⟩

/-- A title, a comment, and a rule with spaces and a carriage return. -/
theorem parse_fixed_titled :
    ∃ res, Parser.parse (fun _ => none) ⟨utf8 "! Title: Ads\n# x\n\n ||a^ \r\n@@||b^".toList, none⟩ =
        (res, utf8 "||a^\n@@||b^\n".toList, none) ∧
      ∃ title, Parser.parse (fun _ => none) ⟨utf8 "||a^\n@@||b^\n".toList, none⟩ =
        ({ res with title := title }, utf8 "||a^\n@@||b^\n".toList, none) := by
  obtain ⟨⟨res, out, r⟩, hparse⟩ : ∃ r, Parser.parse (fun _ => none)
    ⟨utf8 "! Title: Ads\n# x\n\n ||a^ \r\n@@||b^".toList, none⟩ = r := ⟨_, rfl⟩
  obtain ⟨rfl, rfl⟩ : out = utf8 "||a^\n@@||b^\n".toList ∧ r = none := by
    have hrest := congrArg Prod.snd hparse
    rw [show (Parser.parse (fun _ => none) ⟨utf8 "! Title: Ads\n# x\n\n ||a^ \r\n@@||b^".toList, none⟩).2 =
      (utf8 "||a^\n@@||b^\n".toList, none) by decide +kernel] at hrest
    cases hrest
    exact ⟨rfl, rfl⟩
  exact ⟨res, hparse, (parse_fixed hparse).2.1 _ fun _ _ => rfl⟩

end AdGuardHome.Rulelist
