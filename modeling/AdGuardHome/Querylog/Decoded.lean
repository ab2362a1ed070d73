import AdGuardHome.Querylog.DecodeResult
import AdGuardHome.Querylog.SearchCriterion

/-!
# The entry of a line

A search decodes a line to its entry, if the decoder does not panic on it.  It looks at nothing in the entry but what is
skimmed of the line.
-/

namespace AdGuardHome.Querylog

open AdGuardHome.Aghnet AdGuardHome.Filtering AdGuardHome.Lib AdGuardHome.Net

/-- The entry of a line, without the rewrite of its result, at which no search looks; `none` is a panic. -/
def decoded (env : DecodeEnv) (line : Bytes) : Option LogEntry :=
  (Decoding.decodeLogEntry env {} line).map (·.entry)

/-- The fields of the rules of the line can be set, so that it is decoded. -/
abbrev Decodes (line : Bytes) : Prop := Decoding.Fits 0 (Decoding.ruleEvents line)

theorem decoded_isSome {env : DecodeEnv} (henv : ∀ s, env.isValidIPString s = true → parseAddr s ≠ none)
    (line : Bytes) : (decoded env line).isSome = true ↔ Decodes line := by
  rw [decoded, Option.isSome_map]
  exact Decoding.decodeLogEntry_isSome henv {} line

theorem decoded_eq_none {env : DecodeEnv} (henv : ∀ s, env.isValidIPString s = true → parseAddr s ≠ none)
    (line : Bytes) : decoded env line = none ↔ ¬ Decodes line := by
  rw [← decoded_isSome henv, Option.not_isSome_iff_eq_none]

namespace Decoding

variable {env : DecodeEnv} {d : Decoder} {ent : DecodedEntry} {n i : ℕ} {s : Decoder × DecodedEntry}

/-- What is skimmed. -/
def skimmed (s : Decoder × DecodedEntry) : Decoder × LogEntry := (s.1, s.2.entry.plain)

/-- A decoding that goes over a part of the line, and sets nothing that is skimmed. -/
def GoesOver (full : Option (Decoder × DecodedEntry)) (d : Decoder) (ent : DecodedEntry) : Prop :=
  ∀ s ∈ full, skimmed s = (d, ent.entry.plain)

theorem goesOver_items {item : String → DecodedEntry → Option DecodedEntry}
    (hitem : ∀ v ent, ∀ ent' ∈ item v ent, ent'.entry.plain = ent.entry.plain) :
    GoesOver (decodeItems item n d ent) (decodeResultItems n d) ent := by
  induction n generalizing d ent with
  | zero => exact fun s hs => by cases hs
  | succ n ih =>
    intro s hs
    unfold decodeItems at hs
    unfold decodeResultItems
    cases htoken : d.token with
    | none =>
      rw [htoken] at hs
      cases hs
      rfl
    | some p =>
      obtain ⟨t, d'⟩ := p
      rw [htoken] at hs
      cases t with
      | delim c =>
        dsimp only at hs ⊢
        split at hs
        · rename_i hopen
          rw [if_pos hopen]
          exact ih s hs
        · rename_i hopen
          rw [if_neg hopen]
          cases hs
          rfl
      | str v =>
        obtain ⟨ent', hent', hrest⟩ := Option.bind_eq_some_iff.1 hs
        rw [← hitem v ent ent' hent']
        exact ih s hrest
      | _ => exact ih s hs

theorem plain_setPTRRewriteResult (v : String) (ent : DecodedEntry) :
    (setPTRRewriteResult env v ent).entry = ent.entry := by
  unfold setPTRRewriteResult
  dsimp only
  split
  · rfl
  · split <;> rfl

theorem plain_translateResult (ent : DecodedEntry) : (translateResult ent).entry.plain = ent.entry.plain := by
  unfold translateResult
  split <;> rfl

theorem goesOver_reverseHosts :
    GoesOver (decodeResultReverseHosts env d ent) (decodeResultItems (d.rest.length + 1) d) ent := by
  refine goesOver_items fun v ent ent' hent' => ?_
  cases hent'
  rw [plain_setPTRRewriteResult]

theorem goesOver_ipList : GoesOver (decodeResultIPList env d ent) (decodeResultItems (d.rest.length + 1) d) ent := by
  refine goesOver_items fun v ent ent' hent' => ?_
  obtain ⟨ipList, -, rfl⟩ := Option.map_eq_some_iff.1 hent'
  rfl

theorem goesOver_rewrite :
    GoesOver (decodeResultDNSRewriteResult env (d.rest.length + 1) d ent)
      (Querylog.decodeResultDNSRewriteResult (d.rest.length + 1) d) ent := by
  intro s hs
  obtain ⟨rewrite, heq⟩ := @decodeResultDNSRewriteResult_eq env d ent _ (Nat.lt_succ_self _)
  rw [heq] at hs
  cases hs
  rfl

theorem plain_setRule {ent ent' : DecodedEntry} {set : ResultRule → ResultRule} (h : setRule ent i set = some ent') :
    ent'.entry.plain = ent.entry.plain := by
  unfold setRule at h
  split at h
  · cases h
    rfl
  · cases h

/-- A field of a rule. -/
theorem skimmed_ruleKey {key : String} (hs : s ∈ decodeResultRuleKey key i d ent) :
    s.2.entry.plain = ent.entry.plain ∧
      s.1 = if key = "FilterListID" ∨ key = "IP" ∨ key = "Text" then (d.token.map Prod.snd).getD d else d := by
  cases hkey : ruleField key with
  | none =>
    have hno : ¬ (key = "FilterListID" ∨ key = "IP" ∨ key = "Text") := by
      rw [← ruleField_isSome, hkey]
      simp
    rw [decodeResultRuleKey_skips (.inl hkey)] at hs
    cases hs
    exact ⟨rfl, by rw [if_neg hno]⟩
  | some field =>
    rw [if_pos (ruleField_isSome.1 (by rw [hkey]; rfl))]
    cases htoken : d.token with
    | none =>
      rw [decodeResultRuleKey_skips (.inr htoken)] at hs
      cases hs
      exact ⟨rfl, rfl⟩
    | some p =>
      unfold decodeResultRuleKey decodeVTokenAndAddRule at hs
      rw [hkey, htoken] at hs
      dsimp only [Option.bind_some] at hs
      cases hfield : field p.1 with
      | none =>
        rw [hfield] at hs
        cases hs
        exact ⟨rfl, rfl⟩
      | some set =>
        rw [hfield] at hs
        obtain ⟨ent', hent', rfl⟩ := Option.map_eq_some_iff.1 hs
        exact ⟨(plain_setRule hent').trans rfl, rfl⟩

theorem goesOver_ruleToken : GoesOver (decodeResultRuleToken n i d ent) (Querylog.decodeResultRuleToken n d) ent := by
  induction n generalizing d ent i with
  | zero => exact fun s hs => by cases hs
  | succ n ih =>
    intro s hs
    unfold decodeResultRuleToken at hs
    unfold Querylog.decodeResultRuleToken
    cases htoken : d.token with
    | none =>
      rw [htoken] at hs
      cases hs
      rfl
    | some p =>
      obtain ⟨t, d₁⟩ := p
      rw [htoken] at hs
      cases t with
      | delim c =>
        dsimp only at hs ⊢
        split at hs
        · rename_i hend
          rw [if_pos hend]
          cases hs
          rfl
        · rename_i hend
          rw [if_neg hend]
          split at hs <;> exact ih s hs
      | str key =>
        obtain ⟨⟨d₂, ent'⟩, hkey, hrest⟩ := Option.bind_eq_some_iff.1 hs
        obtain ⟨hplain, hplace⟩ := skimmed_ruleKey hkey
        have hskim := ih s hrest
        dsimp only at hplain hplace hskim ⊢
        rw [hplain, hplace] at hskim
        rw [hskim]
        split
        · cases d₁.token <;> rfl
        · rfl
      | _ =>
        cases hs
        rfl

theorem goesOver_rules : GoesOver (decodeResultRules d ent) (Querylog.decodeResultRules d) ent := by
  intro s hs
  unfold decodeResultRules at hs
  unfold Querylog.decodeResultRules
  cases htoken : d.token with
  | none =>
    rw [htoken] at hs
    cases hs
    rfl
  | some p =>
    obtain ⟨t, d₁⟩ := p
    rw [htoken] at hs
    cases t with
    | delim c => exact goesOver_ruleToken s hs
    | _ =>
      cases hs
      rfl

/-- The values with handlers of their own are gone over. -/
theorem goesOver_resultDecHandler {key : String} :
    (resultDecHandler env key d ent = none ∧ Querylog.resultDecHandler key d = none) ∨
      ∃ full d', resultDecHandler env key d ent = some full ∧ Querylog.resultDecHandler key d = some d' ∧
        GoesOver full d' ent := by
  unfold resultDecHandler Querylog.resultDecHandler
  by_cases hhosts : key = "ReverseHosts"
  · rw [if_pos hhosts, if_pos (.inl hhosts)]
    exact .inr ⟨_, _, rfl, rfl, goesOver_reverseHosts⟩
  by_cases hlist : key = "IPList"
  · rw [if_neg hhosts, if_pos hlist, if_pos (.inr hlist)]
    exact .inr ⟨_, _, rfl, rfl, goesOver_ipList⟩
  rw [if_neg hhosts, if_neg hlist, if_neg (not_or.2 ⟨hhosts, hlist⟩)]
  by_cases hrules : key = "Rules"
  · rw [if_pos hrules, if_pos hrules]
    exact .inr ⟨_, _, rfl, rfl, goesOver_rules⟩
  rw [if_neg hrules, if_neg hrules]
  by_cases hrewrite : key = "DNSRewriteResult"
  · rw [if_pos hrewrite, if_pos hrewrite]
    exact .inr ⟨_, _, rfl, rfl, goesOver_rewrite⟩
  · rw [if_neg hrewrite, if_neg hrewrite]
    exact .inl ⟨rfl, rfl⟩

/-- The value of a key with a plain handler. -/
theorem skimmed_decodeValue {handlers : String → Option LogEntryHandler} {key : String}
    (h : ∀ handler, handlers key = some handler → Plain handler) :
    Querylog.decodeValue handlers key d ent.entry.plain =
      ((decodeValue handlers key d ent).1, skimmed (decodeValue handlers key d ent).2) := by
  unfold decodeValue Querylog.decodeValue
  cases hhandler : handlers key with
  | none => rfl
  | some handler =>
    dsimp only
    cases d.token with
    | none => rfl
    | some p =>
      obtain ⟨hflag, hsets⟩ := h handler hhandler p.1
      exact Prod.ext (hflag _ _) (Prod.ext rfl (hsets ent.entry).2.symm)

/-- A rule or a filter ID of the format without the array. -/
theorem skimmed_decodeValue_rule {key : String} (hrule : key = "Rule" ∨ key = "FilterID") :
    Querylog.decodeValue Querylog.resultHandlers key d ent.entry.plain =
      ((decodeValue resultHandlers key d ent).1, skimmed (decodeValue resultHandlers key d ent).2) := by
  unfold decodeValue Querylog.decodeValue
  rcases hrule with rfl | rfl
  · rw [show resultHandlers "Rule" = some (stringHandler fun s e => (setLastRule e fun r => { r with text := s }, true))
      from rfl, show Querylog.resultHandlers "Rule" = some (stringHandler fun _ e => (e, true)) from rfl]
    cases d.token with
    | none => rfl
    | some p =>
      obtain ⟨t, d₁⟩ := p
      cases t <;> rfl
  · rw [show resultHandlers "FilterID" =
        some (int64Handler fun id e => setLastRule e fun r => { r with filterListID := id }) from rfl,
      show Querylog.resultHandlers "FilterID" = some (int64Handler fun _ e => e) from rfl]
    cases d.token with
    | none => rfl
    | some p =>
      obtain ⟨t, d₁⟩ := p
      cases t with
      | number n =>
        simp only [int64Handler_number]
        cases parseInt64 n <;> rfl
      | _ => rfl

theorem skimmed_resultKeyValue {p : Bool × Decoder × DecodedEntry} (hp : p ∈ decodeResultKeyValue env s) :
    Querylog.decodeResultKeyValue (skimmed s) = (p.1, skimmed p.2) := by
  obtain ⟨d, ent⟩ := s
  unfold decodeResultKeyValue at hp
  unfold Querylog.decodeResultKeyValue skimmed
  dsimp only at hp ⊢
  rcases hkey : parseKeyToken d with ⟨key, d'⟩
  rw [hkey] at hp
  cases key with
  | none =>
    cases hp
    rfl
  | some key =>
    dsimp only at hp ⊢
    by_cases hempty : key = ""
    · rw [if_pos hempty] at hp ⊢
      cases hp
      rfl
    rw [if_neg hempty] at hp ⊢
    obtain ⟨hnone, hnone'⟩ | ⟨full, d'', hsome, hsome', hover⟩ := @goesOver_resultDecHandler env d' ent key
    · rw [hnone] at hp
      rw [hnone']
      cases hp
      by_cases hrule : key = "Rule" ∨ key = "FilterID"
      · exact skimmed_decodeValue_rule hrule
      · obtain ⟨hno, hno'⟩ := not_or.1 hrule
        have hhandlers : resultHandlers key = Querylog.resultHandlers key := by
          unfold resultHandlers
          rw [if_neg hno, if_neg hno']
        have hsame (e : LogEntry) : Querylog.decodeValue Querylog.resultHandlers key d' e =
            Querylog.decodeValue resultHandlers key d' e := by
          unfold Querylog.decodeValue
          rw [hhandlers]
        rw [hsame]
        exact skimmed_decodeValue fun handler h => plain_resultHandlers (hhandlers ▸ h)
    · rw [hsome] at hp
      rw [hsome']
      obtain ⟨s', hs', rfl⟩ := Option.map_eq_some_iff.1 hp
      have hskim := hover s' hs'
      unfold skimmed at hskim
      rw [← (Prod.mk.inj hskim).1, ← (Prod.mk.inj hskim).2]

/-- What a loop skims, if its rounds skim it. -/
theorem skimmed_repeatWhile {body : Decoder × DecodedEntry → Option (Bool × Decoder × DecodedEntry)}
    {body' : Decoder × LogEntry → Bool × Decoder × LogEntry}
    (hbody : ∀ s, ∀ p ∈ body s, body' (skimmed s) = (p.1, skimmed p.2)) {s' : Decoder × DecodedEntry}
    (h : repeatWhile body n s = some s') : Querylog.repeatWhile body' n (skimmed s) = skimmed s' := by
  induction n generalizing s with
  | zero => cases h
  | succ n ih =>
    unfold repeatWhile at h
    obtain ⟨⟨flag, s₁⟩, hround, h⟩ := Option.bind_eq_some_iff.1 h
    unfold Querylog.repeatWhile
    rw [hbody s _ hround]
    cases flag with
    | false =>
      cases h
      rfl
    | true => exact ih h

theorem skimmed_logEntryKeyValue {p : Bool × Decoder × DecodedEntry} (hp : p ∈ decodeLogEntryKeyValue env s) :
    Querylog.decodeLogEntryKeyValue (skimmed s) = (p.1, skimmed p.2) := by
  obtain ⟨d, ent⟩ := s
  unfold decodeLogEntryKeyValue at hp
  unfold Querylog.decodeLogEntryKeyValue skimmed
  dsimp only at hp ⊢
  cases htoken : d.token with
  | none =>
    rw [htoken] at hp
    cases hp
    rfl
  | some q =>
    obtain ⟨t, d'⟩ := q
    rw [htoken] at hp
    cases t with
    | str key =>
      dsimp only at hp ⊢
      by_cases hkey : key = "Result"
      · rw [if_pos hkey] at hp ⊢
        obtain ⟨s', hs', rfl⟩ := Option.map_eq_some_iff.1 hp
        obtain ⟨s₁, hloop, rfl⟩ := Option.map_eq_some_iff.1 hs'
        have hskim := skimmed_repeatWhile (fun s p hp => skimmed_resultKeyValue hp) hloop
        unfold skimmed at hskim
        rw [Querylog.decodeResult, hskim]
        exact congrArg (Prod.mk true) (Prod.ext rfl (plain_translateResult _).symm)
      · rw [if_neg hkey] at hp ⊢
        cases hp
        exact skimmed_decodeValue fun handler h => plain_logEntryHandlers h
    | _ =>
      cases hp
      rfl

end Decoding

/-- The entry of a line is what is skimmed of it, but for the rules and the addresses of its result. -/
theorem plain_decoded {env : DecodeEnv} {line : Bytes} {e : LogEntry} (h : decoded env line = some e) :
    e.plain = skimLogEntry {} line := by
  obtain ⟨ent, hent, rfl⟩ := Option.map_eq_some_iff.1 h
  obtain ⟨s, hloop, rfl⟩ := Option.map_eq_some_iff.1 hent
  exact (congrArg Prod.snd
    (Decoding.skimmed_repeatWhile (fun s p hp => Decoding.skimmed_logEntryKeyValue hp) hloop)).symm

end AdGuardHome.Querylog
