import AdGuardHome.Lib.Lower
import AdGuardHome.Querylog.Decoded
import AdGuardHome.Querylog.QuickMatch
import Mathlib.Data.List.Infix

/-!
# Records that the quick match hides

The quick match of a line accepts whatever the match of its entry accepts, just if the values it reads from the text of
the line are those of the entry.
-/

namespace AdGuardHome.Querylog

open AdGuardHome.Aghnet AdGuardHome.Lib AdGuardHome.Lib.Json

/-! ## Texts as they are written -/

/-- No character of the text is escaped. -/
def Unescaped (s : String) : Prop := ∀ c ∈ s.toList, escaped c = false

instance (s : String) : Decidable (Unescaped s) := List.decidableBAll _ s.toList

/-- The characters that are escaped have no other case. -/
def FoldsEscaped (f : TextFold) : Prop := ∀ c d, escaped c = true → f.fold d = f.fold c → d = c

theorem rawString_of_unescaped {s : String} (h : Unescaped s) : rawString s = s.toList := by
  have hquote : ∀ c ∈ s.toList, decide (c ≠ quote) = true := by
    intro c hc
    refine decide_eq_true ?_
    rintro rfl
    exact absurd (h quote hc) (by decide)
  rw [rawString, escape, flatMap_word h, List.takeWhile_eq_self_iff.2 hquote]

/-- A character of the text of a character is not escaped, or a quotation mark, or a backslash. -/
theorem mem_escapeChar {c d : Char} (h : d ∈ escapeChar c) : escaped d = false ∨ d = quote ∨ d = backslash := by
  have hhex : ∀ m, escaped (hexChar (m % 16)) = false := by
    intro m
    have hlt := Nat.mod_lt m (show 16 > 0 by decide)
    revert hlt
    generalize m % 16 = n
    revert n
    decide
  unfold escapeChar at h
  split at h
  · rename_i e he
    obtain rfl | rfl : d = backslash ∨ d = e := by simpa using h
    · exact .inr (.inr rfl)
    · unfold shortEscape at he
      split_ifs at he with hsame
      · obtain rfl := Option.some.inj he
        exact .inr hsame
      all_goals
        obtain rfl := Option.some.inj he
        exact .inl (by decide)
  · split at h
    · simp only [hex4, List.mem_cons, List.not_mem_nil, or_false] at h
      obtain rfl | rfl | rfl | rfl | rfl | rfl := h
      · exact .inr (.inr rfl)
      · exact .inl (by decide)
      all_goals exact .inl (hhex _)
    · rename_i hesc
      rw [List.mem_singleton] at h
      subst h
      exact .inl (by simpa using hesc)

theorem mem_rawString {s : String} {d : Char} (h : d ∈ rawString s) : escaped d = false ∨ d = backslash := by
  obtain ⟨c, -, hd⟩ := List.mem_flatMap.1 ((List.takeWhile_prefix _).subset h)
  obtain hd | rfl | hd := mem_escapeChar hd
  · exact .inl hd
  · exact absurd h (not_mem_rawString s)
  · exact .inr hd

theorem not_digit_of_escaped {c : Char} (h : escaped c = true) :
    (Net.hexDigit? c).isSome = false ∧ c.isDigit = false ∧ c ≠ ':' ∧ c ≠ '.' := by
  simp only [escaped, Bool.or_eq_true, decide_eq_true_eq, beq_iff_eq] at h
  rcases h with ((((((h | rfl) | rfl) | rfl) | rfl) | rfl) | rfl) | rfl
  · have hlt : ∀ d : Char, 32 ≤ d.toNat → ¬ d ≤ c := by
      intro d hd hle
      have hle : d.val.toNat ≤ c.val.toNat := UInt32.le_iff_toNat_le.1 hle
      exact absurd (Nat.lt_of_lt_of_le h hd) (Nat.not_lt.2 hle)
    refine ⟨?_, ?_, ?_, ?_⟩
    · simp [Net.hexDigit?, hlt '0' (by decide), hlt 'a' (by decide), hlt 'A' (by decide)]
    · have h0 : ¬ '0'.val ≤ c.val := hlt '0' (by decide)
      simp only [Char.isDigit, Bool.and_eq_false_iff, decide_eq_false_iff_not]
      exact .inl h0
    all_goals
      rintro rfl
      exact absurd h (by decide)
  all_goals decide

theorem unescaped_string {ip : IP} (h : ip ≠ []) : Unescaped ip.string := by
  intro c hc
  rw [← Bool.not_eq_true]
  intro hesc
  obtain ⟨hhex, hdigit, hcolon, hdot⟩ := not_digit_of_escaped hesc
  exact not_mem_string hhex hdigit hcolon hdot h hc

theorem eq_of_rawString_nil {s : String} (h : rawString s = []) : s = "" := by
  rw [← String.toList_eq_nil_iff]
  cases hs : s.toList with
  | nil => rfl
  | cons c cs =>
    rw [rawString, escape, hs, List.flatMap_cons] at h
    obtain ⟨hc, hne⟩ | ⟨ds, hc, -⟩ := escapeChar_cases c
    · simp [hc, hne] at h
    · simp [hc, show ¬ backslash = quote by decide] at h

theorem length_le_escape (cs : List Char) : cs.length ≤ (cs.flatMap escapeChar).length := by
  induction cs with
  | nil => exact Nat.le_refl _
  | cons c cs ih =>
    have hpos : 1 ≤ (escapeChar c).length := by
      obtain ⟨hc, -⟩ | ⟨ds, hc, -⟩ := escapeChar_cases c <;> simp [hc]
    rw [List.flatMap_cons, List.length_append, List.length_cons]
    omega

theorem length_lt_escape {cs : List Char} (h : backslash ∈ cs) : cs.length < (cs.flatMap escapeChar).length := by
  obtain ⟨as, bs, rfl⟩ := List.append_of_mem h
  have has := length_le_escape as
  have hbs := length_le_escape bs
  have hc : (escapeChar backslash).length = 2 := rfl
  rw [List.flatMap_append, List.flatMap_cons, List.length_append, List.length_append, List.length_append,
    List.length_cons, hc]
  omega

theorem fold_mem {f : TextFold} {s t : String} (h : f.equalFold s t = true) {c : Char} (hc : c ∈ t.toList) :
    ∃ d ∈ s.toList, f.fold d = f.fold c := by
  have hmap : s.toList.map f.fold = t.toList.map f.fold := beq_iff_eq.1 h
  exact List.mem_map.1 (hmap ▸ List.mem_map_of_mem hc)

/-- A text with escaped characters is equal to none without them. -/
theorem equalFold_of_unescaped {f : TextFold} (hf : FoldsEscaped f) {s t : String} (hs : ¬ Unescaped s)
    (ht : Unescaped t) : f.equalFold t s = false := by
  rw [← Bool.not_eq_true]
  intro h
  refine hs fun c hc => ?_
  rw [← Bool.not_eq_true]
  intro hesc
  obtain ⟨d, hd, hfold⟩ := fold_mem h hc
  obtain rfl := hf c d hesc hfold
  rw [ht d hd] at hesc
  cases hesc

/-- A text with escaped characters is not equal to what is written for it. -/
theorem equalFold_rawString {f : TextFold} (hf : FoldsEscaped f) {s : String} (hs : ¬ Unescaped s) :
    f.equalFold (String.ofList (rawString s)) s = false := by
  rw [← Bool.not_eq_true]
  intro h
  have hmem : ∀ c ∈ s.toList, escaped c = true → c = backslash := by
    intro c hc hesc
    obtain ⟨d, hd, hfold⟩ := fold_mem h hc
    obtain rfl := hf c d hesc hfold
    rw [String.toList_ofList] at hd
    exact (mem_rawString hd).resolve_left (by simp [hesc])
  have hquote : ∀ c ∈ escape s, decide (c ≠ quote) = true := by
    intro c hc
    refine decide_eq_true ?_
    rintro rfl
    obtain ⟨d, hd, hc⟩ := List.mem_flatMap.1 hc
    obtain ⟨hd', hne⟩ | ⟨ds, hd', hds⟩ := escapeChar_cases d
    · rw [hd', List.mem_singleton] at hc
      exact hne hc.symm
    · rw [hd', List.mem_cons] at hc
      obtain hc | hc := hc
      · exact absurd hc (by decide)
      · obtain hds | ⟨rfl, -⟩ := hds
        · exact hds hc
        · exact absurd (hmem quote hd (by decide)) (by decide)
  have hraw : rawString s = escape s := List.takeWhile_eq_self_iff.2 hquote
  have hlen := congrArg List.length (beq_iff_eq.1 h)
  rw [List.length_map, List.length_map, String.toList_ofList, hraw] at hlen
  have hback : backslash ∈ s.toList := by
    simp only [Unescaped, not_forall, Bool.not_eq_false] at hs
    obtain ⟨c, hc, hesc⟩ := hs
    exact hmem c hc hesc ▸ hc
  exact absurd hlen (length_lt_escape hback).ne'

/-! ## The values in a line -/

/-- The text that is read as the ClientID. -/
def readClientID (e : LogEntry) : String :=
  if e.clientID = "" then (((svcbParams e.result).find? fun p => EndsIn keyCID p.1).map Prod.snd).getD ""
  else e.clientID

section line

variable {e : LogEntry} {offset : ℤ} {cs : List Char} (h : e.encode offset = some cs)

include h

theorem encode_cases : ∃ time ip, formatRFC3339Nano offset e.time = some time ∧ marshalIP e.ip = some ip ∧
    cs = render (.obj (e.fields (String.ofList time) ip)) := by
  unfold LogEntry.encode at h
  split at h
  · rename_i time ip htime hip
    exact ⟨time, ip, htime, hip, (Option.some.inj h).symm⟩
  · cases h

/-- The first field of a line whose key is the word. -/
theorem exists_shows : ∃ time ip, marshalIP e.ip = some ip ∧ ∀ {key ext}, Word key → ext = [] ∨ ext = [quote] →
    Shows key ext cs [] (lookup key ext (.obj (e.fields time ip))) := by
  obtain ⟨time, ip, -, hip, rfl⟩ := encode_cases h
  exact ⟨_, ip, hip, fun hkey hext => shows_render hkey hext _ (by simp [Closing])⟩

theorem rawValue_host : rawValue (utf8 cs) "\x22QH\x22:\x22" = String.ofList (rawString e.qHost) := by
  obtain ⟨time, ip, -, hshows⟩ := exists_shows h
  have hhost := @hshows keyQH [quote] (by decide) (.inr rfl)
  rw [lookup_QH] at hhost
  have hread := readJSONValue_str (by decide) hhost
  rw [rawValue, ofBytes, show "\x22QH\x22:\x22".toList = keyText keyQH [quote] from rfl, hread, runes_utf8]

theorem rawValue_ip : rawValue (utf8 cs) "\x22IP\x22:\x22" = if e.ip = [] then "" else e.ip.string := by
  obtain ⟨time, ip, hip, hshows⟩ := exists_shows h
  have htext := @hshows keyIP [quote] (by decide) (.inr rfl)
  rw [lookup_IP] at htext
  have hread := readJSONValue_str (by decide) htext
  rw [rawValue, ofBytes, show "\x22IP\x22:\x22".toList = keyText keyIP [quote] from rfl, hread, runes_utf8]
  unfold marshalIP at hip
  split at hip
  · rename_i hnil
    rw [if_pos hnil, ← Option.some.inj hip]
    rfl
  · rename_i hne
    split at hip
    · rw [if_neg hne, ← Option.some.inj hip, rawString_of_unescaped (unescaped_string hne), String.ofList_toList]
    · cases hip

theorem rawValue_clientID : rawValue (utf8 cs) "\x22CID\x22:\x22" = String.ofList (rawString (readClientID e)) := by
  obtain ⟨time, ip, -, hshows⟩ := exists_shows h
  have hid := @hshows keyCID [quote] (by decide) (.inr rfl)
  rw [lookup_CID] at hid
  rw [rawValue, ofBytes, show "\x22CID\x22:\x22".toList = keyText keyCID [quote] from rfl, readClientID]
  split at hid
  · rename_i hempty
    rw [if_pos hempty]
    rw [firstParam] at hid
    cases hfind : (svcbParams e.result).find? fun p => EndsIn keyCID p.1 with
    | none =>
      rw [hfind] at hid
      rw [readJSONValue_none (by decide) hid]
      rfl
    | some p =>
      rw [hfind] at hid
      rw [readJSONValue_str (by decide) hid, runes_utf8]
      rfl
  · rename_i hne
    rw [if_neg hne, readJSONValue_str (by decide) hid, runes_utf8]

theorem rawReason_eq : rawReason (utf8 cs) =
    if e.result.reason = 0 ∨ ∃ p ∈ svcbParams e.result, EndsIn keyReason p.1 then ""
    else String.ofList (Nat.toDigits 10 e.result.reason.toNat) := by
  obtain ⟨time, ip, -, hshows⟩ := exists_shows h
  have hreason := @hshows keyReason [] (by decide) (.inl rfl)
  rw [lookup_Reason, firstParam] at hreason
  rw [rawReason, ofBytes, show "\x22Reason\x22:".toList = keyText keyReason [] from rfl]
  cases hfind : (svcbParams e.result).find? fun p => EndsIn keyReason p.1 with
  | none =>
    rw [hfind] at hreason
    have hno : ¬ ∃ p ∈ svcbParams e.result, EndsIn keyReason p.1 := by
      rintro ⟨p, hp, hend⟩
      simpa [hend] using List.find?_eq_none.1 hfind p hp
    by_cases h0 : e.result.reason = 0
    · rw [if_pos h0] at hreason
      rw [if_pos (.inl h0), readJSONNumericValue_none (by decide) hreason]
      rfl
    · rw [if_neg h0] at hreason
      rw [if_neg (not_or.2 ⟨h0, hno⟩), readJSONNumericValue_num (by decide) hreason, runes_utf8]
  | some p =>
    rw [hfind] at hreason
    have hend : ∃ p ∈ svcbParams e.result, EndsIn keyReason p.1 :=
      ⟨p, List.mem_of_find?_eq_some hfind, by simpa using List.find?_some hfind⟩
    rw [if_pos (.inr hend), readJSONNumericValue_str (by decide) hreason]
    rfl

/-- The values of the entry of the line that are compared. -/
theorem matches_decoded {env : DecodeEnv} {r : LogEntry} (hr : decoded env (utf8 cs) = some r) (f : TextFold)
    (find : ClientFinder) (c : SearchCriterion) : c.matches f (r.withClient find) =
      match c.criterionType with
      | .ctTerm =>
        ctDomainOrClientCase f c e.clientID (clientName (client find e.clientID e.ip.string)) e.qHost e.ip.string
      | .ctFilteringStatus => ctFilteringStatusCase c.value e.result.reason e.result.isFiltered
      | .ctReason => c.values.contains (reasonString e.result.reason) := by
  have hip : (e.readBack).ip.string = e.ip.string := by
    obtain ⟨-, ip, -, hip, -⟩ := encode_cases h
    unfold LogEntry.readBack
    unfold marshalIP at hip
    split_ifs at hip with hnil hlen
    · simp only [hnil, if_true]
    · simp only [hnil, if_false]
      exact string_parseIP hlen
  have hplain : c.matches f (r.withClient find) = c.matches f (r.plain.withClient find) := rfl
  rw [hplain, plain_decoded hr, skimLogEntry_encode h, SearchCriterion.matches, LogEntry.withClient]
  simp only [hip]
  rfl

end line

/-! ## The reasons -/

theorem reasonString_of_le {r : UInt8} (h : 12 ≤ r.toNat) : reasonString r = "" := by
  rw [reasonString, List.getD_eq_getElem?_getD, List.getElem?_eq_none h]
  rfl

theorem reasonString_ne {n : ℕ} (h : n < 12) : reasonString (UInt8.ofNat n) ≠ "" := by
  revert n
  decide

theorem eq_zero_of_reasonString {r : UInt8} (h : reasonString 0 = reasonString r) : r = 0 := by
  have hnames : ∀ n < 12, reasonString 0 = reasonString (UInt8.ofNat n) → UInt8.ofNat n = 0 := by decide
  by_cases hlt : r.toNat < 12
  · have hr := hnames r.toNat hlt
    rw [UInt8.ofNat_toNat] at hr
    exact hr h
  · rw [reasonString_of_le (r := r) (by omega)] at h
    exact absurd h (by decide)

/-! ## The lines that are never hidden -/

/-- The quick match accepts the line if it is decoded to an entry that all criteria accept, for every lookup of
clients. -/
def NeverHidden (env : DecodeEnv) (f : TextFold) (line : Bytes) : Prop :=
  ∀ (find : ClientFinder) (criteria : List SearchCriterion),
    (∃ r ∈ decoded env line, ∀ c ∈ criteria, c.matches f (r.withClient find) = true) →
      ∀ c ∈ criteria, c.quickMatch f find line = true

/-- The values in the line of the entry are those of the entry. -/
structure ReadAlike (e : LogEntry) : Prop where
  host : Unescaped e.qHost
  clientID : Unescaped e.clientID
  /-- Without a ClientID, no parameter of a service binding with a text is read as it. -/
  noClientID : e.clientID = "" → ∀ p ∈ (svcbParams e.result).find? fun p => EndsIn keyCID p.1, p.2 = ""
  ip : e.ip ≠ []
  reason : e.result.reason < 12
  /-- No parameter of a service binding is read as the reason in place of it. -/
  noReason : e.result.reason ≠ 0 → ∀ p ∈ svcbParams e.result, ¬ EndsIn keyReason p.1

section hidden

variable {env : DecodeEnv} {f : TextFold} {e r : LogEntry} {offset : ℤ} {cs : List Char}
  (h : e.encode offset = some cs) (hr : decoded env (utf8 cs) = some r)

theorem equalFold_of_length {s t : String} (h : s.toList.length ≠ t.toList.length) : f.equalFold s t = false := by
  rw [TextFold.equalFold, beq_eq_false_iff_ne]
  intro heq
  have := congrArg List.length heq
  rw [List.length_map, List.length_map] at this
  exact h this

theorem equalFold_self (s : String) : f.equalFold s s = true := beq_self_eq_true _

include h

include hr in
/-- A lookup that knows the client of the entry only hides the line, if it is asked for another one. -/
theorem hidden_of_ids (hids : clientIDs e.clientID e.ip.string ≠
    clientIDs (rawValue (utf8 cs) "\x22CID\x22:\x22") (rawValue (utf8 cs) "\x22IP\x22:\x22")) :
    ¬ NeverHidden env f (utf8 cs) := by
  intro hnever
  obtain ⟨n, hhost, hid, hip, hpos⟩ : ∃ n, (rawValue (utf8 cs) "\x22QH\x22:\x22").toList.length < n ∧
      (rawValue (utf8 cs) "\x22CID\x22:\x22").toList.length < n ∧
        (rawValue (utf8 cs) "\x22IP\x22:\x22").toList.length < n ∧ 0 < n := by
    refine ⟨(rawValue (utf8 cs) "\x22QH\x22:\x22").toList.length + (rawValue (utf8 cs) "\x22CID\x22:\x22").toList.length
      + (rawValue (utf8 cs) "\x22IP\x22:\x22").toList.length + 1, ?_, ?_, ?_, ?_⟩ <;> omega
  let name := String.ofList (List.replicate n 'a')
  have hname : name.toList.length = n := by simp [name]
  let find : ClientFinder := fun ids =>
    .ok (if ids = clientIDs e.clientID e.ip.string then some ⟨name, false⟩ else none)
  have hquick := hnever find [{ value := name, criterionType := .ctTerm, strict := true }] ⟨r, hr, fun c hc => by
    rw [List.mem_singleton.1 hc, matches_decoded h hr]
    have hfind : clientName (client find e.clientID e.ip.string) = name := by
      simp [client, find, clientName]
    simp [ctDomainOrClientCase, ctDomainOrClientCaseStrict, hfind, equalFold_self]⟩ _ List.mem_cons_self
  have hnone : client find (rawValue (utf8 cs) "\x22CID\x22:\x22") (rawValue (utf8 cs) "\x22IP\x22:\x22") = none := by
    simp [client, find, hids.symm]
  have hhost : f.equalFold (rawValue (utf8 cs) "\x22QH\x22:\x22") name = false := equalFold_of_length (by omega)
  have hid : f.equalFold (rawValue (utf8 cs) "\x22CID\x22:\x22") name = false := equalFold_of_length (by omega)
  have hip : f.equalFold (rawValue (utf8 cs) "\x22IP\x22:\x22") name = false := equalFold_of_length (by omega)
  have hempty : f.equalFold (clientName none) name = false := equalFold_of_length (by rw [hname]; exact hpos.ne)
  simp [SearchCriterion.quickMatch, hnone, ctDomainOrClientCase, ctDomainOrClientCaseStrict, hhost, hid, hip,
    hempty] at hquick

theorem readClientID_ne (hf : FoldsEscaped f)
    (hid : ¬ (Unescaped e.clientID ∧
      (e.clientID = "" → ∀ p ∈ (svcbParams e.result).find? fun p => EndsIn keyCID p.1, p.2 = ""))) :
    rawValue (utf8 cs) "\x22CID\x22:\x22" ≠ e.clientID := by
  rw [rawValue_clientID h]
  intro heq
  refine hid ⟨?_, ?_⟩
  · by_contra hesc
    have hne : e.clientID ≠ "" := by
      intro hempty
      refine hesc ?_
      rw [hempty]
      decide
    rw [readClientID, if_neg hne] at heq
    have hfold := equalFold_rawString hf hesc
    rw [heq, equalFold_self] at hfold
    cases hfold
  · intro hempty p hp
    rw [readClientID, if_pos hempty, Option.mem_def.1 hp, hempty] at heq
    exact eq_of_rawString_nil (String.ofList_injective heq)

theorem rawValue_clientID_eq (hid : Unescaped e.clientID ∧
    (e.clientID = "" → ∀ p ∈ (svcbParams e.result).find? fun p => EndsIn keyCID p.1, p.2 = "")) :
    rawValue (utf8 cs) "\x22CID\x22:\x22" = e.clientID := by
  have hread : readClientID e = e.clientID := by
    rw [readClientID]
    split
    · rename_i hempty
      rw [hempty]
      cases hfind : (svcbParams e.result).find? fun p => EndsIn keyCID p.1 with
      | none => rfl
      | some p => exact hid.2 hempty p hfind
    · rfl
  rw [rawValue_clientID h, hread, rawString_of_unescaped hid.1, String.ofList_toList]

include hr in
theorem hidden_of_clientID (hf : FoldsEscaped f) (hip : e.ip ≠ [])
    (hid : ¬ (Unescaped e.clientID ∧
      (e.clientID = "" → ∀ p ∈ (svcbParams e.result).find? fun p => EndsIn keyCID p.1, p.2 = ""))) :
    ¬ NeverHidden env f (utf8 cs) := by
  refine hidden_of_ids h hr fun hids => readClientID_ne h hf hid ?_
  rw [rawValue_ip h, if_neg hip, clientIDs, clientIDs] at hids
  have hids := List.append_cancel_right hids
  split_ifs at hids with h1 h2 h2
  · rw [h1, h2]
  · exact (List.cons.inj hids).1.symm

include hr in
theorem hidden_of_ip (hip : e.ip = []) : ¬ NeverHidden env f (utf8 cs) := by
  refine hidden_of_ids h hr fun hids => ?_
  rw [rawValue_ip h, if_pos hip, hip, clientIDs, clientIDs, if_pos rfl, List.append_nil,
    show IP.string [] = "<nil>" from rfl, if_neg (show ¬ ("<nil>" : String) = "" by decide)] at hids
  have hraw : rawValue (utf8 cs) "\x22CID\x22:\x22" = "<nil>" := by
    split_ifs at hids with h1 h2 h2
    · cases hids
    · exact (List.cons.inj hids).1.symm
    · exact absurd (congrArg List.length hids) (by simp)
    · exact absurd (congrArg List.length hids) (by simp)
  rw [rawValue_clientID h] at hraw
  have hmem : '<' ∈ rawString (readClientID e) := by
    rw [← String.toList_ofList (l := rawString (readClientID e)), hraw]
    decide
  obtain hesc | hesc := mem_rawString hmem
  · cases hesc
  · cases hesc

include hr in
theorem hidden_of_host (hf : FoldsEscaped f) (hip : e.ip ≠ []) (hid : Unescaped e.clientID)
    (hraw : rawValue (utf8 cs) "\x22CID\x22:\x22" = e.clientID) (hhost : ¬ Unescaped e.qHost) :
    ¬ NeverHidden env f (utf8 cs) := by
  intro hnever
  have hquick := hnever (fun _ => .ok none) [{ value := e.qHost, criterionType := .ctTerm, strict := true }]
    ⟨r, hr, fun c hc => by
      rw [List.mem_singleton.1 hc, matches_decoded h hr]
      simp [ctDomainOrClientCase, ctDomainOrClientCaseStrict, equalFold_self]⟩ _ List.mem_cons_self
  have hrawhost : f.equalFold (String.ofList (rawString e.qHost)) e.qHost = false := equalFold_rawString hf hhost
  have hid : f.equalFold e.clientID e.qHost = false := equalFold_of_unescaped hf hhost hid
  have hip' : f.equalFold e.ip.string e.qHost = false := equalFold_of_unescaped hf hhost (unescaped_string hip)
  have hempty : f.equalFold "" e.qHost = false := equalFold_of_unescaped hf hhost (by decide)
  simp [SearchCriterion.quickMatch, client, clientName, ctDomainOrClientCase, ctDomainOrClientCaseStrict,
    rawValue_host h, rawValue_ip h, hraw, hip, hrawhost, hid, hip', hempty] at hquick

include hr in
/-- The reason that the quick match reads is not that of the entry. -/
theorem hidden_of_reason (hreason : ¬ (e.result.reason < 12 ∧
    (e.result.reason ≠ 0 → ∀ p ∈ svcbParams e.result, ¬ EndsIn keyReason p.1))) : ¬ NeverHidden env f (utf8 cs) := by
  intro hnever
  have hquick := hnever (fun _ => .ok none) [{ values := [reasonString e.result.reason], criterionType := .ctReason }]
    ⟨r, hr, fun c hc => by
      rw [List.mem_singleton.1 hc, matches_decoded h hr]
      simp⟩ _ List.mem_cons_self
  rw [SearchCriterion.quickMatch] at hquick
  simp only [List.contains_cons, List.contains_nil, Bool.or_false] at hquick
  split at hquick
  · have h0 := eq_zero_of_reasonString (by simpa using hquick)
    exact hreason ⟨by rw [h0]; decide, fun hne => absurd h0 hne⟩
  · rename_i hraw
    rw [rawReason_eq h] at hraw hquick
    have hcode : ¬ (e.result.reason = 0 ∨ ∃ p ∈ svcbParams e.result, EndsIn keyReason p.1) := by
      intro hcode
      rw [if_pos hcode] at hraw
      exact hraw rfl
    have hlarge : ¬ e.result.reason < 12 := fun hlt =>
      hreason ⟨hlt, fun _ p hp hend => hcode (.inr ⟨p, hp, hend⟩)⟩
    split at hquick
    · cases hquick
    · rename_i idx hidx
      have hlt : idx < 12 := (List.idxOf?_eq_some_iff.1 hidx).1
      rw [reasonString_of_le (Nat.not_lt.1 fun hn => hlarge (UInt8.lt_iff_toNat_lt.2 hn))] at hquick
      exact absurd (by simpa using hquick) (reasonString_ne hlt)

end hidden

theorem idxOf?_code {r : UInt8} (hlt : r < 12) (hne : r ≠ 0) :
    String.ofList (Nat.toDigits 10 r.toNat) ≠ "" ∧
      reasonCodes.idxOf? (String.ofList (Nat.toDigits 10 r.toNat)) = some r.toNat := by
  have hn : r.toNat < 12 := UInt8.lt_iff_toNat_lt.1 hlt
  have hpos : r.toNat ≠ 0 := fun h0 => hne (UInt8.toNat_inj.1 h0)
  revert hn hpos
  generalize r.toNat = n
  revert n
  decide

/-- Comparison without regard to the case of ASCII letters. -/
def asciiFold : TextFold := ⟨Char.toLower, fun s t => t.toList.map Char.toLower <:+: s.toList.map Char.toLower⟩

theorem foldsEscaped_asciiFold : FoldsEscaped asciiFold := by
  intro c d hesc h
  have halpha : ¬ c.isAlpha = true := fun hc => absurd hesc (by rw [not_escaped_of_isAlpha hc]; decide)
  have hc : c.toLower = c := by
    by_contra hne
    exact halpha (isAlpha_of_toLower_ne hne).1
  exact (toLower_eq_of_not_isAlpha (Bool.not_eq_true _ ▸ halpha)).1 (h.trans hc)

/-- An entry for a host with a character that is escaped. -/
def ampersandEntry : LogEntry :=
  { time := ⟨63871200000, 0⟩, qHost := "a&b", qType := "A", qClass := "IN", ip := [192, 0, 2, 1] }

/-- The quick match hides no record that matches, just if the values in its line are those of its entry, if it is
decoded. -/
theorem neverHidden_iff {env : DecodeEnv} (henv : ∀ s, env.isValidIPString s = true → Net.parseAddr s ≠ none)
    {f : TextFold} (hf : FoldsEscaped f) {e : LogEntry} {offset : ℤ} {cs : List Char} (h : e.encode offset = some cs) :
    NeverHidden env f (utf8 cs) ↔ (Decodes (utf8 cs) → ReadAlike e) := by
  constructor
  · intro hnever hdecodes
    obtain ⟨r, hr⟩ := Option.isSome_iff_exists.1 ((decoded_isSome henv (utf8 cs)).2 hdecodes)
    have hip : e.ip ≠ [] := fun hip => hidden_of_ip h hr hip hnever
    have hid := not_not.1 fun hid => hidden_of_clientID h hr hf hip hid hnever
    have hreason := not_not.1 fun hreason => hidden_of_reason h hr hreason hnever
    have hhost := not_not.1 fun hhost => hidden_of_host h hr hf hip hid.1 (rawValue_clientID_eq h hid) hhost hnever
    exact ⟨hhost, hid.1, hid.2, hip, hreason.1, hreason.2⟩
  · rintro halike find criteria ⟨r, hr, hall⟩ c hc
    have halike := halike ((decoded_isSome henv (utf8 cs)).1 (by rw [Option.mem_def.1 hr]; rfl))
    have hmatch := hall c hc
    rw [matches_decoded h hr] at hmatch
    rw [SearchCriterion.quickMatch]
    cases hct : c.criterionType with
    | ctTerm =>
      rw [hct] at hmatch
      simp only
      rw [rawValue_host h, rawValue_ip h, rawValue_clientID_eq h ⟨halike.clientID, halike.noClientID⟩,
        rawString_of_unescaped halike.host, String.ofList_toList, if_neg halike.ip]
      exact hmatch
    | ctFilteringStatus => rfl
    | ctReason =>
      rw [hct] at hmatch
      simp only
      rw [rawReason_eq h]
      by_cases h0 : e.result.reason = 0
      · have hcode : e.result.reason = 0 ∨ ∃ p ∈ svcbParams e.result, EndsIn keyReason p.1 := .inl h0
        rw [if_pos hcode, if_pos rfl, ← h0]
        exact hmatch
      · have hno : ¬ ∃ p ∈ svcbParams e.result, EndsIn keyReason p.1 := fun ⟨p, hp, hend⟩ => halike.noReason h0 p hp hend
        obtain ⟨hne, hidx⟩ := idxOf?_code halike.reason h0
        have hcode : ¬ (e.result.reason = 0 ∨ ∃ p ∈ svcbParams e.result, EndsIn keyReason p.1) := not_or.2 ⟨h0, hno⟩
        rw [if_neg hcode, if_neg hne, hidx]
        simp only [UInt8.ofNat_toNat]
        exact hmatch

theorem neverHidden_iff_ampersand : ∃ cs, ampersandEntry.encode 0 = some cs ∧ Decodes (utf8 cs) ∧
    ¬ NeverHidden Decoding.netutilEnv asciiFold (utf8 cs) := by
  have hsome : (ampersandEntry.encode 0).isSome = true := by decide +kernel
  have hall : ∀ cs ∈ ampersandEntry.encode 0, Decodes (utf8 cs) := by decide +kernel
  obtain ⟨cs, hcs⟩ := Option.isSome_iff_exists.1 hsome
  have hdecodes := hall cs hcs
  refine ⟨cs, hcs, hdecodes, fun hnever => ?_⟩
  have halike := (neverHidden_iff Decoding.netutilEnv_valid foldsEscaped_asciiFold hcs).1 hnever hdecodes
  exact absurd halike.host (by decide)

/-- The search for a whole host hides its records. -/
theorem quickMatch_hides : ∃ cs r, ampersandEntry.encode 0 = some cs ∧
    decoded Decoding.netutilEnv (utf8 cs) = some r ∧
    (SearchCriterion.mk "a&b" "" [] .ctTerm true).matches asciiFold (r.withClient fun _ => .ok none) = true ∧
    (SearchCriterion.mk "a&b" "" [] .ctTerm true).quickMatch asciiFold (fun _ => .ok none) (utf8 cs) = false := by
  have hsome : ((ampersandEntry.encode 0).bind fun cs => decoded Decoding.netutilEnv (utf8 cs)).isSome = true := by
    decide +kernel
  obtain ⟨r, hbind⟩ := Option.isSome_iff_exists.1 hsome
  obtain ⟨cs, hcs, hr⟩ := Option.bind_eq_some_iff.1 hbind
  refine ⟨cs, r, hcs, hr, ?_, ?_⟩
  · rw [matches_decoded hcs hr]
    decide
  · rw [SearchCriterion.quickMatch]
    simp only
    rw [rawValue_host hcs, rawValue_ip hcs, rawValue_clientID hcs]
    decide

end AdGuardHome.Querylog
