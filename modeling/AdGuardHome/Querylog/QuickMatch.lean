import AdGuardHome.Lib.JsonKeys
import AdGuardHome.Querylog.SearchCriterion

/-!
# Matching lines before decoding

A search reads the values it compares from the text of a line first, and decodes the line only if they match.  The
values in the text are those of the entry unless a character of them is escaped, the address is not known, or an
earlier key of the line looks the same.
-/

namespace AdGuardHome.Querylog

open AdGuardHome.Lib AdGuardHome.Lib.Json

/-! ## The first text of a key in a line -/

theorem index_eq_none {p cs : List Char} (hp : Ascii p) (hne : p ≠ []) (h : Free p cs []) :
    index (utf8 cs) (utf8 p) = none := by
  obtain ⟨c, p, rfl⟩ := List.exists_cons_of_ne_nil hne
  refine List.find?_eq_none.2 fun i _ hi => ?_
  obtain ⟨j, -, hj⟩ := prefix_drop_utf8 hp (List.isPrefixOf_iff_prefix.1 hi)
  have hlt : j < cs.length := by
    by_contra hge
    rw [List.drop_eq_nil_of_le (by omega)] at hj
    exact absurd hj (by simp)
  exact h j hlt (by rw [List.append_nil]; exact hj)

theorem index_eq_some {p pre rest : List Char} (hp : Ascii p) (hne : p ≠ []) (h : Free p pre (p ++ rest)) :
    index (utf8 (pre ++ (p ++ rest))) (utf8 p) = some (utf8 pre).length := by
  obtain ⟨c, p, rfl⟩ := List.exists_cons_of_ne_nil hne
  refine List.find?_range_eq_some.2 ⟨?_, ?_, fun i hi => ?_⟩
  · rw [utf8_append, List.drop_left, utf8_append]
    exact List.isPrefixOf_iff_prefix.2 (List.prefix_append _ _)
  · rw [List.mem_range, utf8_append, List.length_append]
    omega
  · rw [Bool.not_eq_true', ← Bool.not_eq_true]
    intro hocc
    obtain ⟨j, hj, hpre⟩ := prefix_drop_utf8 hp (List.isPrefixOf_iff_prefix.1 hocc)
    have hlt : j < pre.length := by
      by_contra hge
      rw [List.take_append, List.take_of_length_le (by omega), utf8_append, List.length_append] at hj
      omega
    exact h j hlt hpre

variable {key : List Char} {text : List Char}

theorem toNat_lt_of_isAlpha {c : Char} (h : c.isAlpha = true) : c.toNat < 128 := by
  have hcases := isAlpha_iff.1 h
  have hc : c.toNat = c.val.toNat := rfl
  omega

theorem ascii_keyText (hkey : Word key) {ext : List Char} (hext : ext = [] ∨ ext = [quote]) :
    Ascii (keyText key ext) := by
  have hext : Ascii ext := by
    obtain rfl | rfl := hext <;> decide
  intro c hc
  simp only [keyText, List.mem_cons, List.mem_append] at hc
  obtain rfl | hc | rfl | rfl | hc := hc
  · decide
  · exact toNat_lt_of_isAlpha (hkey.2 c hc)
  · decide
  · decide
  · exact hext c hc

theorem keyText_ne_nil (key ext : List Char) : keyText key ext ≠ [] := by simp [keyText]

theorem findIdx?_first {α : Type} {p : α → Bool} {xs : List α} (h : ∀ x ∈ xs, p x = false) {y : α} (hy : p y = true)
    (ys : List α) : (xs ++ y :: ys).findIdx? p = some xs.length := by
  rw [List.findIdx?_append, List.findIdx?_eq_none_iff.2 h, List.findIdx?_cons, hy]
  simp

/-- The characters of a string before its first quotation mark, as they are written. -/
def rawString (s : String) : List Char := (escape s).takeWhile (· ≠ quote)

theorem not_mem_rawString (s : String) : quote ∉ rawString s := by
  intro h
  simpa using List.mem_takeWhile_imp h

theorem rawString_append (s : String) (rest : List Char) :
    ∃ rest', escape s ++ quote :: rest = rawString s ++ quote :: rest' := by
  have hsplit := List.takeWhile_append_dropWhile (p := (· ≠ quote)) (l := escape s)
  cases hdrop : (escape s).dropWhile (· ≠ quote) with
  | nil =>
    rw [hdrop, List.append_nil] at hsplit
    exact ⟨rest, by rw [rawString, hsplit]⟩
  | cons c cs =>
    have hc := List.head?_dropWhile_not (· ≠ quote) (escape s)
    rw [hdrop] at hsplit hc
    obtain rfl : c = quote := by simpa using hc
    have hraw : rawString s ++ quote :: cs = escape s := hsplit
    exact ⟨cs ++ quote :: rest, by rw [← hraw, List.append_assoc, List.cons_append]⟩

/-- The rest of a line after the first text of the key. -/
theorem index_keyText (hkey : Word key) {ext : List Char} (hext : ext = [] ∨ ext = [quote]) {pre rest : List Char}
    (htext : text = pre ++ (keyText key ext ++ rest)) (hfree : Free (keyText key ext) pre (keyText key ext ++ rest)) :
    index (utf8 text) (utf8 (keyText key ext)) = some (utf8 pre).length ∧
      (utf8 text).drop ((utf8 pre).length + (utf8 (keyText key ext)).length) = utf8 rest := by
  subst htext
  refine ⟨index_eq_some (ascii_keyText hkey hext) (keyText_ne_nil key ext) hfree, ?_⟩
  rw [utf8_append, utf8_append, ← List.append_assoc, ← List.length_append, List.drop_left]

theorem readJSONValue_str (hkey : Word key) {s : String} (h : Shows key [quote] text [] (some (.str s))) :
    readJSONValue (utf8 text) (utf8 (keyText key [quote])) = utf8 (rawString s) := by
  obtain ⟨pre, c, post, -, -, htext, hfree⟩ := h
  obtain ⟨rest, hrest⟩ := rawString_append s (c :: post)
  have hafter : keyText key [] ++ (render (.str s) ++ c :: post) =
      keyText key [quote] ++ (rawString s ++ quote :: rest) := by
    rw [← hrest]
    simp [keyText, render, quoted]
  rw [List.append_nil, hafter] at htext
  rw [hafter] at hfree
  obtain ⟨hindex, hdrop⟩ := index_keyText hkey (.inr rfl) htext hfree
  have hend : (utf8 (rawString s ++ quote :: rest)).idxOf? 34 = some (utf8 (rawString s)).length := by
    rw [utf8_append]
    refine findIdx?_first (p := (· == 34)) (fun b hb => ?_) (y := 34) rfl (utf8 rest)
    rw [beq_eq_false_iff_ne]
    rintro rfl
    exact not_mem_utf8 (c := quote) (by decide) (not_mem_rawString s) hb
  rw [readJSONValue, hindex]
  simp only [hdrop, hend]
  rw [utf8_append, List.take_left]

theorem readJSONValue_none (hkey : Word key) (h : Shows key [quote] text [] none) :
    readJSONValue (utf8 text) (utf8 (keyText key [quote])) = [] := by
  rw [readJSONValue, index_eq_none (ascii_keyText hkey (.inr rfl)) (keyText_ne_nil key _) h]

theorem readJSONNumericValue_none (hkey : Word key) (h : Shows key [] text [] none) :
    readJSONNumericValue (utf8 text) (utf8 (keyText key [])) = [] := by
  rw [readJSONNumericValue, index_eq_none (ascii_keyText hkey (.inl rfl)) (keyText_ne_nil key _) h]

theorem readJSONNumericValue_str (hkey : Word key) {s : String} (h : Shows key [] text [] (some (.str s))) :
    readJSONNumericValue (utf8 text) (utf8 (keyText key [])) = [] := by
  obtain ⟨pre, c, post, -, -, htext, hfree⟩ := h
  rw [List.append_nil] at htext
  obtain ⟨hindex, hdrop⟩ := index_keyText hkey (.inl rfl) htext hfree
  have hend : (utf8 (render (.str s) ++ c :: post)).findIdx? (fun b => (b > 57 || b < 48) && b != 46) = some 0 :=
    @findIdx?_first _ _ [] (by simp) 34 (by decide) (utf8 (escape s ++ [quote] ++ c :: post))
  rw [readJSONNumericValue, hindex]
  simp only [hdrop, hend, List.take_zero]

theorem digit_of_mem_utf8 {n : ℕ} {b : UInt8} (h : b ∈ utf8 (Nat.toDigits 10 n)) :
    ((b > 57 || b < 48) && b != 46) = false := by
  have hdigit : ∀ c ∈ Nat.toDigits 10 n, 48 ≤ c.val.toNat ∧ c.val.toNat ≤ 57 := by
    intro c hc
    have := isDigit_of_mem_toDigits hc
    simpa [isDigit, Char.le_def, UInt32.le_iff_toNat_le] using this
  obtain ⟨c, hc, rfl⟩ := mem_utf8_of_ascii (fun c hc => by
    have := hdigit c hc
    show c.val.toNat < 128
    omega) h
  obtain ⟨hle, hge⟩ := hdigit c hc
  have hbyte : c.val.toUInt8.toNat = c.val.toNat := by
    rw [UInt32.toNat_toUInt8]
    omega
  have hrange : ¬ c.val.toUInt8 > 57 ∧ ¬ c.val.toUInt8 < 48 := by
    rw [gt_iff_lt, UInt8.lt_iff_toNat_lt, UInt8.lt_iff_toNat_lt, hbyte]
    exact ⟨Nat.not_lt.2 hge, Nat.not_lt.2 hle⟩
  rw [decide_eq_false hrange.1, decide_eq_false hrange.2]
  rfl

theorem readJSONNumericValue_num (hkey : Word key) {n : ℕ} (h : Shows key [] text [] (some (.num n))) :
    readJSONNumericValue (utf8 text) (utf8 (keyText key [])) = utf8 (Nat.toDigits 10 n) := by
  obtain ⟨pre, c, post, hc, -, htext, hfree⟩ := h
  rw [List.append_nil] at htext
  obtain ⟨hindex, hdrop⟩ := index_keyText hkey (.inl rfl) htext hfree
  have hrender : render (.num n) = Nat.toDigits 10 n := by
    rw [render, decimal, if_neg (by omega), Int.natAbs_natCast]
  have hend : (utf8 (Nat.toDigits 10 n ++ c :: post)).findIdx? (fun b => (b > 57 || b < 48) && b != 46) =
      some (utf8 (Nat.toDigits 10 n)).length := by
    obtain ⟨b, bs, hb, hstop⟩ : ∃ b bs, utf8 (c :: post) = b :: bs ∧ ((b > 57 || b < 48) && b != 46) = true := by
      obtain rfl | rfl := hc
      · exact ⟨44, utf8 post, rfl, rfl⟩
      · exact ⟨125, utf8 post, rfl, rfl⟩
    rw [utf8_append, hb]
    exact findIdx?_first (fun b hb => digit_of_mem_utf8 hb) hstop bs
  rw [hrender] at hdrop
  rw [readJSONNumericValue, hindex]
  simp only [hdrop, hend]
  rw [utf8_append, List.take_left]

/-! ## The fields of an entry that look like a key -/

/-- The parameters of a service binding. -/
def rrParams : Filtering.RRValue → List (String × String)
  | .svcb svcb => svcb.params
  | _ => []

/-- The parameters of the service bindings in a rewrite, in the order of the text. -/
def svcbParams (r : EntryResult) : List (String × String) :=
  r.dnsRewriteResult.toList.flatMap fun rewrite =>
    (rewrite.response.getD []).flatMap fun p => p.2.flatMap rrParams

/-- The value of the first parameter that looks like the key. -/
def firstParam (key : List Char) (params : List (String × String)) : Option Json :=
  (params.find? fun p => EndsIn key p.1).map fun p => .str p.2

/-- The names of the fields around the parameters of a result, and of those before its reason. -/
def resultKeys : List String :=
  ["DNSRewriteResult", "CanonName", "ServiceName", "IPList", "Rules", "Text", "IP", "FilterListID", "Response", "RCode",
    "Params", "Target", "Priority", "Exchange", "Preference", "Weight", "Port"]

section lookup

variable {ext : List Char}

theorem firstParam_append (ps qs : List (String × String)) :
    firstParam key (ps ++ qs) = (firstParam key ps).or (firstParam key qs) := by
  rw [firstParam, List.find?_append, Option.map_or]
  rfl

theorem lookup_obj (fields : List (String × Json)) : lookup key ext (.obj fields) = lookupFields key ext fields := by
  rw [lookup]

theorem lookup_arr (vs : List Json) : lookup key ext (.arr vs) = lookupElems key ext vs := by rw [lookup]

theorem lookupFields_append (fields fields' : List (String × Json)) :
    lookupFields key ext (fields ++ fields') = (lookupFields key ext fields).or (lookupFields key ext fields') := by
  induction fields with
  | nil => rfl
  | cons f fields ih =>
    obtain ⟨k, v⟩ := f
    rw [List.cons_append, lookupFields, lookupFields]
    split
    · rfl
    · rw [ih, Option.or_assoc]

theorem lookupFields_cons {k : String} {v : Json} (h : ¬ EndsIn key k) (fields : List (String × Json)) :
    lookupFields key ext ((k, v) :: fields) = (lookup key ext v).or (lookupFields key ext fields) := by
  rw [lookupFields, if_neg fun hit => h hit.1]

theorem lookupFields_omitEmpty {empty : Prop} [Decidable empty] {k : String} {v : Json} (h : ¬ EndsIn key k)
    (hv : lookup key ext v = none) : lookupFields key ext (omitEmpty empty k v) = none := by
  unfold omitEmpty
  split
  · rfl
  · rw [lookupFields_cons h, hv]
    rfl

theorem hit_str (hext : ext = [] ∨ ext = [quote]) {k s : String} : Hit key ext k (.str s) ↔ EndsIn key k := by
  refine ⟨fun h => h.1, fun h => ⟨h, ?_⟩⟩
  obtain rfl | rfl := hext
  · exact List.nil_prefix
  · exact ⟨escape s ++ [quote], rfl⟩

theorem lookupFields_strs (hext : ext = [] ∨ ext = [quote]) (ps : List (String × String)) :
    lookupFields key ext (ps.map fun p => (p.1, .str p.2)) = firstParam key ps := by
  induction ps with
  | nil => rfl
  | cons p ps ih =>
    rw [List.map_cons, lookupFields, firstParam, List.find?_cons]
    by_cases h : EndsIn key p.1
    · rw [if_pos ((hit_str hext).2 h), decide_eq_true h]
      rfl
    · rw [if_neg fun hit => h hit.1, ih, decide_eq_false h]
      rfl

theorem lookupElems_none {vs : List Json} (h : ∀ v ∈ vs, lookup key ext v = none) : lookupElems key ext vs = none := by
  induction vs with
  | nil => rfl
  | cons v vs ih =>
    rw [lookupElems, h v (by simp), ih fun w hw => h w (by simp [hw])]
    rfl

theorem not_endsIn_digits (hkey : Word key) (n : ℕ) : ¬ EndsIn key (toString n) := by
  intro h
  obtain ⟨c, hc⟩ := List.exists_mem_of_ne_nil key hkey.1
  have hmem := h.subset (List.mem_cons_of_mem quote hc)
  have halpha := hkey.2 c hc
  obtain rfl | hmem := List.mem_cons.1 hmem
  · cases halpha
  · rw [show (toString n : String) = n.repr from rfl, Nat.toList_repr] at hmem
    have hdigit := isDigit_of_mem_toDigits hmem
    have hcases := isAlpha_iff.1 halpha
    simp only [isDigit, Bool.and_eq_true, decide_eq_true_eq, Char.le_def, UInt32.le_iff_toNat_le] at hdigit
    simp at hdigit
    have hc : c.toNat = c.val.toNat := rfl
    omega

theorem lookup_rule (hkeys : ∀ k ∈ resultKeys, ¬ EndsIn key k) (r : Filtering.ResultRule) :
    lookup key ext (resultRuleJSON r) = none := by
  rw [resultRuleJSON, lookup_obj, lookupFields_append, lookupFields_append,
    lookupFields_omitEmpty (hkeys _ (by simp [resultKeys])) rfl,
    lookupFields_omitEmpty (hkeys _ (by simp [resultKeys])) rfl,
    lookupFields_omitEmpty (hkeys _ (by simp [resultKeys])) rfl]
  rfl

variable (hext : ext = [] ∨ ext = [quote]) (hkeys : ∀ k ∈ resultKeys, ¬ EndsIn key k)

include hext hkeys

theorem lookup_rrValue (v : Filtering.RRValue) : lookup key ext (RRValue.json v) = firstParam key (rrParams v) := by
  cases v with
  | nil => rfl
  | ip ip => rfl
  | text str => rfl
  | mx preference exchange =>
    rw [RRValue.json, lookup, lookupFields_cons (hkeys _ (by simp [resultKeys])),
      lookupFields_cons (hkeys _ (by simp [resultKeys]))]
    rfl
  | svcb svcb =>
    rw [RRValue.json, lookup, lookupFields_cons (hkeys _ (by simp [resultKeys])),
      lookupFields_cons (hkeys _ (by simp [resultKeys])), lookupFields_cons (hkeys _ (by simp [resultKeys])), rrParams]
    split
    · rename_i hnil
      rw [hnil]
      rfl
    · rw [lookup_obj, lookupFields_strs hext]
      exact Option.or_none
  | srv priority weight port target =>
    rw [RRValue.json, lookup, lookupFields_cons (hkeys _ (by simp [resultKeys])),
      lookupFields_cons (hkeys _ (by simp [resultKeys])), lookupFields_cons (hkeys _ (by simp [resultKeys])),
      lookupFields_cons (hkeys _ (by simp [resultKeys]))]
    rfl

theorem lookupElems_rrValues (vs : List Filtering.RRValue) :
    lookupElems key ext (vs.map RRValue.json) = firstParam key (vs.flatMap rrParams) := by
  induction vs with
  | nil => rfl
  | cons v vs ih => rw [List.map_cons, lookupElems, lookup_rrValue hext hkeys, ih, List.flatMap_cons, firstParam_append]

theorem lookup_response (hkey : Word key) (response : List (UInt16 × List Filtering.RRValue)) :
    lookup key ext (responseJSON response) = firstParam key (response.flatMap fun p => p.2.flatMap rrParams) := by
  rw [responseJSON, lookup_obj]
  induction response with
  | nil => rfl
  | cons p response ih =>
    rw [List.map_cons, lookupFields_cons (not_endsIn_digits hkey _), lookup_arr,
      lookupElems_rrValues hext hkeys, ih, List.flatMap_cons, firstParam_append]

theorem lookup_rewrite (hkey : Word key) (r : Filtering.DNSRewriteResult) :
    lookup key ext (dnsRewriteResultJSON r) =
      firstParam key ((r.response.getD []).flatMap fun p => p.2.flatMap rrParams) := by
  have hresponse : lookupFields key ext (omitEmpty (r.response.getD [] = []) "Response"
      (responseJSON (r.response.getD []))) =
        firstParam key ((r.response.getD []).flatMap fun p => p.2.flatMap rrParams) := by
    unfold omitEmpty
    split
    · rename_i h
      rw [h]
      rfl
    · rw [lookupFields_cons (hkeys _ (by simp [resultKeys])), lookup_response hext hkeys hkey]
      exact Option.or_none
  have hrcode : lookupFields key ext (omitEmpty (r.rcode = 0) "RCode" (.num r.rcode)) = none :=
    lookupFields_omitEmpty (hkeys _ (by simp [resultKeys])) rfl
  rw [dnsRewriteResultJSON, lookup_obj, lookupFields_append, hresponse, hrcode, Option.or_none]

/-- Of the fields before the reason, only the parameters of service bindings can look like the key. -/
theorem lookup_resultHead (hkey : Word key) (r : EntryResult) :
    lookupFields key ext r.head = firstParam key (svcbParams r) := by
  have hrewrite : lookupFields key ext (r.dnsRewriteResult.toList.map fun rewrite =>
      ("DNSRewriteResult", dnsRewriteResultJSON rewrite)) = firstParam key (svcbParams r) := by
    rw [svcbParams]
    cases r.dnsRewriteResult with
    | none => rfl
    | some rewrite =>
      rw [Option.toList_some, List.map_singleton, lookupFields_cons (hkeys _ (by simp [resultKeys])),
        lookup_rewrite hext hkeys hkey, List.flatMap_singleton]
      exact Option.or_none
  have hips : lookup key ext (.arr (r.ipList.map fun ip => .str (addrText ip))) = none := by
    rw [lookup_arr]
    refine lookupElems_none fun v hv => ?_
    obtain ⟨ip, -, rfl⟩ := List.mem_map.1 hv
    rfl
  have hrules : lookup key ext (.arr (r.rules.map resultRuleJSON)) = none := by
    rw [lookup_arr]
    refine lookupElems_none fun v hv => ?_
    obtain ⟨rule, -, rfl⟩ := List.mem_map.1 hv
    exact lookup_rule hkeys rule
  rw [EntryResult.head, lookupFields_append, lookupFields_append, lookupFields_append, lookupFields_append, hrewrite,
    lookupFields_omitEmpty (hkeys _ (by simp [resultKeys])) rfl,
    lookupFields_omitEmpty (hkeys _ (by simp [resultKeys])) rfl,
    lookupFields_omitEmpty (hkeys _ (by simp [resultKeys])) hips,
    lookupFields_omitEmpty (hkeys _ (by simp [resultKeys])) hrules]
  simp only [Option.or_none]

end lookup

/-! ## The values in the line of an entry -/

/-- `QH` -/
def keyQH : List Char := ['Q', 'H']

/-- `IP` -/
def keyIP : List Char := ['I', 'P']

/-- `CID` -/
def keyCID : List Char := ['C', 'I', 'D']

/-- `Reason` -/
def keyReason : List Char := ['R', 'e', 'a', 's', 'o', 'n']

variable {ext : List Char} (e : LogEntry) (time ip : String)

theorem lookup_entryHead (hkeys : ∀ k ∈ ["T", "QH", "QT", "QC", "ECS", "CP", "Upstream", "Answer", "OrigAnswer"],
    ¬ EndsIn key k) :
    lookupFields key ext (e.head time) = lookupFields key ext (omitEmpty (e.clientID = "") "CID" (.str e.clientID)) := by
  have hfirst : lookupFields key ext [("T", .str time), ("QH", .str e.qHost), ("QT", .str e.qType),
      ("QC", .str e.qClass)] = none := by
    rw [lookupFields_cons (hkeys _ (by simp)), lookupFields_cons (hkeys _ (by simp)),
      lookupFields_cons (hkeys _ (by simp)), lookupFields_cons (hkeys _ (by simp))]
    rfl
  have hproto : lookupFields key ext [("CP", .str e.clientProto.name)] = none := by
    rw [lookupFields_cons (hkeys _ (by simp))]
    rfl
  simp only [LogEntry.head, lookupFields_append]
  rw [hfirst, hproto, lookupFields_omitEmpty (hkeys "ECS" (by simp)) rfl,
    lookupFields_omitEmpty (hkeys "Upstream" (by simp)) rfl, lookupFields_omitEmpty (hkeys "Answer" (by simp)) rfl,
    lookupFields_omitEmpty (hkeys "OrigAnswer" (by simp)) rfl]
  simp only [Option.or_none, Option.none_or]

theorem lookup_entryTail (hkeys : ∀ k ∈ ["Elapsed", "Cached", "AD"], ¬ EndsIn key k) :
    lookupFields key ext e.tail = none := by
  have helapsed : lookupFields key ext [("Elapsed", .num e.elapsed.toInt)] = none := by
    rw [lookupFields_cons (hkeys _ (by simp))]
    rfl
  rw [LogEntry.tail, lookupFields_append, lookupFields_append, helapsed,
    lookupFields_omitEmpty (hkeys _ (by simp)) rfl, lookupFields_omitEmpty (hkeys _ (by simp)) rfl]
  rfl

theorem lookup_result (hext : ext = [] ∨ ext = [quote]) (hkey : Word key) (hkeys : ∀ k ∈ resultKeys, ¬ EndsIn key k)
    (r : EntryResult) : lookup key ext (.obj (r.head ++ r.tail)) =
      (firstParam key (svcbParams r)).or (lookupFields key ext r.tail) := by
  rw [lookup_obj, lookupFields_append, lookup_resultHead hext hkeys hkey]

theorem lookup_QH : lookup keyQH [quote] (.obj (e.fields time ip)) = some (.str e.qHost) := by
  have hhost : Hit keyQH [quote] "QH" (.str e.qHost) := (hit_str (.inr rfl)).2 (by decide)
  simp only [LogEntry.fields, LogEntry.head, lookup_obj, List.cons_append, List.append_assoc]
  rw [lookupFields_cons (by decide), lookupFields, if_pos hhost]
  rfl

theorem lookup_IP : lookup keyIP [quote] (.obj (e.fields time ip)) = some (.str ip) := by
  have hip : Hit keyIP [quote] "IP" (.str ip) := (hit_str (.inr rfl)).2 (by decide)
  rw [LogEntry.fields, lookup_obj, lookupFields_append, lookup_entryHead e time (by decide),
    lookupFields_omitEmpty (by decide) rfl, lookupFields, if_pos hip]
  rfl

theorem lookup_CID : lookup keyCID [quote] (.obj (e.fields time ip)) =
    if e.clientID = "" then firstParam keyCID (svcbParams e.result) else some (.str e.clientID) := by
  have hid : Hit keyCID [quote] "CID" (.str e.clientID) := (hit_str (.inr rfl)).2 (by decide)
  have htail : lookupFields keyCID [quote] e.result.tail = none := by
    rw [EntryResult.tail, lookupFields_append, lookupFields_omitEmpty (by decide) rfl,
      lookupFields_omitEmpty (by decide) rfl]
    rfl
  rw [LogEntry.fields, lookup_obj, lookupFields_append, lookup_entryHead e time (by decide)]
  unfold omitEmpty
  split
  · rw [lookupFields_cons (by decide), lookupFields_cons (by decide),
      lookup_result (.inr rfl) (by decide) (by decide), htail, lookup_entryTail e (by decide), Option.or_none,
      Option.or_none]
    rfl
  · rw [lookupFields, if_pos hid]
    rfl

theorem lookup_Reason : lookup keyReason [] (.obj (e.fields time ip)) =
    (firstParam keyReason (svcbParams e.result)).or
      (if e.result.reason = 0 then none else some (.num e.result.reason.toNat)) := by
  have htail : lookupFields keyReason [] e.result.tail =
      if e.result.reason = 0 then none else some (.num e.result.reason.toNat) := by
    have hreason : Hit keyReason [] "Reason" (.num e.result.reason.toNat) := ⟨by decide, List.nil_prefix⟩
    rw [EntryResult.tail, lookupFields_append, lookupFields_omitEmpty (k := "IsFiltered") (by decide) rfl,
      Option.or_none]
    unfold omitEmpty
    split
    · rfl
    · rw [lookupFields, if_pos hreason]
  rw [LogEntry.fields, lookup_obj, lookupFields_append, lookup_entryHead e time (by decide),
    lookupFields_omitEmpty (by decide) rfl, lookupFields_cons (by decide), lookupFields_cons (by decide),
    lookup_result (.inl rfl) (by decide) (by decide), htail, lookup_entryTail e (by decide), Option.or_none]
  rfl

end AdGuardHome.Querylog
