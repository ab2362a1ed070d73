import AdGuardHome.Aghnet.Text
import AdGuardHome.Querylog.DecodeResult

/-!
# Log entries that are written and read

What the decoder reads from the line of an entry (`entry.go`, `decode.go`).  The fields of the entry and of its result
are those that were written, with three differences: an address that is not valid is not in the list that is read, the
addresses of a rewrite from the hosts files become records of its rewrite, and a rule of which nothing is written is not
read as one (`decodeLogEntry_written`).
-/

namespace AdGuardHome.Querylog

open AdGuardHome.Aghnet AdGuardHome.Filtering AdGuardHome.Lib AdGuardHome.Net

/-! ## Texts of addresses -/

/-- An IPv4 address in sixteen bytes. -/
theorem to4_asSlice_v6 (a : BitVec 128) (zone : String) : IP.to4 (asSlice (.v6 a zone)) =
    if is4In6 a = true then some (asSlice (.v4 (a.setWidth 32))) else none := by
  have hlen : (asSlice (.v6 a zone)).length = 16 := rfl
  generalize hbs : asSlice (.v6 a zone) = bs at hlen
  have hnum : a.toNat = ofBytes ((bs.take 12).map UInt8.toNat) * 256 ^ 4 + ofBytes ((bs.drop 12).map UInt8.toNat) := by
    have happend := ofBytes_append_list ((bs.take 12).map UInt8.toNat) ((bs.drop 12).map UInt8.toNat)
    rw [← List.map_append, List.take_append_drop, List.length_map, List.length_drop, hlen, ← hbs,
      ofBytes_asSlice_v6] at happend
    rw [happend, hbs]
  have hhead : (bs.take 12).length = 12 := by rw [List.length_take, hlen]; rfl
  have htail : (bs.drop 12).length = 4 := by rw [List.length_drop, hlen]
  have hlt := ofBytes_lt (bs.drop 12)
  rw [htail] at hlt
  have hlow : asSlice (.v4 (a.setWidth 32)) = bs.drop 12 := by
    rw [← asSlice_v4_ofBytes htail]
    congr 2
    apply BitVec.eq_of_toNat_eq
    rw [BitVec.toNat_setWidth, BitVec.toNat_ofNat]
    omega
  have hmapped : is4In6 a = true ↔ bs.take 12 = List.replicate 10 0 ++ [255, 255] := by
    have hbits : is4In6 a = true ↔ ofBytes ((bs.take 12).map UInt8.toNat) = 0xffff := by
      unfold is4In6
      rw [beq_iff_eq, ← BitVec.toNat_inj, BitVec.toNat_ushiftRight, Nat.shiftRight_eq_div_pow]
      show a.toNat / 2 ^ 32 = 0xffff ↔ _
      omega
    rw [hbits]
    constructor
    · intro h
      have hbytes := bytes_ofBytes (bs.take 12)
      rw [h, hhead] at hbytes
      rw [← hbytes]
      decide
    · intro h
      rw [h]
      decide
  unfold IP.to4
  rw [if_neg (by omega), hlow]
  by_cases h : is4In6 a = true
  · rw [if_pos h, if_pos ⟨hlen, hmapped.1 h⟩]
  · rw [if_neg h, if_neg fun hboth => h (hmapped.2 hboth.2)]

/-- `MarshalText` writes the text of `String` for a valid address. -/
theorem addrText_eq {a : Addr} (h : a.isValid = true) : addrText a = addrString a := by
  cases a with
  | invalid => cases h
  | v4 a =>
    have hlen : (asSlice (.v4 a)).length = 4 := rfl
    have hne : asSlice (.v4 a) ≠ [] := List.ne_nil_of_length_pos (by omega)
    rw [addrText, IP.string, if_neg hne, IP.to4, if_pos hlen]
    rfl
  | v6 a zone =>
    simp only [addrText, to4_asSlice_v6]
    rw [addrString]
    by_cases hmapped : is4In6 a = true
    · rw [if_pos hmapped, if_pos hmapped]
      split
      · rw [String.append_empty]
        rfl
      · rw [← String.append_assoc]
        rfl
    · rw [if_neg hmapped, if_neg hmapped]
      split
      · rw [String.append_empty]
      · rw [← String.append_assoc]

/-- The text of an address is read as the address, and nothing is for the invalid one. -/
theorem parseAddr_addrText (a : Addr) : parseAddr (addrText a) = if a.isValid = true then some a else none := by
  by_cases h : a.isValid = true
  · rw [if_pos h, addrText_eq h, parseAddr_addrString h]
  · rw [if_neg h]
    cases a with
    | invalid => decide
    | v4 a => exact absurd rfl h
    | v6 a zone => exact absurd rfl h

/-- `net.IP.Equal`: the same bytes, or an IPv4 address in four and in sixteen bytes. -/
def equalIP (ip x : IP) : Prop :=
  ip = x ∨ (ip.length = 4 ∧ x = List.replicate 10 0 ++ [255, 255] ++ ip) ∨
    (x.length = 4 ∧ ip = List.replicate 10 0 ++ [255, 255] ++ x)

theorem equalIP_parseIP {ip : IP} (h : ip.length = 4 ∨ ip.length = 16) : equalIP ip (parseIP ip.string) := by
  rw [parseIP_string h]
  unfold IP.to4
  by_cases h4 : ip.length = 4
  · rw [if_pos h4]
    exact .inr (.inl ⟨h4, rfl⟩)
  · rw [if_neg h4]
    split_ifs with hmapped
    · refine .inl ?_
      dsimp only
      rw [← hmapped.2, List.take_append_drop]
    · exact .inl rfl

namespace Decoding

/-! ## Loops -/

/-- The loop reaches the second state from the first one, in no more rounds than characters are read. -/
def Runs (body : Decoder × DecodedEntry → Option (Bool × Decoder × DecodedEntry)) (s s' : Decoder × DecodedEntry) :
    Prop :=
  ∃ k, k + s'.1.rest.length ≤ s.1.rest.length ∧ ∀ n, repeatWhile body (n + k) s = repeatWhile body n s'

section Runs

variable {body : Decoder × DecodedEntry → Option (Bool × Decoder × DecodedEntry)} {s s' s'' : Decoder × DecodedEntry}

theorem Runs.refl (s : Decoder × DecodedEntry) : Runs body s s := ⟨0, by simp, fun _ => rfl⟩

theorem Runs.trans (h : Runs body s s') (h' : Runs body s' s'') : Runs body s s'' := by
  obtain ⟨k, hk, hrun⟩ := h
  obtain ⟨k', hk', hrun'⟩ := h'
  exact ⟨k' + k, by omega, fun n => by rw [← Nat.add_assoc, hrun, hrun']⟩

theorem runs_of_body (h : body s = some (true, s')) (hlen : s'.1.rest.length < s.1.rest.length) : Runs body s s' := by
  refine ⟨1, by omega, fun n => ?_⟩
  rw [repeatWhile, h]
  rfl

/-- A loop that reaches a state in which its body returns false. -/
theorem Runs.repeatWhile_eq (h : Runs body s s') (hend : body s' = some (false, s'')) {n : ℕ}
    (hn : s.1.rest.length < n) : repeatWhile body n s = some s'' := by
  obtain ⟨k, hk, hrun⟩ := h
  obtain ⟨m, rfl⟩ : ∃ m, n = m + 1 + k := ⟨n - 1 - k, by omega⟩
  rw [hrun, repeatWhile, hend]
  rfl

/-- The loop reads a field, unless it is empty. -/
theorem runs_omitEmpty {empty : Prop} [Decidable empty] {k : String} {v : Json} {d d' : Decoder}
    {ent ent' : DecodedEntry} (hempty : empty → ent = ent')
    (hfield : ¬ empty → ∀ d, Decoder.Reads d (.str k :: v.tokens) d' → body (d, ent) = some (true, d', ent'))
    (h : Decoder.Reads d (Json.tokensFields (omitEmpty empty k v)) d') : Runs body (d, ent) (d', ent') := by
  unfold omitEmpty at h
  split at h
  · rename_i hyes
    obtain rfl : d = d' := h
    rw [hempty hyes]
    exact Runs.refl _
  · rename_i hno
    rw [Json.tokensFields, Json.tokensFields, List.append_nil] at h
    refine runs_of_body (hfield hno d h) ?_
    have hlen := h.length
    rw [List.length_cons] at hlen
    dsimp only
    omega

/-- The loop reads fields one after the other. -/
theorem runs_fields {fields : List (String × Json)} {effect : DecodedEntry → String × Json → DecodedEntry}
    (hfield : ∀ f ∈ fields, ∀ d d' ent, Decoder.Reads d (.str f.1 :: f.2.tokens) d' →
      body (d, ent) = some (true, d', effect ent f)) {d d' : Decoder} {ent : DecodedEntry}
    (h : Decoder.Reads d (Json.tokensFields fields) d') : Runs body (d, ent) (d', fields.foldl effect ent) := by
  induction fields generalizing d ent with
  | nil =>
    obtain rfl : d = d' := h
    exact Runs.refl _
  | cons f fields ih =>
    obtain ⟨k, v⟩ := f
    rw [Json.tokensFields, ← List.cons_append] at h
    obtain ⟨d₁, hf, hrest⟩ := Decoder.reads_append h
    have hlen := hf.length
    rw [List.length_cons] at hlen
    refine Runs.trans (runs_of_body (hfield (k, v) (by simp) d d₁ ent hf) ?_)
      (ih (fun f hf => hfield f (by simp [hf])) hrest)
    dsimp only
    omega

end Runs

/-! ## Addresses -/

/-- The loop over an array of strings. -/
theorem decodeItems_strs {item : String → DecodedEntry → Option DecodedEntry} (ss : List String) {d d' : Decoder}
    (h : Decoder.Reads d (Json.tokensElems (ss.map .str) ++ [.delim ']']) d') {n : ℕ} (hn : d.rest.length < n)
    (ent : DecodedEntry) :
    decodeItems item n d ent = (ss.foldlM (fun ent v => item v ent) ent).map fun ent => (d', ent) := by
  induction ss generalizing d n ent with
  | nil =>
    obtain ⟨d₁, htoken, rfl⟩ := h
    obtain ⟨n, rfl⟩ := Nat.exists_eq_add_of_lt hn
    rw [decodeItems, htoken]
    rfl
  | cons v ss ih =>
    obtain ⟨d₁, htoken, hrest⟩ := h
    have hlt := Decoder.length_token htoken
    obtain ⟨n, rfl⟩ : ∃ m, n = m + 1 := ⟨n - 1, by omega⟩
    rw [decodeItems, htoken, List.foldlM_cons]
    dsimp only
    cases item v ent with
    | none => rfl
    | some ent' => exact ih hrest (by omega) ent'

/-- The valid addresses are read. -/
theorem decodeResultIPList_addrs {env : DecodeEnv} (henv : ∀ s, env.isValidIPString s = (parseAddr s).isSome)
    (ips : List Addr) {d d' : Decoder}
    (h : Decoder.Reads d (Json.tokens (.arr (ips.map fun ip => .str (addrText ip)))) d') (ent : DecodedEntry) :
    decodeResultIPList env d ent =
      some (d', { ent with entry.result.ipList := ent.entry.result.ipList ++ ips.filter (·.isValid) }) := by
  obtain ⟨d₁, hopen, hrest⟩ := h
  have hlt := Decoder.length_token hopen
  have hstrs : ips.map (fun ip => Json.str (addrText ip)) = (ips.map addrText).map Json.str := by simp
  rw [hstrs] at hrest
  unfold decodeResultIPList
  rw [decodeItems, hopen]
  dsimp only
  rw [if_pos rfl, decodeItems_strs _ hrest hlt]
  clear hrest hstrs
  induction ips generalizing ent with
  | nil => simp
  | cons ip ips ih =>
    rw [List.map_cons, List.foldlM_cons]
    unfold appendIfValidIP
    rw [henv, parseAddr_addrText]
    by_cases hvalid : ip.isValid = true
    · simp only [if_pos hvalid, Option.isSome_some, if_true, Option.map_some]
      refine (ih _).trans ?_
      simp [hvalid]
    · simp only [if_neg hvalid, Option.isSome_none, Bool.false_eq_true, if_false, Option.map_some]
      refine (ih _).trans ?_
      simp [hvalid]

/-! ## Rules -/

/-- A rule of which nothing is written. -/
def emptyRule : ResultRule := ⟨"", .invalid, 0⟩

/-- The loop of the rules goes from one place, number of closing braces and list of rules to others. -/
def Advances (ent : DecodedEntry) (s s' : ℕ × Decoder × List ResultRule) : Prop :=
  ∀ n, s.2.1.rest.length < n → ∃ m, s'.2.1.rest.length < m ∧
    decodeResultRuleToken n s.1 s.2.1 (withRules ent s.2.2) = decodeResultRuleToken m s'.1 s'.2.1 (withRules ent s'.2.2)

section Rules

variable {ent : DecodedEntry} {s s' s'' : ℕ × Decoder × List ResultRule} {done : List ResultRule} {d d' : Decoder}

theorem Advances.refl (s : ℕ × Decoder × List ResultRule) : Advances ent s s := fun n hn => ⟨n, hn, rfl⟩

theorem Advances.trans (h : Advances ent s s') (h' : Advances ent s' s'') : Advances ent s s'' := by
  intro n hn
  obtain ⟨m, hm, heq⟩ := h n hn
  obtain ⟨m', hm', heq'⟩ := h' m hm
  exact ⟨m', hm', heq.trans heq'⟩

theorem advances_of_round (hlen : s'.2.1.rest.length < s.2.1.rest.length)
    (h : ∀ n, decodeResultRuleToken (n + 1) s.1 s.2.1 (withRules ent s.2.2) =
      decodeResultRuleToken n s'.1 s'.2.1 (withRules ent s'.2.2)) : Advances ent s s' := by
  intro n hn
  obtain ⟨n, rfl⟩ : ∃ m, n = m + 1 := ⟨n - 1, by omega⟩
  exact ⟨n, by omega, h n⟩

/-- A field is set in the rule that is read, which is added if it is the first one. -/
theorem decodeResultRuleKey_field {key : String} {field : Token → Option (ResultRule → ResultRule)} {t : Token}
    {set : ResultRule → ResultRule} (hkey : ruleField key = some field) (hset : field t = some set)
    (htoken : d.token = some (t, d')) (cur : Option ResultRule) :
    decodeResultRuleKey key done.length d (withRules ent (done ++ cur.toList)) =
      some (d', withRules ent (done ++ [set (cur.getD emptyRule)])) := by
  have hrules : (if (done ++ cur.toList).length < done.length + 1 then done ++ cur.toList ++ [emptyRule]
      else done ++ cur.toList) = done ++ [cur.getD emptyRule] := by
    cases cur <;> simp
  have hmodify (r : ResultRule) : (done ++ [r]).modify done.length set = done ++ [set r] := by
    rw [List.modify_eq_take_drop]
    simp
  have hvtoken : decodeVTokenAndAddRule done.length d (done ++ cur.toList) =
      (d', done ++ [cur.getD emptyRule], some t) := by
    unfold decodeVTokenAndAddRule
    rw [htoken, ← hrules]
    rfl
  unfold decodeResultRuleKey
  rw [hkey]
  dsimp only
  rw [rules_withRules, hvtoken]
  dsimp only
  rw [Option.bind_some, hset]
  dsimp only
  rw [setRule, rules_withRules, if_pos (by simp), Option.map_some, hmodify, withRules_withRules, withRules_withRules]

theorem advances_omitEmpty {empty : Prop} [Decidable empty] {key : String} {v : Json} {t : Token}
    {field : Token → Option (ResultRule → ResultRule)} {set : ResultRule → ResultRule} (htokens : v.tokens = [t])
    (hkey : ruleField key = some field) (hset : ¬ empty → field t = some set) (cur : Option ResultRule)
    (h : Decoder.Reads d (Json.tokensFields (omitEmpty empty key v)) d') :
    Advances ent (done.length, d, done ++ cur.toList)
      (done.length, d', done ++ (if empty then cur else some (set (cur.getD emptyRule))).toList) := by
  unfold omitEmpty at h
  split at h
  · rename_i hyes
    obtain rfl : d = d' := h
    rw [if_pos hyes]
    exact Advances.refl _
  · rename_i hno
    have hlen := h.length
    rw [Json.tokensFields, Json.tokensFields, List.append_nil, htokens] at h hlen
    obtain ⟨d₁, hstr, d₂, hvalue, rfl⟩ := h
    rw [if_neg hno]
    refine advances_of_round ?_ fun n => ?_
    · rw [List.length_cons] at hlen
      dsimp only
      omega
    · dsimp only
      rw [decodeResultRuleToken, hstr]
      dsimp only
      rw [decodeResultRuleKey_field hkey (hset hno) hvalue]
      rfl

theorem ne_invalid_isValid {a : Addr} (h : a ≠ .invalid) : a.isValid = true := by
  cases a with
  | invalid => exact absurd rfl h
  | v4 a => rfl
  | v6 a zone => rfl

/-- The rule that the fields of a rule are read as; `none` if no field is written. -/
def readRule (r : ResultRule) : Option ResultRule :=
  let cur := if r.text = "" then none else some { emptyRule with text := r.text }
  let cur := if r.ip = .invalid then cur else some { cur.getD emptyRule with ip := r.ip }
  if r.filterListID = 0 then cur else some { cur.getD emptyRule with filterListID := r.filterListID }

theorem readRule_eq {r : ResultRule} (h : r ≠ emptyRule) : readRule r = some r := by
  obtain ⟨text, ip, filterListID⟩ := r
  unfold readRule emptyRule
  unfold emptyRule at h
  by_cases htext : text = "" <;> by_cases hip : ip = .invalid <;> by_cases hid : filterListID = 0 <;> simp_all

/-- A rule of which something is written is read as the next one. -/
theorem advances_rule {r : ResultRule} (hne : r ≠ emptyRule) (hid : -2 ^ 63 ≤ r.filterListID ∧ r.filterListID < 2 ^ 63)
    (h : Decoder.Reads d (resultRuleJSON r).tokens d') :
    Advances ent (done.length, d, done) ((done ++ [r]).length, d', done ++ [r]) := by
  obtain ⟨d₁, hopen, hrest⟩ := h
  obtain ⟨d₂, hfields, d₃, hclose, rfl⟩ := Decoder.reads_append hrest
  rw [Json.tokensFields_append, Json.tokensFields_append, List.append_assoc] at hfields
  obtain ⟨d₄, htext, hfields⟩ := Decoder.reads_append hfields
  obtain ⟨d₅, hip, hlist⟩ := Decoder.reads_append hfields
  have hstart : Advances ent (done.length, d, done) (done.length, d₁, done ++ (none : Option ResultRule).toList) := by
    refine advances_of_round (Decoder.length_token hopen) fun n => ?_
    dsimp only
    rw [decodeResultRuleToken, hopen, Option.toList_none, List.append_nil]
    rfl
  have hvalid (hip : ¬ r.ip = .invalid) : (parseAddr (addrText r.ip)).map (fun ip r => { r with ip := ip }) =
      some fun r' : ResultRule => { r' with ip := r.ip } := by
    rw [parseAddr_addrText, if_pos (ne_invalid_isValid hip)]
    rfl
  have hnumber : some (fun r' : ResultRule => { r' with filterListID := int64Value (Json.decimal r.filterListID) }) =
      some fun r' => { r' with filterListID := r.filterListID } := by
    unfold int64Value
    rw [parseInt64_decimal hid]
  have hruns : Advances ent (done.length, d, done) (done.length, d₂, done ++ (readRule r).toList) :=
    ((hstart.trans (advances_omitEmpty rfl rfl (fun _ => rfl) none htext)).trans
      (advances_omitEmpty rfl rfl hvalid _ hip)).trans (advances_omitEmpty rfl rfl (fun _ => hnumber) _ hlist)
  rw [readRule_eq hne] at hruns
  refine hruns.trans (advances_of_round (Decoder.length_token hclose) fun n => ?_)
  dsimp only
  rw [decodeResultRuleToken, hclose]
  dsimp only
  rw [if_neg (by decide), if_pos rfl, List.length_append, List.length_singleton]
  rfl

theorem advances_rules {rs : List ResultRule} (hne : ∀ r ∈ rs, r ≠ emptyRule)
    (hid : ∀ r ∈ rs, -2 ^ 63 ≤ r.filterListID ∧ r.filterListID < 2 ^ 63)
    (h : Decoder.Reads d (Json.tokensElems (rs.map resultRuleJSON)) d') :
    Advances ent (done.length, d, done) ((done ++ rs).length, d', done ++ rs) := by
  induction rs generalizing d done with
  | nil =>
    obtain rfl : d = d' := h
    rw [List.append_nil]
    exact Advances.refl _
  | cons r rs ih =>
    obtain ⟨d₁, hr, hrs⟩ := Decoder.reads_append h
    have hrest := @ih (done ++ [r]) d₁ (fun r' hr' => hne r' (by simp [hr'])) (fun r' hr' => hid r' (by simp [hr'])) hrs
    rw [List.append_assoc, List.singleton_append] at hrest
    exact (advances_rule (hne r (by simp)) (hid r (by simp)) hr).trans hrest

/-- The rules are read. -/
theorem decodeResultRules_written {rs : List ResultRule} (hne : ∀ r ∈ rs, r ≠ emptyRule)
    (hid : ∀ r ∈ rs, -2 ^ 63 ≤ r.filterListID ∧ r.filterListID < 2 ^ 63) (hent : rules ent = [])
    (h : Decoder.Reads d (Json.tokens (.arr (rs.map resultRuleJSON))) d') :
    decodeResultRules d ent = some (d', withRules ent rs) := by
  obtain ⟨d₁, hopen, hrest⟩ := h
  obtain ⟨d₂, helems, d₃, hclose, rfl⟩ := Decoder.reads_append hrest
  have hadvances : Advances ent (0, d₁, []) _ := advances_rules hne hid helems
  obtain ⟨m, hm, heq⟩ := hadvances (d₁.rest.length + 1) (Nat.lt_succ_self _)
  obtain ⟨m, rfl⟩ : ∃ k, m = k + 1 := ⟨m - 1, by omega⟩
  have hsame : withRules ent [] = ent := by
    rw [← hent]
    rfl
  rw [hsame] at heq
  unfold decodeResultRules
  rw [hopen]
  dsimp only
  rw [heq]
  dsimp only
  rw [decodeResultRuleToken, hclose]
  rfl

end Rules

/-! ## The result -/

section Result

variable {env : DecodeEnv} {d d' : Decoder} {ent ent' : DecodedEntry} {k : String} {v : Json}

theorem decodeResultKeyValue_handled (hkey : k ≠ "") (hdec : ∀ d, resultDecHandler env k d ent = none)
    (h : Handled resultHandlers (k, v)) (hreads : Decoder.Reads d (.str k :: v.tokens) d') :
    decodeResultKeyValue env (d, ent) =
      some (true, d', { ent with entry := handled resultHandlers ent.entry (k, v) }) := by
  obtain ⟨d₁, htoken, hvalue⟩ := hreads
  have hhandled := decodeValue_handled h hvalue ent.entry
  rw [decodeResultKeyValue, parseKeyToken, htoken]
  dsimp only
  rw [if_neg hkey, hdec]
  dsimp only
  rw [decodeValue, hhandled]

theorem decodeResultKeyValue_dec (hkey : k ≠ "")
    (hdec : ∀ d₁, Decoder.Reads d₁ v.tokens d' → resultDecHandler env k d₁ ent = some (some (d', ent')))
    (hreads : Decoder.Reads d (.str k :: v.tokens) d') : decodeResultKeyValue env (d, ent) = some (true, d', ent') := by
  obtain ⟨d₁, htoken, hvalue⟩ := hreads
  rw [decodeResultKeyValue, parseKeyToken, htoken]
  dsimp only
  rw [if_neg hkey, hdec d₁ hvalue]
  rfl

/-- The rewrite of a result, if there is one, sets nothing else. -/
theorem runs_rewrite (rewrite : Option DNSRewriteResult)
    (h : Decoder.Reads d
      (Json.tokensFields (rewrite.toList.map fun r => ("DNSRewriteResult", dnsRewriteResultJSON r))) d') :
    ∃ rewrite', Runs (decodeResultKeyValue env) (d, ent) (d', { ent with rewrite := rewrite' }) := by
  cases rewrite with
  | none =>
    obtain rfl : d = d' := h
    exact ⟨ent.rewrite, Runs.refl _⟩
  | some r =>
    rw [Option.toList_some, List.map_singleton, Json.tokensFields, Json.tokensFields, List.append_nil] at h
    have hlen := h.length
    obtain ⟨d₁, htoken, hvalue⟩ := h
    obtain ⟨rewrite', heq⟩ := @decodeResultDNSRewriteResult_eq env d₁ ent _ (Nat.lt_succ_self _)
    rw [decodeResultDNSRewriteResult_rewrite r hvalue (Nat.lt_succ_self _)] at heq
    refine ⟨rewrite', runs_of_body ?_ ?_⟩
    · rw [decodeResultKeyValue, parseKeyToken, htoken]
      dsimp only
      rw [if_neg (by decide)]
      show (decodeResultDNSRewriteResult env (d₁.rest.length + 1) d₁ ent).map (fun s => (true, s)) = _
      rw [heq]
      rfl
    · rw [List.length_cons] at hlen
      dsimp only
      omega

/-- The result that is read before it is translated. -/
def readResult (r : EntryResult) : EntryResult :=
  { r with dnsRewriteResult := none, ipList := r.ipList.filter (·.isValid) }

/-- The fields of a result without a rewrite are read. -/
theorem runs_result (henv : ∀ s, env.isValidIPString s = (parseAddr s).isSome) {r : EntryResult}
    (hne : ∀ rule ∈ r.rules, rule ≠ emptyRule)
    (hid : ∀ rule ∈ r.rules, -2 ^ 63 ≤ rule.filterListID ∧ rule.filterListID < 2 ^ 63)
    (hent : ent.entry.result = {}) (hrewrite : r.dnsRewriteResult = none)
    (h : Decoder.Reads d (Json.tokensFields (r.head ++ r.tail)) d') :
    Runs (decodeResultKeyValue env) (d, ent) (d', { ent with entry.result := readResult r }) := by
  simp only [EntryResult.head, EntryResult.tail, hrewrite, Option.toList_none, List.map_nil, List.nil_append,
    Json.tokensFields_append, List.append_assoc] at h
  obtain ⟨d₁, hcanon, h⟩ := Decoder.reads_append h
  obtain ⟨d₂, hservice, h⟩ := Decoder.reads_append h
  obtain ⟨d₃, hips, h⟩ := Decoder.reads_append h
  obtain ⟨d₄, hrules, h⟩ := Decoder.reads_append h
  obtain ⟨d₅, hreason, hfiltered⟩ := Decoder.reads_append h
  -- the entry after so many fields
  let after (res : EntryResult) : DecodedEntry := { ent with entry.result := res }
  let res₁ : EntryResult := { canonName := r.canonName }
  let res₂ : EntryResult := { res₁ with serviceName := r.serviceName }
  let res₃ : EntryResult := { res₂ with ipList := r.ipList.filter (·.isValid) }
  let res₄ : EntryResult := { res₃ with rules := r.rules }
  let res₅ : EntryResult := { res₄ with reason := r.reason }
  have hstart : ent = after {} := by
    show ent = { ent with entry.result := {} }
    rw [← hent]
  have hcanon' : Runs (decodeResultKeyValue env) (d, after {}) (d₁, after res₁) := by
    refine runs_omitEmpty (fun h => ?_) (fun _ d hd => ?_) hcanon
    · show after {} = after { canonName := r.canonName }
      rw [h]
    · exact decodeResultKeyValue_handled (by decide) (fun _ => rfl) ⟨_, _, rfl, rfl, fun _ => rfl⟩ hd
  have hservice' : Runs (decodeResultKeyValue env) (d₁, after res₁) (d₂, after res₂) := by
    refine runs_omitEmpty (fun h => ?_) (fun _ d hd => ?_) hservice
    · show after res₁ = after { res₁ with serviceName := r.serviceName }
      rw [h]
    · exact decodeResultKeyValue_handled (by decide) (fun _ => rfl) ⟨_, _, rfl, rfl, fun _ => rfl⟩ hd
  have hips' : Runs (decodeResultKeyValue env) (d₂, after res₂) (d₃, after res₃) := by
    refine runs_omitEmpty (fun h => ?_) (fun _ d hd => ?_) hips
    · show after res₂ = after { res₂ with ipList := r.ipList.filter (·.isValid) }
      rw [h]
      rfl
    · refine decodeResultKeyValue_dec (by decide) (fun d hd => ?_) hd
      show some (decodeResultIPList env d (after res₂)) = _
      rw [decodeResultIPList_addrs henv r.ipList hd]
      rfl
  have hrules' : Runs (decodeResultKeyValue env) (d₃, after res₃) (d₄, after res₄) := by
    refine runs_omitEmpty (fun h => ?_) (fun _ d hd => ?_) hrules
    · show after res₃ = after { res₃ with rules := r.rules }
      rw [h]
    · refine decodeResultKeyValue_dec (by decide) (fun d hd => ?_) hd
      show some (decodeResultRules d (after res₃)) = _
      rw [decodeResultRules_written hne hid rfl hd]
      rfl
  have hreason' : Runs (decodeResultKeyValue env) (d₄, after res₄) (d₅, after res₅) := by
    refine runs_omitEmpty (fun h => ?_) (fun _ d hd => ?_) hreason
    · show after res₄ = after { res₄ with reason := r.reason }
      rw [h]
    · have hlt := r.reason.toNat_lt
      have hok : Handled resultHandlers ("Reason", .num r.reason.toNat) :=
        ⟨_, _, rfl, rfl, fun e => by rw [int64Handler, parseInt64_decimal (by omega)]⟩
      rw [decodeResultKeyValue_handled (by decide) (fun _ => rfl) hok hd]
      exact congrArg (fun e => some (true, d₅, (⟨e, ent.rewrite⟩ : DecodedEntry)))
        (handled_reason (after res₄).entry r.reason)
  have hfiltered' : Runs (decodeResultKeyValue env) (d₅, after res₅) (d', after { res₅ with
      isFiltered := r.isFiltered }) := by
    refine runs_omitEmpty (fun h => ?_) (fun h d hd => ?_) hfiltered
    · rw [h]
    · have htrue : r.isFiltered = true := by simpa using h
      rw [htrue]
      exact decodeResultKeyValue_handled (by decide) (fun _ => rfl) ⟨_, _, rfl, rfl, fun _ => rfl⟩ hd
  have hread : readResult r = { res₅ with isFiltered := r.isFiltered } := rfl
  rw [hread]
  nth_rewrite 1 [hstart]
  exact ((((hcanon'.trans hservice').trans hips').trans hrules').trans hreason').trans hfiltered'

/-- The result of an entry is read. -/
theorem decodeResult_written (henv : ∀ s, env.isValidIPString s = (parseAddr s).isSome) {r : EntryResult}
    (hne : ∀ rule ∈ r.rules, rule ≠ emptyRule)
    (hid : ∀ rule ∈ r.rules, -2 ^ 63 ≤ rule.filterListID ∧ rule.filterListID < 2 ^ 63) (hent : ent.entry.result = {})
    (h : Decoder.Reads d (Json.tokens (.obj (r.head ++ r.tail))) d') :
    ∃ rewrite, decodeResult env (d, ent) =
      some (d', translateResult ⟨{ ent.entry with result := readResult r }, rewrite⟩) := by
  obtain ⟨d₁, hopen, hrest⟩ := h
  obtain ⟨d₂, hfields, d₃, hclose, rfl⟩ := Decoder.reads_append hrest
  have hsplit : r.head ++ r.tail = r.dnsRewriteResult.toList.map
      (fun rewrite => ("DNSRewriteResult", dnsRewriteResultJSON rewrite)) ++
        (({ r with dnsRewriteResult := none } : EntryResult).head ++ r.tail) := by
    simp [EntryResult.head]
  rw [hsplit, Json.tokensFields_append] at hfields
  obtain ⟨d₄, hrewrite, hfields⟩ := Decoder.reads_append hfields
  obtain ⟨rewrite, hrun⟩ := @runs_rewrite env d₁ d₄ ent _ hrewrite
  have hrun' := @runs_result env d₄ d₂ { ent with rewrite := rewrite } henv { r with dnsRewriteResult := none } hne hid
    hent rfl hfields
  have hfirst : decodeResultKeyValue env (d, ent) = some (true, d₁, ent) := by
    rw [decodeResultKeyValue, parseKeyToken, hopen]
    rfl
  have hend (ent : DecodedEntry) : decodeResultKeyValue env (d₂, ent) = some (false, d₃, ent) := by
    rw [decodeResultKeyValue, parseKeyToken, hclose]
    rfl
  have hall := ((runs_of_body hfirst (Decoder.length_token hopen)).trans hrun).trans hrun'
  refine ⟨rewrite, ?_⟩
  unfold decodeResult
  rw [hall.repeatWhile_eq (hend _) (Nat.lt_succ_self _)]
  rfl

end Result

/-! ## Addresses of a rewrite -/

/-- The values of the records of a type. -/
def valuesOf (response : List (UInt16 × List RRAny)) (rrType : UInt16) : List RRAny :=
  ((response.find? (·.1 = rrType)).map (·.2)).getD []

theorem valuesOf_addRecord (response : List (UInt16 × List RRAny)) (rrType t : UInt16) (v : RRAny) :
    valuesOf (addRecord response rrType v) t =
      if t = rrType then valuesOf response t ++ [v] else valuesOf response t := by
  have hmap : valuesOf (response.map fun p => if p.1 = rrType then (p.1, p.2 ++ [v]) else p) t =
      if t = rrType ∧ response.any (·.1 = rrType) = true then valuesOf response t ++ [v] else valuesOf response t := by
    induction response with
    | nil => simp [valuesOf]
    | cons p response ih =>
      obtain ⟨t', vs⟩ := p
      unfold valuesOf at ih ⊢
      by_cases ht : t' = t <;> by_cases hrr : t' = rrType <;> grind
  unfold addRecord
  split
  · rename_i hany
    rw [hmap]
    simp [hany]
  · rename_i hany
    have hnone : response.find? (·.1 = rrType) = none :=
      List.find?_eq_none.2 fun p hp h => hany (List.any_eq_true.2 ⟨p, hp, h⟩)
    unfold valuesOf
    rw [List.find?_append]
    by_cases ht : t = rrType
    · subst ht
      simp [hnone]
    · have hne : rrType ≠ t := fun h => ht h.symm
      simp [ht, hne]

/-- The addresses are added to the records of their types. -/
theorem valuesOf_foldl (ips : List Addr) (response : List (UInt16 × List RRAny)) :
    let added := ips.foldl (fun response ip => addRecord response (if ip.is4 then 1 else 28) (.addr ip)) response
    valuesOf added 1 = valuesOf response 1 ++ (ips.filter (·.is4)).map .addr ∧
      valuesOf added 28 = valuesOf response 28 ++ (ips.filter (! ·.is4)).map .addr := by
  induction ips generalizing response with
  | nil => simp
  | cons ip ips ih =>
    obtain ⟨h4, h6⟩ := ih (addRecord response (if ip.is4 then 1 else 28) (.addr ip))
    dsimp only [List.foldl_cons]
    rw [h4, h6, valuesOf_addRecord, valuesOf_addRecord]
    by_cases his4 : ip.is4 = true <;> simp [his4]

/-- The values of the records of a type in the rewrite of an entry. -/
def rewriteValues (ent : DecodedEntry) (rrType : UInt16) : List RRAny :=
  valuesOf ((ent.rewrite.bind (·.response)).getD []) rrType

/-- The list of addresses that is read: the valid ones, but none if they are from a hosts file. -/
def readIPList (r : EntryResult) : List Addr :=
  if r.reason = rewrittenAutoHosts then [] else r.ipList.filter (·.isValid)

/-- The rewrite of an entry after its result is translated. -/
def readRewrite (r : EntryResult) (rewrite : Option DecodedRewrite) : Option DecodedRewrite :=
  (translateResult ⟨{ result := readResult r }, rewrite⟩).rewrite

/-- The translated result has the list of addresses that is read. -/
theorem translateResult_read (e : LogEntry) (r : EntryResult) (rewrite : Option DecodedRewrite) :
    translateResult ⟨{ e with result := readResult r }, rewrite⟩ =
      ⟨{ e with result := { r with dnsRewriteResult := none, ipList := readIPList r } }, readRewrite r rewrite⟩ := by
  unfold readRewrite translateResult readIPList readResult
  dsimp only
  by_cases hhosts : r.reason = rewrittenAutoHosts
  · rw [if_pos hhosts]
    by_cases hnil : r.ipList.filter (·.isValid) = []
    · rw [if_pos (.inr hnil), if_pos (.inr hnil), hnil]
    · rw [if_neg (by simp [hhosts, hnil]), if_neg (by simp [hhosts, hnil])]
  · rw [if_neg hhosts, if_pos (.inl hhosts), if_pos (.inl hhosts)]

/-- The addresses from a hosts file become records of the rewrite. -/
theorem values_readRewrite {r : EntryResult} (h : r.reason = rewrittenAutoHosts) (rewrite : Option DecodedRewrite)
    (e : LogEntry) :
    ((r.ipList.filter (·.isValid)).filter (·.is4)).map .addr <:+ rewriteValues ⟨e, readRewrite r rewrite⟩ 1 ∧
      ((r.ipList.filter (·.isValid)).filter (! ·.is4)).map .addr <:+ rewriteValues ⟨e, readRewrite r rewrite⟩ 28 := by
  unfold readRewrite translateResult readResult
  dsimp only
  generalize r.ipList.filter (·.isValid) = ips
  by_cases hnil : ips = []
  · rw [hnil]
    exact ⟨List.nil_suffix, List.nil_suffix⟩
  · obtain ⟨h4, h6⟩ := valuesOf_foldl ips ((rewrite.getD {}).response.getD [])
    rw [if_neg (by simp [h, hnil])]
    exact ⟨⟨_, h4.symm⟩, ⟨_, h6.symm⟩⟩

/-! ## The entry -/

section Entry

variable {env : DecodeEnv} {d d' : Decoder} {ent : DecodedEntry} {e : LogEntry}

theorem key_of_mem_head {time : String} {f : String × Json} (h : f ∈ e.head time) : f.1 ≠ "Result" := by
  simp only [LogEntry.head, List.mem_append, List.mem_cons, List.not_mem_nil, or_false] at h
  rcases h with (((((h | h) | h) | h) | h) | h) | h
  · rcases h with rfl | rfl | rfl | rfl
    all_goals simp
  · obtain ⟨rfl, -⟩ := mem_omitEmpty h
    simp
  · obtain ⟨rfl, -⟩ := mem_omitEmpty h
    simp
  · subst h
    simp
  all_goals
    obtain ⟨rfl, -⟩ := mem_omitEmpty h
    simp

theorem key_of_mem_tail {f : String × Json} (h : f ∈ e.tail) : f.1 ≠ "Result" := by
  simp only [LogEntry.tail, List.mem_append, List.mem_cons, List.not_mem_nil, or_false] at h
  rcases h with (h | h) | h
  · subst h
    simp
  all_goals
    obtain ⟨rfl, -⟩ := mem_omitEmpty h
    simp

/-- The fields of an entry outside of its result are read. -/
theorem runs_entryFields (r : EntryResult) {fields : List (String × Json)}
    (h : ∀ f ∈ fields, f.1 ≠ "Result" ∧ Handled logEntryHandlers f)
    (hreads : Decoder.Reads d (Json.tokensFields fields) d') :
    Runs (decodeLogEntryKeyValue env) (d, ent) (d', { ent with entry := fields.foldl (fieldRead r) ent.entry }) := by
  have hruns := @runs_fields (decodeLogEntryKeyValue env) fields
    (fun ent f => { ent with entry := fieldRead r ent.entry f }) (fun f hf d d' ent hd => by
      obtain ⟨hkey, hhandled⟩ := h f hf
      obtain ⟨d₁, htoken, hvalue⟩ := hd
      rw [decodeLogEntryKeyValue, htoken]
      dsimp only
      rw [if_neg hkey, decodeValue, decodeValue_handled hhandled hvalue, fieldRead, if_neg hkey]) d d' ent hreads
  have hfold (ent : DecodedEntry) :
      fields.foldl (fun ent f => { ent with entry := fieldRead r ent.entry f }) ent =
        { ent with entry := fields.foldl (fieldRead r) ent.entry } := by
    clear h hreads hruns
    induction fields generalizing ent with
    | nil => rfl
    | cons f fields ih => exact ih _
  rwa [hfold] at hruns

/-- What is read of an entry is what was written, with a list of addresses in its result. -/
structure Survives (e : LogEntry) (ipList : List Addr) (ent : LogEntry) : Prop where
  time : ent.time = e.time
  qHost : ent.qHost = e.qHost
  qType : ent.qType = e.qType
  qClass : ent.qClass = e.qClass
  reqECS : ent.reqECS = e.reqECS
  clientID : ent.clientID = e.clientID
  clientProto : ent.clientProto = e.clientProto
  upstream : ent.upstream = e.upstream
  answer : ent.answer = e.answer
  origAnswer : ent.origAnswer = e.origAnswer
  ip : equalIP e.ip ent.ip
  elapsed : ent.elapsed = e.elapsed
  cached : ent.cached = e.cached
  authenticatedData : ent.authenticatedData = e.authenticatedData
  reason : ent.result.reason = e.result.reason
  isFiltered : ent.result.isFiltered = e.result.isFiltered
  serviceName : ent.result.serviceName = e.result.serviceName
  canonName : ent.result.canonName = e.result.canonName
  ipList : ent.result.ipList = ipList
  rules : ent.result.rules = e.result.rules

/-- The text of the address of an entry is read as the address. -/
theorem equalIP_marshalIP {ip : IP} {text : String} (h : marshalIP ip = some text) : equalIP ip (parseIP text) := by
  unfold marshalIP at h
  split at h
  · rename_i hnil
    obtain rfl := Option.some.inj h
    rw [hnil]
    exact .inl (by decide)
  · split at h
    · rename_i hlen
      obtain rfl := Option.some.inj h
      exact equalIP_parseIP hlen
    · cases h

/-- The entry that is read from the line of an entry, with an address and a rewrite. -/
def readEntry (e : LogEntry) (ip : IP) (rewrite : Option DecodedRewrite) : DecodedEntry where
  entry :=
    { e with
      client := none, ip := ip, result := { e.result with dnsRewriteResult := none, ipList := readIPList e.result } }
  rewrite := readRewrite e.result rewrite

theorem survives_readEntry {ip : IP} (h : equalIP e.ip ip) (rewrite : Option DecodedRewrite) :
    Survives e (readIPList e.result) (readEntry e ip rewrite).entry := by
  constructor
  case ip => exact h
  all_goals rfl

section Line

variable (henv : ∀ s, env.isValidIPString s = (parseAddr s).isSome)
  (hne : ∀ r ∈ e.result.rules, r ≠ emptyRule)
  (hid : ∀ r ∈ e.result.rules, -2 ^ 63 ≤ r.filterListID ∧ r.filterListID < 2 ^ 63)

include henv hne hid in
/-- The result of an entry and the fields after it are read. -/
theorem runs_resultAndTail {ip : IP} (htail : ∀ f ∈ e.tail, Handled logEntryHandlers f)
    (hreads : Decoder.Reads d (Json.tokensFields (("Result", .obj (e.result.head ++ e.result.tail)) :: e.tail)) d') :
    ∃ rewrite, Runs (decodeLogEntryKeyValue env)
      (d, ⟨{ e with
        client := none, ip := ip, result := {}, elapsed := 0, cached := false, authenticatedData := false }, none⟩)
      (d', readEntry e ip rewrite) := by
  rw [Json.tokensFields, ← List.cons_append] at hreads
  obtain ⟨d₁, hresult, hfields⟩ := Decoder.reads_append hreads
  have hlen := hresult.length
  obtain ⟨d₂, htoken, hvalue⟩ := hresult
  let before : LogEntry :=
    { e with client := none, ip := ip, result := {}, elapsed := 0, cached := false, authenticatedData := false }
  obtain ⟨rewrite, hdecode⟩ := @decodeResult_written env d₂ d₁ ⟨before, none⟩ henv e.result hne hid rfl hvalue
  rw [translateResult_read] at hdecode
  have hbody : decodeLogEntryKeyValue env (d, ⟨before, none⟩) =
      some (true, d₁, ⟨{ before with
        result := { e.result with dnsRewriteResult := none, ipList := readIPList e.result } },
        readRewrite e.result rewrite⟩) := by
    rw [decodeLogEntryKeyValue, htoken]
    dsimp only
    rw [if_pos rfl, hdecode]
    rfl
  have hrun := @runs_entryFields env d₁ d' ⟨{ before with
      result := { e.result with dnsRewriteResult := none, ipList := readIPList e.result } },
      readRewrite e.result rewrite⟩ e.result e.tail (fun f hf => ⟨key_of_mem_tail hf, htail f hf⟩) hfields
  rw [foldl_entryTail e e.result _ ⟨rfl, rfl⟩] at hrun
  refine ⟨rewrite, (runs_of_body hbody ?_).trans hrun⟩
  rw [List.length_cons] at hlen
  dsimp only
  omega

include henv hne hid in
/-- The line of an entry is read. -/
theorem decodeLogEntry_readEntry {offset : ℤ} {cs : List Char} (h : e.encode offset = some cs) :
    ∃ ip rewrite, equalIP e.ip ip ∧ decodeLogEntry env {} (utf8 cs) = some (readEntry e ip rewrite) := by
  unfold LogEntry.encode at h
  split at h
  swap
  · cases h
  rename_i time ip htime hip
  obtain rfl := Option.some.inj h
  have hhandled (f : String × Json) (hf : f ∈ e.fields (String.ofList time) ip) (hkey : f.1 ≠ "Result") :
      Handled logEntryHandlers f := by
    obtain rfl | ⟨-, hf⟩ := handled_of_mem htime hf
    · exact absurd rfl hkey
    · exact hf
  have hmem (f : String × Json) (hf : f ∈ e.head (String.ofList time) ++ [("IP", .str ip)]) :
      f.1 ≠ "Result" ∧ f ∈ e.fields (String.ofList time) ip := by
    rw [List.mem_append, List.mem_singleton] at hf
    rcases hf with hf | rfl
    · exact ⟨key_of_mem_head hf, List.mem_append_left _ hf⟩
    · exact ⟨by simp, List.mem_append_right _ List.mem_cons_self⟩
  -- the places in the line
  obtain ⟨d₁, hopen, hrest⟩ := Decoder.reads_new (.obj (e.fields (String.ofList time) ip))
  obtain ⟨d₂, hfields, d₃, hclose, rfl⟩ := Decoder.reads_append hrest
  have hsplit : e.fields (String.ofList time) ip = (e.head (String.ofList time) ++ [("IP", .str ip)]) ++
      (("Result", .obj (e.result.head ++ e.result.tail)) :: e.tail) := by
    rw [LogEntry.fields, List.append_assoc]
    rfl
  rw [hsplit, Json.tokensFields_append] at hfields
  obtain ⟨d₄, hhead, hfields⟩ := Decoder.reads_append hfields
  have hread : (e.head (String.ofList time) ++ [("IP", Json.str ip)]).foldl (fieldRead e.result) {} =
      { e with
        client := none, ip := parseIP ip, result := {}, elapsed := 0, cached := false, authenticatedData := false } := by
    rw [List.foldl_append, foldl_entryHead (parseRFC3339Nano_format htime)]
    rfl
  have hrunHead := @runs_entryFields env d₁ d₄ {} e.result _
    (fun f hf => ⟨(hmem f hf).1, hhandled f (hmem f hf).2 (hmem f hf).1⟩) hhead
  rw [hread] at hrunHead
  obtain ⟨rewrite, hrunTail⟩ := @runs_resultAndTail env d₄ d₂ e henv hne hid (parseIP ip)
    (fun f hf => hhandled f (List.mem_append_right _ (by simp [hf])) (key_of_mem_tail hf)) hfields
  have hfirst : decodeLogEntryKeyValue env (Decoder.new (Json.render (.obj (e.fields (String.ofList time) ip))), {}) =
      some (true, d₁, {}) := by
    rw [decodeLogEntryKeyValue, hopen]
  have hlast : decodeLogEntryKeyValue env (d₂, readEntry e (parseIP ip) rewrite) =
      some (true, ⟨[], .topValue, []⟩, readEntry e (parseIP ip) rewrite) := by
    rw [decodeLogEntryKeyValue, hclose]
  have hall := (((runs_of_body hfirst (Decoder.length_token hopen)).trans hrunHead).trans hrunTail).trans
    (runs_of_body hlast (Decoder.length_token hclose))
  have hlen : (Json.render (.obj (e.fields (String.ofList time) ip))).length <
      (Json.render (.obj (e.fields (String.ofList time) ip))).length + 1 := Nat.lt_succ_self _
  refine ⟨parseIP ip, rewrite, equalIP_marshalIP hip, ?_⟩
  rw [decodeLogEntry, runes_utf8, hall.repeatWhile_eq rfl hlen]
  rfl

end Line

/-- The line of an entry is read as the entry. -/
theorem decodeLogEntry_written {env : DecodeEnv} (henv : ∀ s, env.isValidIPString s = (parseAddr s).isSome)
    {e : LogEntry} (hid : ∀ r ∈ e.result.rules, -2 ^ 63 ≤ r.filterListID ∧ r.filterListID < 2 ^ 63)
    (hne : ∀ r ∈ e.result.rules, r ≠ emptyRule) {offset : ℤ} {cs : List Char} (h : e.encode offset = some cs) :
    ∃ ent, decodeLogEntry env {} (utf8 cs) = some ent ∧ Survives e (readIPList e.result) ent.entry ∧
      (e.result.reason = rewrittenAutoHosts →
        ((e.result.ipList.filter (·.isValid)).filter (·.is4)).map .addr <:+ rewriteValues ent 1 ∧
        ((e.result.ipList.filter (·.isValid)).filter (! ·.is4)).map .addr <:+ rewriteValues ent 28) := by
  obtain ⟨ip, rewrite, hip, hdecode⟩ := decodeLogEntry_readEntry henv hne hid h
  exact ⟨_, hdecode, survives_readEntry hip rewrite, fun hhosts => values_readRewrite hhosts rewrite _⟩

end Entry

/-- A query that a rule blocks. -/
def blockedEntry : LogEntry where
  time := ⟨1700000000, 123456789⟩
  qHost := "example.org"
  qType := "A"
  qClass := "IN"
  ip := [192, 0, 2, 1]
  answer := [0, 1, 128]
  result :=
    { isFiltered := true, reason := 3, rules := [⟨"||example.org^", .invalid, 1⟩, ⟨"", .v4 0x7f000001, 0⟩],
      ipList := [.v4 0x7f000001] }

theorem decodeLogEntry_written_blocked :
    ∃ cs ent, blockedEntry.encode 0 = some cs ∧ decodeLogEntry netutilEnv {} (utf8 cs) = some ent ∧
      Survives blockedEntry [.v4 0x7f000001] ent.entry := by
  obtain ⟨cs, hcs⟩ : ∃ cs, blockedEntry.encode 0 = some cs := Option.isSome_iff_exists.1 (by decide +kernel)
  obtain ⟨ent, hdecode, hsurvives, -⟩ :=
    @decodeLogEntry_written netutilEnv (fun _ => rfl) blockedEntry (by decide) (by decide) 0 cs hcs
  exact ⟨cs, ent, hcs, hdecode, hsurvives⟩

/-- A query that is answered from a hosts file. -/
def hostsEntry : LogEntry where
  time := ⟨1700000000, 0⟩
  qHost := "example.org"
  qType := "A"
  qClass := "IN"
  ip := [192, 0, 2, 1]
  result := { reason := rewrittenAutoHosts, ipList := [.v4 0x01020304] }

/-- The list of addresses of an answer from a hosts file is not read. -/
theorem not_survives_hosts :
    ¬ ∀ env : DecodeEnv, (∀ s, env.isValidIPString s = (parseAddr s).isSome) →
      ∀ e : LogEntry, (∀ r ∈ e.result.rules, -2 ^ 63 ≤ r.filterListID ∧ r.filterListID < 2 ^ 63) →
      ∀ offset cs, e.encode offset = some cs →
        ∃ ent, decodeLogEntry env {} (utf8 cs) = some ent ∧ Survives e e.result.ipList ent.entry := by
  intro h
  have hread : (hostsEntry.encode 0).bind
      (fun cs => (decodeLogEntry netutilEnv {} (utf8 cs)).map fun ent => ent.entry.result.ipList) = some [] := by
    decide +kernel
  obtain ⟨cs, hcs, hmap⟩ := Option.bind_eq_some_iff.1 hread
  obtain ⟨ent, hdecode, hnil⟩ := Option.map_eq_some_iff.1 hmap
  obtain ⟨ent', hdecode', hsurvives⟩ := h netutilEnv (fun _ => rfl) hostsEntry (by decide) 0 cs hcs
  obtain rfl := Option.some.inj (hdecode.symm.trans hdecode')
  have hlist := hsurvives.ipList
  rw [hnil] at hlist
  cases hlist

end Decoding

end AdGuardHome.Querylog
