import AdGuardHome.Lib.Json
import AdGuardHome.Lib.Lower

/-!
# Keys in the text of a value

A scan of the text of a value for `"key":` finds the text of the first value, in the order of the text, whose key ends
in `key`: no other part of the text looks like a key.
-/

namespace AdGuardHome.Lib.Json

variable {α : Type}

/-! ## Texts without a pattern -/

/-- The pattern starts at no place in the list, with the tail after it. -/
def Free (p cs tail : List α) : Prop := ∀ i < cs.length, ¬ p <+: (cs ++ tail).drop i

section free

variable {p cs ds tail : List α} {c : α}

theorem Free.nil : Free p [] tail := fun _ h => absurd h (Nat.not_lt_zero _)

theorem Free.cons (h : ¬ p <+: c :: (cs ++ tail)) (hcs : Free p cs tail) : Free p (c :: cs) tail := by
  intro i hi
  cases i with
  | zero => exact h
  | succ i => exact hcs i (Nat.lt_of_succ_lt_succ hi)

theorem Free.append (h : Free p cs (ds ++ tail)) (hds : Free p ds tail) : Free p (cs ++ ds) tail := by
  intro i hi
  rw [List.append_assoc]
  obtain hlt | hle := Nat.lt_or_ge i cs.length
  · exact h i hlt
  · obtain ⟨j, rfl⟩ := Nat.exists_eq_add_of_le hle
    rw [List.length_append] at hi
    rw [List.drop_append, List.drop_eq_nil_of_le (by omega), List.nil_append, Nat.add_sub_cancel_left]
    exact hds j (by omega)

theorem Free.of_not_mem (h : c ∉ cs) : Free (c :: p) cs tail := by
  induction cs with
  | nil => exact Free.nil
  | cons d cs ih =>
    rw [List.mem_cons, not_or] at h
    exact Free.cons (fun hp => h.1 (List.cons_prefix_cons.1 hp).1) (ih h.2)

end free

/-! ## Keys -/

/-- `"key":` with what comes after it. -/
def keyText (key ext : List Char) : List Char := quote :: (key ++ quote :: ':' :: ext)

/-- The key is a word that is written as it is. -/
def Word (key : List Char) : Prop := key ≠ [] ∧ ∀ c ∈ key, c.isAlpha = true

instance (key : List Char) : Decidable (Word key) := @instDecidableAnd _ _ _ (List.decidableBAll _ key)

/-- The text of `k` ends in that of the key, the first quotation mark included. -/
def EndsIn (key : List Char) (k : String) : Prop := quote :: key <:+ quote :: k.toList

instance (key : List Char) (k : String) : Decidable (EndsIn key k) := inferInstanceAs (Decidable (_ <:+ _))

/-- A value ends before the text. -/
def Closing (cs : List Char) : Prop := ∀ c ∈ cs.head?, c = ',' ∨ c = ']' ∨ c = '\x7d'

variable {key ext : List Char}

theorem ne_of_isAlpha {c d : Char} (hc : c.isAlpha = true) (hd : d.isAlpha = false) : c ≠ d := by
  rintro rfl
  rw [hc] at hd
  cases hd

theorem hexChar_ne_quote {n : ℕ} (h : n < 16) : hexChar n ≠ quote := by
  revert n
  decide

theorem escapeChar_of_not_escaped {c : Char} (h : escaped c = false) : escapeChar c = [c] := by
  have hshort : shortEscape c = none := by
    unfold shortEscape
    split_ifs with hsame hb hf hn hr ht
    · obtain rfl | rfl := hsame <;> cases h
    all_goals
      first
      | rfl
      | subst c; cases h
  unfold escapeChar
  rw [hshort, h]
  rfl

theorem not_escaped_of_isAlpha {c : Char} (h : c.isAlpha = true) : escaped c = false := by
  have hcode : 65 ≤ c.toNat ∧ c.toNat ≤ 122 := by
    have hcases := isAlpha_iff.1 h
    have hc : c.toNat = c.val.toNat := rfl
    omega
  simp only [escaped, Bool.or_eq_false_iff, decide_eq_false_iff_not, beq_eq_false_iff_ne]
  refine ⟨⟨⟨⟨⟨⟨⟨by omega, ?_⟩, ?_⟩, ?_⟩, ?_⟩, ?_⟩, ?_⟩, ?_⟩
  all_goals
    rintro rfl
    revert h
    decide

theorem flatMap_word {cs : List Char} (h : ∀ c ∈ cs, escaped c = false) : cs.flatMap escapeChar = cs := by
  induction cs with
  | nil => rfl
  | cons c cs ih =>
    rw [List.flatMap_cons, escapeChar_of_not_escaped (h c (by simp)), ih fun d hd => h d (by simp [hd])]
    rfl

/-- The text of a character is the character, or a backslash and no quotation mark but that of the character. -/
theorem escapeChar_cases (c : Char) :
    (escapeChar c = [c] ∧ c ≠ quote) ∨ ∃ cs, escapeChar c = backslash :: cs ∧ (quote ∉ cs ∨ c = quote ∧ cs = [quote]) := by
  unfold escapeChar
  split
  · rename_i e he
    refine .inr ⟨[e], rfl, ?_⟩
    unfold shortEscape at he
    split_ifs at he with hsame
    · obtain rfl := Option.some.inj he
      obtain rfl | rfl := hsame
      · exact .inr ⟨rfl, rfl⟩
      · exact .inl (by decide)
    all_goals
      obtain rfl := Option.some.inj he
      exact .inl (by decide)
  · rename_i hshort
    split
    · refine .inr ⟨_, rfl, .inl ?_⟩
      have hhex : ∀ m, quote ≠ hexChar (m % 16) := fun m => (hexChar_ne_quote (Nat.mod_lt m (by decide))).symm
      simp [hex4, hhex, show quote ≠ 'u' by decide]
    · refine .inl ⟨rfl, ?_⟩
      rintro rfl
      cases hshort

/-- A word before a quotation mark is a whole string. -/
theorem word_prefix (hkey : ∀ c ∈ key, c.isAlpha = true) {cs q tail : List Char}
    (h : key ++ quote :: q <+: cs.flatMap escapeChar ++ quote :: tail) : cs = key ∧ q <+: tail := by
  induction cs generalizing key with
  | nil =>
    cases key with
    | nil => exact ⟨rfl, (List.cons_prefix_cons.1 h).2⟩
    | cons d key =>
      exact absurd (List.cons_prefix_cons.1 h).1 (ne_of_isAlpha (hkey d (by simp)) (by decide))
  | cons c cs ih =>
    rw [List.flatMap_cons, List.append_assoc] at h
    cases key with
    | nil =>
      obtain ⟨hc, hne⟩ | ⟨ds, hc, -⟩ := escapeChar_cases c
      · rw [hc] at h
        exact absurd (List.cons_prefix_cons.1 h).1 hne.symm
      · rw [hc] at h
        exact absurd (List.cons_prefix_cons.1 h).1 (by decide)
    | cons d key =>
      have hd := hkey d (by simp)
      obtain ⟨hc, -⟩ | ⟨ds, hc, -⟩ := escapeChar_cases c
      · rw [hc] at h
        obtain ⟨rfl, hrest⟩ := List.cons_prefix_cons.1 h
        obtain ⟨rfl, htail⟩ := ih (fun c hc => hkey c (by simp [hc])) hrest
        exact ⟨rfl, htail⟩
      · rw [hc] at h
        exact absurd (List.cons_prefix_cons.1 h).1 (ne_of_isAlpha hd (by decide))

/-- The key starts at no quotation mark in or before a part of a string, if the rest of the string from there on is
another one. -/
theorem free_flatMap (hkey : Word key) {xs ys tail : List Char}
    (h : ∀ zs, quote :: zs <:+ xs → zs ++ ys = key → ¬ ':' :: ext <+: tail) :
    Free (keyText key ext) (xs.flatMap escapeChar) (ys.flatMap escapeChar ++ quote :: tail) := by
  induction xs with
  | nil => exact Free.nil
  | cons c xs ih =>
    rw [List.flatMap_cons]
    refine Free.append ?_ (ih fun zs hzs => h zs (hzs.trans (List.suffix_cons _ _)))
    obtain ⟨hc, hne⟩ | ⟨ds, hc, hds⟩ := escapeChar_cases c
    · rw [hc]
      exact Free.of_not_mem (by simp [hne.symm])
    · rw [hc]
      obtain hds | ⟨rfl, rfl⟩ := hds
      · exact Free.of_not_mem (by simp [hds, show quote ≠ backslash by decide])
      · refine Free.cons (fun hp => absurd (List.cons_prefix_cons.1 hp).1 (by decide))
          (Free.cons (fun hp => ?_) Free.nil)
        have hp := (List.cons_prefix_cons.1 hp).2
        rw [List.nil_append, ← List.append_assoc, ← List.flatMap_append] at hp
        obtain ⟨hzs, htail⟩ := word_prefix hkey.2 hp
        exact h xs (List.suffix_refl _) hzs htail

/-- The same with the quotation mark before the string. -/
theorem free_quote_flatMap (hkey : Word key) {xs ys tail : List Char}
    (h : ∀ zs, quote :: zs <:+ quote :: xs → zs ++ ys = key → ¬ ':' :: ext <+: tail) :
    Free (keyText key ext) (quote :: xs.flatMap escapeChar) (ys.flatMap escapeChar ++ quote :: tail) := by
  refine Free.cons (fun hp => ?_) (free_flatMap hkey fun zs hzs => h zs (hzs.trans (List.suffix_cons _ _)))
  have hp := (List.cons_prefix_cons.1 hp).2
  rw [← List.append_assoc, ← List.flatMap_append] at hp
  obtain ⟨hzs, htail⟩ := word_prefix hkey.2 hp
  exact h xs (List.suffix_refl _) hzs htail

/-- The key starts at no place in a string that does not end in it or is no key. -/
theorem free_quoted (hkey : Word key) {k : String} {tail : List Char} (htail : ∀ c ∈ tail.head?, c.isAlpha = false)
    (h : EndsIn key k → ¬ ':' :: ext <+: tail) : Free (keyText key ext) (quoted k) tail := by
  have hclose : Free (keyText key ext) [quote] tail := by
    refine Free.cons (fun hp => ?_) Free.nil
    obtain ⟨c, cs, hcs⟩ := List.exists_cons_of_ne_nil hkey.1
    have hp := (List.cons_prefix_cons.1 hp).2
    rw [hcs, List.nil_append] at hp
    cases tail with
    | nil => exact absurd hp (by simp)
    | cons d tail =>
      have hc := hkey.2 c (by simp [hcs])
      rw [(List.cons_prefix_cons.1 hp).1, htail d (by simp)] at hc
      cases hc
  have hopen := @free_quote_flatMap key ext hkey k.toList [] tail
    fun zs hzs hzk => h (by rw [EndsIn, ← hzk, List.append_nil]; exact hzs)
  exact @Free.append _ _ (quote :: escape k) _ _ hopen hclose

/-- A string that ends in the key has the key in its text, and not before. -/
theorem quoted_of_endsIn (hkey : Word key) {k : String} (h : EndsIn key k) (tail : List Char) :
    ∃ pre, quoted k = pre ++ quote :: (key ++ [quote]) ∧
      Free (keyText key ext) pre (quote :: (key ++ quote :: tail)) := by
  have hplain := flatMap_word fun c hc => not_escaped_of_isAlpha (hkey.2 c hc)
  obtain ⟨t, ht⟩ := h
  cases t with
  | nil =>
    refine ⟨[], ?_, Free.nil⟩
    rw [quoted, escape, ← (List.cons.inj ht).2, hplain]
    rfl
  | cons d xs =>
    obtain ⟨rfl, hk⟩ := List.cons.inj ht
    refine ⟨quote :: xs.flatMap escapeChar ++ [backslash], ?_, ?_⟩
    · rw [quoted, escape, ← hk]
      simp [hplain, escapeChar, shortEscape]
    · have hfree := @free_quote_flatMap key ext hkey xs (quote :: key) tail
        fun zs _ hzs => absurd (hzs ▸ List.mem_append_right zs List.mem_cons_self) fun hmem =>
          absurd (hkey.2 quote hmem) (by decide)
      refine Free.append ?_ (Free.of_not_mem (by decide))
      rw [List.flatMap_cons, hplain] at hfree
      exact hfree

/-! ## The first value with a key -/

/-- A field whose key ends in the word and whose value starts with the text. -/
def Hit (key ext : List Char) (k : String) (v : Json) : Prop := EndsIn key k ∧ ext <+: render v

instance (key ext : List Char) (k : String) (v : Json) : Decidable (Hit key ext k v) :=
  inferInstanceAs (Decidable (_ ∧ _))

mutual

/-- The value of the first field, in the order of the text, that is hit. -/
def lookup (key ext : List Char) : Json → Option Json
  | null | bool _ | num _ | str _ => none
  | arr vs => lookupElems key ext vs
  | obj fields => lookupFields key ext fields

def lookupElems (key ext : List Char) : List Json → Option Json
  | [] => none
  | v :: vs => (lookup key ext v).or (lookupElems key ext vs)

def lookupFields (key ext : List Char) : List (String × Json) → Option Json
  | [] => none
  | (k, v) :: fields =>
    if Hit key ext k v then some v else (lookup key ext v).or (lookupFields key ext fields)

end

/-- The first text of the key in `cs`, with the tail after it, is the one before the text of the value; without a value
there is none. -/
def Shows (key ext cs tail : List Char) : Option Json → Prop
  | none => Free (keyText key ext) cs tail
  | some v => ∃ pre c post, (c = ',' ∨ c = '\x7d') ∧ ext <+: render v ∧
      cs ++ tail = pre ++ (keyText key [] ++ (render v ++ c :: post)) ∧
        Free (keyText key ext) pre (keyText key [] ++ (render v ++ c :: post))

theorem Shows.append {cs ds tail : List Char} {v w : Option Json} (h : Shows key ext cs (ds ++ tail) v)
    (h' : Shows key ext ds tail w) : Shows key ext (cs ++ ds) tail (v.or w) := by
  cases v with
  | none =>
    cases w with
    | none => exact Free.append h h'
    | some w =>
      obtain ⟨pre, c, post, hc, hext, htext, hfree⟩ := h'
      refine ⟨cs ++ pre, c, post, hc, hext, by rw [List.append_assoc, htext, List.append_assoc], Free.append ?_ hfree⟩
      rw [← htext]
      exact h
  | some v =>
    obtain ⟨pre, c, post, hc, hext, htext, hfree⟩ := h
    exact ⟨pre, c, post, hc, hext, by rw [List.append_assoc, htext], hfree⟩

theorem shows_of_not_mem {cs tail : List Char} (h : quote ∉ cs) : Shows key ext cs tail none := Free.of_not_mem h

theorem closing_cons {c : Char} {cs : List Char} (h : c = ',' ∨ c = ']' ∨ c = '\x7d') : Closing (c :: cs) := by
  intro d hd
  obtain rfl : c = d := by simpa using hd
  exact h

theorem Closing.not_isAlpha {cs : List Char} (h : Closing cs) : ∀ c ∈ cs.head?, c.isAlpha = false := by
  intro c hc
  obtain rfl | rfl | rfl := h c hc <;> decide

theorem Closing.not_colon {cs : List Char} (h : Closing cs) : ¬ ':' :: ext <+: cs := by
  intro hp
  cases cs with
  | nil => exact absurd hp (by simp)
  | cons c cs =>
    have hc := (List.cons_prefix_cons.1 hp).1
    obtain h | h | h := h c (by simp) <;> exact absurd (hc.trans h) (by decide)

theorem prefix_of_prefix_render_append (hext : ext = [] ∨ ext = [quote]) {v : Json} {cs : List Char}
    (h : ext <+: render v ++ cs) : ext <+: render v := by
  obtain rfl | rfl := hext
  · exact List.nil_prefix
  · obtain ⟨c, ds, hv, -⟩ := render_starts v
    rw [hv, List.cons_append] at h
    rw [hv, (List.cons_prefix_cons.1 h).1]
    exact List.cons_prefix_cons.2 ⟨rfl, List.nil_prefix⟩

theorem renderFields_rest (fields : List (String × Json)) (tail : List Char) :
    ∃ c post, renderFields true fields ++ '\x7d' :: tail = c :: post ∧ (c = ',' ∨ c = '\x7d') := by
  cases fields with
  | nil => exact ⟨_, _, rfl, .inr rfl⟩
  | cons f fields => exact ⟨_, _, rfl, .inl rfl⟩

theorem renderElems_rest (vs : List Json) (tail : List Char) : Closing (renderElems true vs ++ [']'] ++ tail) := by
  cases vs with
  | nil => exact closing_cons (.inr (.inl rfl))
  | cons v vs => exact closing_cons (.inl rfl)

theorem not_mem_comma (comma : Bool) : quote ∉ (if comma then [','] else []) := by
  cases comma <;> decide

/-- The first field is hit. -/
theorem shows_hit (hkey : Word key) {k : String} {v : Json} (h : Hit key ext k v) (comma : Bool)
    (fields : List (String × Json)) (tail : List Char) :
    Shows key ext (renderFields comma ((k, v) :: fields) ++ ['\x7d']) tail (some v) := by
  obtain ⟨c, post, hpost, hc⟩ := renderFields_rest fields tail
  obtain ⟨pre, hpre, hfree⟩ := @quoted_of_endsIn key ext hkey k h.1 (':' :: (render v ++ c :: post))
  refine ⟨(if comma then [','] else []) ++ pre, c, post, hc, h.2, ?_, ?_⟩
  · rw [renderFields, hpre, ← hpost]
    simp [keyText]
  · have hrest : keyText key [] ++ (render v ++ c :: post) =
        quote :: (key ++ quote :: ':' :: (render v ++ c :: post)) := by
      simp [keyText]
    rw [hrest]
    exact Free.append (Free.of_not_mem (not_mem_comma comma)) hfree

mutual

/-- The text of a value shows the value of its first field that is hit. -/
theorem shows_render (hkey : Word key) (hext : ext = [] ∨ ext = [quote]) (v : Json) {tail : List Char}
    (htail : Closing tail) : Shows key ext (render v) tail (lookup key ext v) := by
  cases v with
  | null => exact shows_of_not_mem (by decide)
  | bool b => cases b <;> exact shows_of_not_mem (by decide)
  | num n =>
    refine shows_of_not_mem fun hmem => ?_
    rw [render, decimal] at hmem
    have hdigits : quote ∉ Nat.toDigits 10 n.natAbs := fun h => absurd (isDigit_of_mem_toDigits h) (by decide)
    split at hmem
    · obtain h | h := List.mem_cons.1 hmem
      · exact absurd h (by decide)
      · exact hdigits h
    · exact hdigits hmem
  | str s => exact free_quoted hkey htail.not_isAlpha fun _ => htail.not_colon
  | arr vs =>
    have hopen : Shows key ext ['['] (renderElems false vs ++ [']'] ++ tail) none := shows_of_not_mem (by decide)
    exact hopen.append (shows_elems hkey hext vs false)
  | obj fields =>
    have hopen : Shows key ext ['\x7b'] (renderFields false fields ++ ['\x7d'] ++ tail) none :=
      shows_of_not_mem (by decide)
    exact hopen.append (shows_fields hkey hext fields false)

theorem shows_elems (hkey : Word key) (hext : ext = [] ∨ ext = [quote]) (vs : List Json) (comma : Bool)
    {tail : List Char} : Shows key ext (renderElems comma vs ++ [']']) tail (lookupElems key ext vs) := by
  cases vs with
  | nil =>
    rw [renderElems]
    exact shows_of_not_mem (by decide)
  | cons v vs =>
    have hrest := (shows_render hkey hext v (renderElems_rest vs tail)).append (shows_elems hkey hext vs true)
    rw [renderElems, List.append_assoc, List.append_assoc]
    exact (shows_of_not_mem (not_mem_comma comma)).append hrest

theorem shows_fields (hkey : Word key) (hext : ext = [] ∨ ext = [quote]) (fields : List (String × Json)) (comma : Bool)
    {tail : List Char} : Shows key ext (renderFields comma fields ++ ['\x7d']) tail (lookupFields key ext fields) := by
  match fields with
  | [] =>
    rw [renderFields]
    exact shows_of_not_mem (by decide)
  | (k, v) :: fields =>
    rw [lookupFields]
    split
    · rename_i h
      exact shows_hit hkey h comma fields tail
    · rename_i h
      obtain ⟨c, post, hpost, hc⟩ := renderFields_rest fields tail
      have hclosing : Closing (renderFields true fields ++ ['\x7d'] ++ tail) := by
        rw [List.append_assoc, List.singleton_append, hpost]
        exact closing_cons (hc.imp_right .inr)
      have hrest := (shows_render hkey hext v hclosing).append (shows_fields hkey hext fields true)
      have hquoted : Shows key ext (quoted k) (([':'] ++ (render v ++ (renderFields true fields ++ ['\x7d']))) ++ tail)
          none := by
        refine free_quoted hkey (by simp) fun hend hp => h ⟨hend, ?_⟩
        have hp := (List.cons_prefix_cons.1 hp).2
        exact prefix_of_prefix_render_append hext (by simpa using hp)
      have hcolon : Shows key ext [':'] (render v ++ (renderFields true fields ++ ['\x7d']) ++ tail) none :=
        shows_of_not_mem (by decide)
      have hall := (shows_of_not_mem (not_mem_comma comma)).append (hquoted.append (hcolon.append hrest))
      rw [renderFields]
      simpa using hall

end

end AdGuardHome.Lib.Json
