import Mathlib.Data.List.Basic

/-!
# Lexical file paths

`join` and `clean` do to a path with forward slashes what the functions of `path/filepath` do to it on Unix: the
elements are joined by slashes, and the empty elements, the `.` elements and the `..` elements with what they
undo are taken out.  Two names that are ordinary elements give two paths in one directory (`join_inj`), and a cleaned
path ends in an ordinary element (`ordinary_suffix`).  `glob` is `filepath.Match`: a pattern is bad for all names or for
none (`isSome_glob`), and one that ends in a star has the files of its directory (`glob_star_iff`).
-/

namespace AdGuardHome.Lib.Filepath

/-- Takes the element into the cleaned ones, which are in reverse order. -/
def push (rooted : Bool) (out : List (List Char)) (elem : List Char) : List (List Char) :=
  if elem = [] ∨ elem = ['.'] then
    out
  else if elem = ['.', '.'] then
    match out with
    | [] => if rooted then [] else [elem]
    | last :: rest => if last = ['.', '.'] then elem :: out else rest
  else
    elem :: out

/-- The path with the elements, which are in reverse order. -/
def render (rooted : Bool) (out : List (List Char)) : List Char :=
  (if rooted then ['/'] else []) ++ ['/'].intercalate out.reverse

def isAbs (path : List Char) : Bool := path.head? == some '/'

/-- `filepath.Clean` -/
def clean (path : List Char) : List Char :=
  match isAbs path, (path.splitOn '/').foldl (push (isAbs path)) [] with
  | false, [] => ['.']
  | rooted, out => render rooted out

/-- `filepath.Join` -/
def join (elems : List (List Char)) : List Char :=
  match elems.dropWhile (·.isEmpty) with
  | [] => []
  | es => clean (['/'].intercalate es)

/-- `filepath.Base`: the last element. -/
def base (path : List Char) : List Char :=
  if path = [] then ['.']
  else
    match (path.reverse.dropWhile (· = '/')).takeWhile (· ≠ '/') with
    | [] => ['/']
    | elem => elem.reverse

/-- What follows the last slash, the second result of `filepath.Split`. -/
def splitFile (path : List Char) : List Char := (path.reverse.takeWhile (· ≠ '/')).reverse

theorem base_ne_nil (path : List Char) : base path ≠ [] := by
  unfold base
  split
  · exact List.cons_ne_nil _ _
  · split
    · exact List.cons_ne_nil _ _
    · rename_i hne
      simpa using hne

/-- What an element is that a path keeps as it is. -/
structure Ordinary (elem : List Char) : Prop where
  ne_nil : elem ≠ []
  ne_dot : elem ≠ ['.']
  ne_dots : elem ≠ ['.', '.']
  no_slash : '/' ∉ elem

variable {elem name name' : List Char}

theorem Ordinary.push_eq (h : Ordinary elem) (rooted : Bool) (out : List (List Char)) :
    push rooted out elem = elem :: out := by
  simp [push, h.ne_nil, h.ne_dot, h.ne_dots]

theorem intercalate_concat (sep : List Char) (es : List (List Char)) (e elem : List Char) :
    sep.intercalate (es ++ [e, elem]) = sep.intercalate (es ++ [e]) ++ (sep ++ elem) := by
  induction es with
  | nil => simp [List.intercalate]
  | cons x es ih =>
    cases es with
    | nil => simp [List.intercalate]
    | cons y es =>
      simp only [List.cons_append, List.intercalate_cons_cons] at ih ⊢
      rw [ih]
      simp

theorem render_cons (rooted : Bool) (elem e : List Char) (out : List (List Char)) :
    render rooted (elem :: e :: out) = render rooted (e :: out) ++ '/' :: elem := by
  simp only [render, List.reverse_cons, List.append_assoc, List.cons_append, List.nil_append]
  rw [intercalate_concat]
  rfl

/-- A path that ends in two ordinary elements ends in them after it is cleaned. -/
theorem clean_ends {path : List Char} {es : List (List Char)} (he : Ordinary elem) (hn : Ordinary name)
    (h : path.splitOn '/' = es ++ [elem, name]) :
    clean path = render (isAbs path) (elem :: es.foldl (push (isAbs path)) []) ++ '/' :: name := by
  have hout : (path.splitOn '/').foldl (push (isAbs path)) [] =
      name :: elem :: es.foldl (push (isAbs path)) [] := by
    rw [h, List.foldl_append]
    simp only [List.foldl_cons, List.foldl_nil, he.push_eq, hn.push_eq]
  unfold clean
  rw [hout, ← render_cons]
  cases isAbs path <;> rfl

theorem splitOn_pair (he : Ordinary elem) (hn : Ordinary name) :
    (elem ++ '/' :: name).splitOn '/' = [elem, name] := by
  rw [List.splitOn_append_cons_self, List.splitOn_eq_singleton he.no_slash,
    List.splitOn_eq_singleton hn.no_slash]
  rfl

theorem isAbs_append (he : Ordinary elem) (cs : List Char) : isAbs (elem ++ cs) = false := by
  cases elem with
  | nil => exact absurd rfl he.ne_nil
  | cons c elem =>
    have hc : c ≠ '/' := fun h => he.no_slash (by simp [h])
    simpa [isAbs] using hc

/-- All names have one path before them in the directory `elem` of `dir`. -/
theorem join_ends (dir : List Char) (he : Ordinary elem) :
    ∃ pre, ∀ name, Ordinary name → join [dir, elem, name] = pre ++ '/' :: name := by
  cases dir with
  | nil =>
    refine ⟨render false [elem], fun name hn => ?_⟩
    have hjoin : join [[], elem, name] = clean (elem ++ '/' :: name) := by
      cases elem with
      | nil => exact absurd rfl he.ne_nil
      | cons c elem => simp [join, List.intercalate]
    rw [hjoin, clean_ends he hn (show _ = [] ++ [elem, name] from splitOn_pair he hn), isAbs_append he]
    rfl
  | cons c dir =>
    refine ⟨render (c == '/') (elem :: ((c :: dir).splitOn '/').foldl (push (c == '/')) []), fun name hn => ?_⟩
    have hjoin : join [c :: dir, elem, name] = clean ((c :: dir) ++ '/' :: (elem ++ '/' :: name)) := by
      simp [join, List.intercalate]
    rw [hjoin]
    refine clean_ends he hn ?_
    rw [List.splitOn_append_cons_self, splitOn_pair he hn]

/-- `join` puts two names into one directory of `dir` under two paths. -/
theorem join_inj (dir : List Char) (he : Ordinary elem) (hn : Ordinary name) (hn' : Ordinary name')
    (h : join [dir, elem, name] = join [dir, elem, name']) : name = name' := by
  obtain ⟨pre, hpre⟩ := join_ends dir he
  rw [hpre name hn, hpre name' hn'] at h
  exact (List.cons_inj_right '/').1 (List.append_cancel_left h)

/-! ## Cleaned paths -/

theorem push_ordinary {out : List (List Char)} (hout : ∀ e ∈ out, Ordinary e) {e : List Char} (he : '/' ∉ e) :
    ∀ e' ∈ push true out e, Ordinary e' := by
  unfold push
  split
  · exact hout
  · rename_i hne
    split
    · cases out with
      | nil => simp
      | cons last rest =>
        have hlast := (hout last (by simp)).ne_dots
        dsimp only
        rw [if_neg hlast]
        exact fun e' he' => hout e' (List.mem_cons_of_mem _ he')
    · rename_i hdots
      intro e' he'
      rcases List.mem_cons.1 he' with rfl | he'
      · exact ⟨fun h => hne (.inl h), fun h => hne (.inr h), hdots, he⟩
      · exact hout e' he'

theorem not_mem_of_mem_splitOn {path e : List Char} (h : e ∈ path.splitOn '/') : '/' ∉ e := by
  induction path generalizing e with
  | nil =>
    rw [List.splitOn_nil] at h
    rw [List.mem_singleton.1 h]
    exact List.not_mem_nil
  | cons c path ih =>
    rw [List.splitOn_cons_eq_if_modifyHead] at h
    by_cases hc : c = '/'
    · rw [if_pos (beq_iff_eq.2 hc)] at h
      rcases List.mem_cons.1 h with rfl | h
      · exact List.not_mem_nil
      · exact ih h
    · obtain ⟨x, xs, hsplit⟩ := List.exists_cons_of_ne_nil (List.splitOn_ne_nil '/' path)
      rw [if_neg (by simpa using hc), hsplit, List.modifyHead_cons] at h
      rcases List.mem_cons.1 h with rfl | h
      · have hx := ih (e := x) (by rw [hsplit]; simp)
        simpa [hx] using Ne.symm hc
      · exact ih (by rw [hsplit]; exact List.mem_cons_of_mem _ h)

/-- The elements of a rooted path after it is cleaned, in reverse order. -/
def elems (path : List Char) : List (List Char) := (path.splitOn '/').foldl (push true) []

theorem clean_of_isAbs {path : List Char} (h : isAbs path = true) : clean path = render true (elems path) := by
  unfold clean elems
  rw [h]

theorem ordinary_foldl {es out : List (List Char)} (hout : ∀ e ∈ out, Ordinary e) (hes : ∀ e ∈ es, '/' ∉ e) :
    ∀ e ∈ es.foldl (push true) out, Ordinary e := by
  induction es generalizing out with
  | nil => exact hout
  | cons e es ih =>
    exact ih (push_ordinary hout (hes e (by simp))) fun e' he' => hes e' (List.mem_cons_of_mem _ he')

theorem ordinary_elems (path : List Char) : ∀ e ∈ elems path, Ordinary e :=
  ordinary_foldl (by simp) fun _ he => not_mem_of_mem_splitOn he

theorem foldl_push_ordinary {es : List (List Char)} (hes : ∀ e ∈ es, Ordinary e) (out : List (List Char)) :
    es.foldl (push true) out = es.reverse ++ out := by
  induction es generalizing out with
  | nil => rfl
  | cons e es ih =>
    rw [List.foldl_cons, (hes e (by simp)).push_eq, ih fun e' he' => hes e' (List.mem_cons_of_mem _ he')]
    simp

/-- A path of ordinary elements is clean. -/
theorem elems_render {out : List (List Char)} (hout : ∀ e ∈ out, Ordinary e) : elems (render true out) = out := by
  cases out with
  | nil => rfl
  | cons e out =>
    have hrev : ∀ e' ∈ (e :: out).reverse, Ordinary e' := fun e' he' => hout e' (List.mem_reverse.1 he')
    have hsplit : (render true (e :: out)).splitOn '/' = [] :: (e :: out).reverse := by
      have h : (([] : List Char) ++ '/' :: ['/'].intercalate (e :: out).reverse).splitOn '/' = _ :=
        List.splitOn_append_cons_self_of_not_mem List.not_mem_nil _
      rw [List.splitOn_intercalate '/' (fun e' he' => (hrev e' he').no_slash) (by simp)] at h
      exact h
    unfold elems
    rw [hsplit, List.foldl_cons]
    rw [show push true [] [] = [] from rfl, foldl_push_ordinary hrev]
    simp

theorem clean_clean {path : List Char} (h : isAbs path = true) : clean (clean path) = clean path := by
  rw [clean_of_isAbs h, clean_of_isAbs (show isAbs (render true (elems path)) = true from rfl),
    elems_render (ordinary_elems path)]

/-- What a path has after its last slash. -/
theorem suffix_unique {pre pre' e e' : List Char} (he : '/' ∉ e) (he' : '/' ∉ e') (h : pre ++ '/' :: e = pre' ++ '/' :: e') :
    pre = pre' ∧ e = e' := by
  have hsplit := congrArg (fun path => (path.splitOn '/').getLast?) h
  simp only [List.splitOn_append_cons_self, List.splitOn_eq_singleton he, List.splitOn_eq_singleton he',
    List.getLast?_concat, Option.some.injEq] at hsplit
  subst hsplit
  exact ⟨List.append_cancel_right h, rfl⟩

/-- A clean path with something after the last slash ends in an ordinary element. -/
theorem ordinary_suffix {path pre e : List Char} (habs : isAbs path = true) (he : '/' ∉ e) (hpre : pre ≠ [])
    (h : clean path = pre ++ '/' :: e) : Ordinary e := by
  rw [clean_of_isAbs habs] at h
  cases hout : elems path with
  | nil =>
    rw [hout] at h
    have hlen := congrArg List.length h
    have hpos := List.length_pos_iff.2 hpre
    simp [render] at hlen
    omega
  | cons x out =>
    have hx : Ordinary x := ordinary_elems path x (by rw [hout]; simp)
    rw [hout] at h
    have hlast : ∃ pre', render true (x :: out) = pre' ++ '/' :: x := by
      cases out with
      | nil => exact ⟨[], by simp [render, List.intercalate]⟩
      | cons y out => exact ⟨_, render_cons true x y out⟩
    obtain ⟨pre', hpre'⟩ := hlast
    rw [hpre'] at h
    rw [← (suffix_unique hx.no_slash he h).2]
    exact hx

/-! ## Patterns -/

/-- `getEsc`: a character of a class, with what follows it; `none` is `ErrBadPattern`. -/
def getEsc : List Char → Option (Char × List Char)
  | [] => none
  | c :: chunk =>
    if c = '-' ∨ c = ']' then none
    else
      match (if c = '\\' then chunk else c :: chunk) with
      | [] => none
      | [_] => none
      | r :: chunk => some (r, chunk)

/-- The loop over the ranges of a class: whether one of them has `r`, and what follows the class. -/
def matchRanges (r : Char) : ℕ → Bool → List Char → Option (Bool × List Char)
  | 0, _, _ => none
  | n + 1, nonempty, chunk =>
    if chunk.head? = some ']' ∧ nonempty then some (false, chunk.tail)
    else
      match getEsc chunk with
      | none => none
      | some (lo, chunk) =>
        match (if chunk.head? = some '-' then getEsc chunk.tail else some (lo, chunk)) with
        | none => none
        | some (hi, chunk) =>
          match matchRanges r n true chunk with
          | none => none
          | some (hit, chunk) => some ((lo ≤ r && r ≤ hi) || hit, chunk)

/-- The character is at the front. -/
def matchLiteral (c : Char) (s : Option (List Char)) : Option (List Char) :=
  s.bind fun s => if s.head? = some c then some s.tail else none

/-- The loop of `matchChunk`, `s` being `none` once the match has failed. -/
def matchChunkFrom : ℕ → List Char → Option (List Char) → Option (Option (List Char))
  | _, [], s => some s
  | 0, _ :: _, _ => none
  | n + 1, c :: chunk, s =>
    let s := s.filter (· ≠ [])
    if c = '[' then
      let negated : Bool := chunk.head? == some '^'
      let chunk := if negated then chunk.tail else chunk
      match matchRanges ((s.bind List.head?).getD '\x00') chunk.length false chunk with
      | none => none
      | some (hit, chunk) => matchChunkFrom n chunk (if hit = negated then none else s.map List.tail)
    else if c = '?' then matchChunkFrom n chunk ((s.filter (·.head? ≠ some '/')).map List.tail)
    else if c = '\\' then
      match chunk with
      | [] => none
      | c :: chunk => matchChunkFrom n chunk (matchLiteral c s)
    else matchChunkFrom n chunk (matchLiteral c s)

/-- `matchChunk`: what is left of the name if the chunk matches; `none` is `ErrBadPattern`. -/
def matchChunk (chunk s : List Char) : Option (Option (List Char)) := matchChunkFrom chunk.length chunk (some s)

/-- The loop of `scanChunk`: the pattern up to a star that is neither in a class nor escaped, and the rest. -/
def chunkEnd (inrange escaped : Bool) : List Char → List Char × List Char
  | [] => ([], [])
  | c :: pattern =>
    if escaped then
      match chunkEnd inrange false pattern with
      | (chunk, rest) => (c :: chunk, rest)
    else if c = '*' ∧ !inrange then ([], c :: pattern)
    else
      match chunkEnd (if c = '[' then true else if c = ']' then false else inrange) (c = '\\') pattern with
      | (chunk, rest) => (c :: chunk, rest)

/-- `scanChunk` -/
def scanChunk (pattern : List Char) : Bool × List Char × List Char :=
  (pattern.head? == some '*', chunkEnd false false (pattern.dropWhile (· = '*')))

/-- The first match of the chunk after some characters that are no slashes, which must take all of the name if the
chunk is the last one. -/
def skipTo (chunk : List Char) (last : Bool) : List Char → Option (List Char)
  | [] => none
  | c :: name =>
    if c = '/' then none
    else
      match (matchChunk chunk name).join.filter fun t => !last || t.isEmpty with
      | some t => some t
      | none => skipTo chunk last name

/-- The check that the remainder of the pattern is syntactically valid. -/
def wellFormed : ℕ → List Char → Bool
  | _, [] => true
  | 0, _ :: _ => false
  | n + 1, c :: pattern =>
    match scanChunk (c :: pattern) with
    | (_, chunk, rest) => (matchChunk chunk []).isSome && wellFormed n rest

/-- The loop of `filepath.Match`. -/
def matchFrom : ℕ → List Char → List Char → Option Bool
  | _, [], name => some name.isEmpty
  | 0, _ :: _, _ => none
  | n + 1, c :: pattern, name =>
    match scanChunk (c :: pattern) with
    | (star, chunk, rest) =>
      if star ∧ chunk = [] then some (!name.contains '/')
      else
        match matchChunk chunk name with
        | none => none
        | some res =>
          match res.filter fun t => t.isEmpty || !rest.isEmpty with
          | some t => matchFrom n rest t
          | none =>
            match (if star then skipTo chunk rest.isEmpty name else none) with
            | some t => matchFrom n rest t
            | none => if wellFormed n rest then some false else none

/-- `filepath.Match` on Unix; `none` is `ErrBadPattern`. -/
def glob (pattern name : List Char) : Option Bool := matchFrom pattern.length pattern name

example : glob "/data/*.[tl]xt".toList "/data/a.txt".toList = some true := by decide +kernel
example : glob "/data/[a".toList "/".toList = none := by decide +kernel

/-- What follows a class does not depend on the character. -/
theorem matchRanges_rest (r r' : Char) (n : ℕ) (nonempty : Bool) (chunk : List Char) :
    (matchRanges r n nonempty chunk).map Prod.snd = (matchRanges r' n nonempty chunk).map Prod.snd := by
  induction n generalizing nonempty chunk with
  | zero => rfl
  | succ n ih =>
    unfold matchRanges
    split
    · rfl
    · cases getEsc chunk with
      | none => rfl
      | some lo =>
        dsimp only
        cases (if lo.2.head? = some '-' then getEsc lo.2.tail else some (lo.1, lo.2)) with
        | none => rfl
        | some hi =>
          have hrest := ih true hi.2
          dsimp only
          cases hr : matchRanges r n true hi.2 with
          | none =>
            rw [hr] at hrest
            cases hr' : matchRanges r' n true hi.2 with
            | none => rfl
            | some res =>
              rw [hr'] at hrest
              cases hrest
          | some res =>
            rw [hr] at hrest
            cases hr' : matchRanges r' n true hi.2 with
            | none =>
              rw [hr'] at hrest
              cases hrest
            | some res' =>
              rw [hr'] at hrest
              exact hrest

/-- A chunk is bad whatever it is matched with. -/
theorem isSome_matchChunkFrom (n : ℕ) (chunk : List Char) (s s' : Option (List Char)) :
    (matchChunkFrom n chunk s).isSome = (matchChunkFrom n chunk s').isSome := by
  induction n generalizing chunk s s' with
  | zero => cases chunk <;> rfl
  | succ n ih =>
    cases chunk with
    | nil => rfl
    | cons c chunk =>
      unfold matchChunkFrom
      dsimp only
      split
      · have hrest := matchRanges_rest (((s.filter (· ≠ [])).bind List.head?).getD '\x00')
          (((s'.filter (· ≠ [])).bind List.head?).getD '\x00')
          (if (chunk.head? == some '^') = true then chunk.tail else chunk).length false
          (if (chunk.head? == some '^') = true then chunk.tail else chunk)
        generalize matchRanges (((s.filter (· ≠ [])).bind List.head?).getD '\x00') _ _ _ = res at hrest ⊢
        generalize matchRanges (((s'.filter (· ≠ [])).bind List.head?).getD '\x00') _ _ _ = res' at hrest ⊢
        cases res with
        | none =>
          cases res' with
          | none => rfl
          | some res' => cases hrest
        | some res =>
          cases res' with
          | none => cases hrest
          | some res' =>
            have heq : res.2 = res'.2 := Option.some.inj hrest
            dsimp only
            rw [heq]
            exact ih _ _ _
      · split
        · exact ih _ _ _
        · split
          · cases chunk with
            | nil => rfl
            | cons c' chunk => exact ih _ _ _
          · exact ih _ _ _

theorem isSome_matchChunk (chunk name name' : List Char) :
    (matchChunk chunk name).isSome = (matchChunk chunk name').isSome := isSome_matchChunkFrom _ _ _ _

theorem chunkEnd_nil {pattern rest : List Char} (hstar : pattern.head? ≠ some '*')
    (h : chunkEnd false false pattern = ([], rest)) : rest = [] := by
  cases pattern with
  | nil =>
    cases h
    rfl
  | cons c pattern =>
    have hc : ¬ (c = '*' ∧ (!false) = true) := fun hc => hstar (congrArg some hc.1)
    rw [chunkEnd, if_neg Bool.false_ne_true, if_neg hc] at h
    cases h

theorem head?_dropWhile_star (pattern : List Char) : (pattern.dropWhile (· = '*')).head? ≠ some '*' := by
  intro h
  have hfalse := List.head?_dropWhile_not (fun c : Char => decide (c = '*')) pattern
  rw [h] at hfalse
  exact absurd hfalse (by decide)

theorem wellFormed_nil (n : ℕ) : wellFormed n [] = true := by cases n <;> rfl

/-- A pattern is bad whatever it is matched with. -/
theorem isSome_matchFrom (n : ℕ) (pattern name : List Char) :
    (matchFrom n pattern name).isSome = wellFormed n pattern := by
  induction n generalizing pattern name with
  | zero => cases pattern <;> rfl
  | succ n ih =>
    cases pattern with
    | nil => rfl
    | cons c pattern =>
      rw [matchFrom, wellFormed]
      obtain ⟨⟨star, chunk, rest⟩, hscan⟩ : ∃ r, scanChunk (c :: pattern) = r := ⟨_, rfl⟩
      rw [hscan]
      dsimp only
      by_cases hstar : star = true ∧ chunk = []
      · rw [if_pos hstar]
        have hend := congrArg Prod.snd hscan
        rw [hstar.2] at hend
        rw [hstar.2, chunkEnd_nil (head?_dropWhile_star _) hend, wellFormed_nil]
        rfl
      · rw [if_neg hstar]
        have hbad := isSome_matchChunk chunk name []
        rw [← hbad]
        cases matchChunk chunk name with
        | none => rfl
        | some res =>
          dsimp only
          rw [Option.isSome_some, Bool.true_and]
          cases res.filter fun t => t.isEmpty || !rest.isEmpty with
          | some t => exact ih rest t
          | none =>
            cases (if star = true then skipTo chunk rest.isEmpty name else none) with
            | some t => exact ih rest t
            | none =>
              dsimp only
              generalize wellFormed n rest = well
              cases well <;> rfl

theorem isSome_glob (pattern name name' : List Char) : (glob pattern name).isSome = (glob pattern name').isSome := by
  unfold glob
  rw [isSome_matchFrom, isSome_matchFrom]

/-! ## Patterns of all files of a directory -/

/-- The character stands for itself in a pattern. -/
def Plain (c : Char) : Prop := c ≠ '*' ∧ c ≠ '?' ∧ c ≠ '[' ∧ c ≠ '\\'

theorem chunkEnd_plain {dir : List Char} (h : ∀ c ∈ dir, Plain c) (rest : List Char) :
    chunkEnd false false (dir ++ '*' :: rest) = (dir, '*' :: rest) := by
  induction dir with
  | nil => rfl
  | cons c dir ih =>
    obtain ⟨hstar, -, hclass, hesc⟩ := h c (by simp)
    have hrest := ih fun c' hc' => h c' (List.mem_cons_of_mem _ hc')
    have hrange : (if c = ']' then false else false) = false := ite_self _
    rw [List.cons_append, chunkEnd, if_neg Bool.false_ne_true, if_neg fun hc => hstar hc.1, if_neg hclass, hrange,
      decide_eq_false hesc, hrest]

theorem matchChunkFrom_failed {chunk : List Char} (h : ∀ c ∈ chunk, Plain c) :
    matchChunkFrom chunk.length chunk none = some none := by
  induction chunk with
  | nil => rfl
  | cons c chunk ih =>
    obtain ⟨-, hany, hclass, hesc⟩ := h c (by simp)
    unfold matchChunkFrom
    dsimp only [List.length_cons]
    rw [if_neg hclass, if_neg hany, if_neg hesc]
    exact ih fun c' hc' => h c' (List.mem_cons_of_mem _ hc')

theorem matchChunkFrom_plain {chunk : List Char} (h : ∀ c ∈ chunk, Plain c) (name : List Char) :
    matchChunkFrom chunk.length chunk (some name) = some (if chunk <+: name then some (name.drop chunk.length) else none) := by
  induction chunk generalizing name with
  | nil => simp [matchChunkFrom]
  | cons c chunk ih =>
    obtain ⟨-, hany, hclass, hesc⟩ := h c (by simp)
    have htail : ∀ c' ∈ chunk, Plain c' := fun c' hc' => h c' (List.mem_cons_of_mem _ hc')
    unfold matchChunkFrom
    dsimp only [List.length_cons]
    rw [if_neg hclass, if_neg hany, if_neg hesc]
    cases name with
    | nil => exact (matchChunkFrom_failed htail).trans (by simp)
    | cons x name =>
      have hfilter : (some (x :: name)).filter (· ≠ []) = some (x :: name) := rfl
      rw [hfilter]
      by_cases hx : x = c
      · subst hx
        have hlit : matchLiteral x (some (x :: name)) = some name := if_pos rfl
        rw [hlit, ih htail name]
        simp
      · have hlit : matchLiteral c (some (x :: name)) = none := if_neg fun heq => hx (Option.some.inj heq)
        have hne : ¬ (c :: chunk) <+: x :: name := fun hpre => hx (List.cons_prefix_cons.1 hpre).1.symm
        rw [hlit, if_neg hne, matchChunkFrom_failed htail]

/-- The pattern `dir/*` matches what is in the directory, and not what is in directories of it. -/
theorem glob_star_iff {dir : List Char} (h : ∀ c ∈ dir, Plain c) (name : List Char) :
    glob (dir ++ ['/', '*']) name = some true ↔ ∃ e, name = dir ++ '/' :: e ∧ '/' ∉ e := by
  have hchunk : ∀ c ∈ dir ++ ['/'], Plain c := by
    intro c hc
    rcases List.mem_append.1 hc with hc | hc
    · exact h c hc
    · rw [List.mem_singleton.1 hc]
      exact ⟨by decide, by decide, by decide, by decide⟩
  have hscan : scanChunk (dir ++ ['/', '*']) = (false, dir ++ ['/'], ['*']) := by
    have hhead : (dir ++ ['/', '*']).head? ≠ some '*' := by
      cases dir with
      | nil => exact fun heq => absurd heq (by decide)
      | cons c dir => exact fun heq => (h c (by simp)).1 (Option.some.inj heq)
    have hdrop : (dir ++ ['/', '*']).dropWhile (· = '*') = (dir ++ ['/']) ++ '*' :: [] := by
      rw [List.append_assoc]
      cases dir with
      | nil => rfl
      | cons c dir => exact List.dropWhile_cons_of_neg (by simpa using (h c (by simp)).1)
    unfold scanChunk
    rw [hdrop, chunkEnd_plain hchunk, beq_eq_false_iff_ne.2 hhead]
  have hmatch : matchChunk (dir ++ ['/']) name =
      some (if dir ++ ['/'] <+: name then some (name.drop (dir ++ ['/']).length) else none) :=
    matchChunkFrom_plain hchunk name
  obtain ⟨c, pattern, hcons⟩ := List.exists_cons_of_ne_nil (show dir ++ ['/', '*'] ≠ [] by simp)
  have hlen : pattern.length = dir.length + 1 := by
    have hcount := congrArg List.length hcons
    simp at hcount
    omega
  unfold glob
  rw [hcons, List.length_cons, matchFrom, ← hcons, hscan]
  dsimp only
  rw [if_neg fun hstar => absurd hstar.1 Bool.false_ne_true, hmatch, hlen]
  by_cases hpre : dir ++ ['/'] <+: name
  · obtain ⟨e, rfl⟩ := hpre
    rw [if_pos (List.prefix_append _ _), List.drop_left]
    have hlast : matchFrom (dir.length + 1) ['*'] e = some (!e.contains '/') := rfl
    dsimp only [Option.filter]
    simp only [List.isEmpty_cons, Bool.not_false, Bool.or_true, if_true, hlast, Option.some.injEq]
    constructor
    · intro hslash
      refine ⟨e, by simp, ?_⟩
      simpa using hslash
    · rintro ⟨e', heq, hslash⟩
      rw [List.append_assoc] at heq
      obtain rfl : e = e' := by simpa using heq
      simpa using hslash
  · rw [if_neg hpre]
    have hrest : wellFormed (dir.length + 1) ['*'] = true := wellFormed_nil _
    dsimp only [Option.filter]
    rw [if_neg Bool.false_ne_true, hrest]
    refine iff_of_false (by simp) ?_
    rintro ⟨e, rfl, -⟩
    exact hpre ⟨e, by simp⟩

end AdGuardHome.Lib.Filepath
