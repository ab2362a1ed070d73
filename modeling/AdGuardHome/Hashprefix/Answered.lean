import AdGuardHome.Hashprefix.Cached

/-!
# Checks that are answered from the cache (`internal/filtering/hashprefix/cache.go`)

Each prefix has an entry of its own in the cache, with the time at which it expires.  After an answer of the upstream
the prefixes that were asked for have new entries, those with blocked hashes in any case and the others if they had no
entry before, so that the host is checked without the upstream until one of its entries expires
(`check_again`).  An entry without hashes that has expired is not written again (`get_step_missing`).
-/

namespace AdGuardHome.Hashprefix

open AdGuardHome.Lib

variable {S : Set HostnameHash} {c c' : Checker} {conf : Config} {env : Env} {hashes : List HostnameHash}
  {now t until' : ℤ} {h : HostnameHash} {i k n : ℕ}

/-! ## Entries by their expiry -/

/-- There is no entry for the prefix of the hash, or it has expired. -/
def Checker.expired (c : Checker) (now : ℤ) (hash : HostnameHash) : Bool :=
  match c.cache.get hash.pref with
  | none => true
  | some data => (toCacheItem data).elim true fun item => decide (item.expiry < now)

/-- The entry for the prefix of the hash does not expire before the time. -/
def Lasting (c : Checker) (until' : ℤ) (hash : HostnameHash) : Prop :=
  ∃ data item, c.cache.get hash.pref = some data ∧ toCacheItem data = some item ∧ until' ≤ item.expiry

theorem Lasting.not_expired (hl : Lasting c until' h) (hnow : now ≤ until') : c.expired now h = false := by
  obtain ⟨data, item, hget, hitem, hexpiry⟩ := hl
  rw [Checker.expired, hget]
  dsimp only
  rw [hitem]
  simpa using hnow.trans hexpiry

/-- What the lookup does with a hash. -/
theorem findLoop_succ {res : Bool × Bool × List HostnameHash} (hk : hashes[k]? = some h)
    (hloop : c.findLoop now (n + 1) k i hashes = some res) :
    (c.expired now h = true ∧ c.findLoop now n (k + 1) (i + 1) (hashes.set i h) = some res) ∨
      (c.expired now h = false ∧ ∃ data item, c.cache.get h.pref = some data ∧ toCacheItem data = some item ∧
        ((findMatch hashes item.hashes = true ∧ res = (true, true, [])) ∨
          (findMatch hashes item.hashes = false ∧ c.findLoop now n (k + 1) i hashes = some res))) := by
  unfold Checker.findLoop at hloop
  unfold Checker.expired
  rw [hk] at hloop
  dsimp only at hloop
  cases hget : c.cache.get h.pref with
  | none =>
    rw [hget] at hloop
    exact .inl ⟨rfl, hloop⟩
  | some data =>
    rw [hget] at hloop
    dsimp only at hloop ⊢
    cases hitem : toCacheItem data with
    | none =>
      rw [hitem] at hloop
      cases hloop
    | some item =>
      rw [hitem] at hloop
      dsimp only at hloop
      rw [Option.elim_some]
      split at hloop
      · rename_i hlt
        exact .inl ⟨decide_eq_true hlt, hloop⟩
      · rename_i hlt
        refine .inr ⟨decide_eq_false hlt, data, item, rfl, hitem, ?_⟩
        split at hloop
        · rename_i hmatch
          exact .inl ⟨hmatch, (Option.some.inj hloop).symm⟩
        · rename_i hmatch
          exact .inr ⟨Bool.eq_false_iff.2 hmatch, hloop⟩

/-- The hashes that are requested are those without an entry that has not expired. -/
theorem findLoop_unknown {blocked : Bool} {asked : List HostnameHash} (hik : i ≤ k) (hn : n + k = hashes.length)
    (hloop : c.findLoop now n k i hashes = some (false, blocked, asked)) :
    asked = hashes.take i ++ (hashes.drop k).filter (c.expired now) ∧ asked ≠ [] := by
  induction n generalizing k i hashes with
  | zero =>
    unfold Checker.findLoop at hloop
    split at hloop
    · cases hloop
    · rename_i hi
      cases hloop
      rw [List.drop_eq_nil_of_le (by omega), List.filter_nil, List.append_nil]
      refine ⟨rfl, List.ne_nil_of_length_pos ?_⟩
      rw [List.length_take]
      omega
  | succ n ih =>
    have hlt : k < hashes.length := by omega
    have hk : hashes[k]? = some hashes[k] := List.getElem?_eq_getElem hlt
    rw [List.drop_eq_getElem_cons hlt, List.filter_cons]
    rcases findLoop_succ hk hloop with ⟨hexpired, hrest⟩ | ⟨hexpired, data, item, -, -, ⟨-, hfound⟩ | ⟨-, hrest⟩⟩
    · -- the hash is written where those before it end, and no later hash changes
      obtain ⟨hasked, hne⟩ := ih (by omega) (by rw [List.length_set]; omega) hrest
      refine ⟨?_, hne⟩
      rw [if_pos hexpired, hasked, List.drop_set_of_lt (by omega), List.take_add_one, List.getElem?_set_self (by omega),
        List.take_set_of_le le_rfl]
      simp
    · cases hfound
    · rw [if_neg (Bool.eq_false_iff.1 hexpired)]
      exact ih (by omega) (by omega) hrest

theorem findInCache_unknown {blocked : Bool} {asked : List HostnameHash}
    (hfind : c.findInCache now hashes = some (false, blocked, asked)) :
    asked = hashes.filter (c.expired now) ∧ asked ≠ [] := by
  simpa using findLoop_unknown le_rfl (Nat.add_zero _) hfind

/-- A lookup finds a blocked hash with an entry that has not expired. -/
theorem findLoop_blocked {res : Bool × Bool × List HostnameHash} {j : ℕ} (hc : Sound S c) (hik : i ≤ k) (hkj : k ≤ j)
    (hj : hashes[j]? = some h) (hn : j < n + k) (hS : h ∈ S) (hlasting : c.expired now h = false)
    (hloop : c.findLoop now n k i hashes = some res) : res = (true, true, []) := by
  induction n generalizing k i hashes with
  | zero => omega
  | succ n ih =>
    obtain ⟨hlt, -⟩ := List.getElem?_eq_some_iff.1 hj
    have hk : hashes[k]? = some hashes[k] := List.getElem?_eq_getElem (by omega)
    by_cases hjk : j = k
    · subst hjk
      rcases findLoop_succ hj hloop with ⟨hexpired, -⟩ | ⟨-, data, item, hget, hitem, ⟨-, hres⟩ | ⟨hmatch, -⟩⟩
      · rw [hlasting] at hexpired
        cases hexpired
      · exact hres
      · -- the entry is complete
        obtain ⟨item', hitem', hcomplete⟩ := hc _ _ hget
        rw [hitem] at hitem'
        cases hitem'
        rw [findMatch_iff.2 ⟨h, List.mem_of_getElem? hj, (hcomplete h).2 ⟨hS, rfl⟩⟩] at hmatch
        cases hmatch
    · rcases findLoop_succ hk hloop with ⟨-, hrest⟩ | ⟨-, data, item, -, -, ⟨-, hres⟩ | ⟨-, hrest⟩⟩
      · exact ih (by omega) (by omega) (by rwa [List.getElem?_set_ne (by omega)]) (by omega) hrest
      · exact hres
      · exact ih (by omega) (by omega) hj (by omega) hrest

theorem findInCache_blocked {res : Bool × Bool × List HostnameHash} (hc : Sound S c) (hmem : h ∈ hashes) (hS : h ∈ S)
    (hlasting : c.expired now h = false) (hfind : c.findInCache now hashes = some res) : res = (true, true, []) := by
  obtain ⟨j, hj⟩ := List.mem_iff_getElem?.1 hmem
  obtain ⟨hlt, -⟩ := List.getElem?_eq_some_iff.1 hj
  exact findLoop_blocked hc le_rfl (Nat.zero_le j) hj (by omega) hS hlasting hfind

/-- The cache answers for the hashes until the time: it has a blocked one, or all of them. -/
def Answered (S : Set HostnameHash) (c : Checker) (until' : ℤ) (hashes : List HostnameHash) : Prop :=
  (∃ h ∈ hashes, h ∈ S ∧ Lasting c until' h) ∨ ∀ h ∈ hashes, Lasting c until' h

theorem Answered.findInCache (ha : Answered S c until' hashes) (hc : Sound S c) (hnow : now ≤ until') :
    ∃ blocked, c.findInCache now hashes = some (true, blocked, []) ∧ (blocked = true ↔ ∃ h ∈ hashes, h ∈ S) := by
  obtain ⟨res, hfind, hres⟩ := findInCache_looked hc now hashes
  rcases ha with ⟨h, hmem, hS, hlasting⟩ | hall
  · obtain rfl := findInCache_blocked hc hmem hS (hlasting.not_expired hnow) hfind
    exact ⟨true, hfind, iff_of_true rfl ⟨h, hmem, hS⟩⟩
  · cases hres with
    | @blocked h hmem hS => exact ⟨true, hfind, iff_of_true rfl ⟨h, hmem, hS⟩⟩
    | clean hclean => exact ⟨false, hfind, iff_of_false Bool.false_ne_true fun ⟨h, hmem, hS⟩ => hclean h hmem hS⟩
    | unknown hsub hrest =>
      obtain ⟨hasked, hne⟩ := findInCache_unknown hfind
      refine absurd (hasked.trans (List.filter_eq_nil_iff.2 fun h hmem => ?_)) hne
      rw [(hall h hmem).not_expired hnow]
      exact Bool.false_ne_true

/-! ## Entries that are stored -/

/-- The seconds of the time fit into an `int64`. -/
def Fits (expiry : ℤ) : Prop := -2 ^ 63 ≤ expiry.fdiv nanos ∧ expiry.fdiv nanos < 2 ^ 63

theorem lasting_of_get {expiry : ℤ} {stored : List HostnameHash} (hfits : Fits expiry)
    (hget : c.cache.get h.pref = some (fromCacheItem ⟨expiry, stored⟩)) : Lasting c (expiry - nanos + 1) h := by
  refine ⟨_, _, hget, toCacheItem_fromCacheItem _, ?_⟩
  have hbmod : (expiry.fdiv nanos).bmod (2 ^ 64) = expiry.fdiv nanos := by
    obtain ⟨hlo, hhi⟩ := hfits
    rw [Int.bmod_eq_of_le] <;> omega
  dsimp only
  rw [hbmod]
  have hdiv := Int.mul_fdiv_add_fmod expiry nanos
  have hlt := Int.fmod_lt_of_pos expiry (show 0 < nanos by decide)
  rw [Int.mul_comm] at hdiv
  omega

theorem Lasting.mono {from' : ℤ} (hl : Lasting c until' h) (hle : from' ≤ until') : Lasting c from' h := by
  obtain ⟨data, item, hget, hitem, hexpiry⟩ := hl
  exact ⟨data, item, hget, hitem, hle.trans hexpiry⟩

/-- The clock is not before the time, and what is stored by it has an expiry that can be written. -/
def Ticks (conf : Config) (t : ℤ) (clock : Bytes → ℤ) : Prop := ∀ p, t ≤ clock p ∧ Fits (clock p + conf.cacheTime)

/-- The time for which the entries that are stored at a time last at least, as the expiry is cut to seconds. -/
def lastingUntil (conf : Config) (t : ℤ) : ℤ := t + conf.cacheTime - nanos

section Store

variable {clock : Bytes → ℤ} {asked resp : List HostnameHash}

theorem lasting_of_stored {stored : List HostnameHash} (hclock : Ticks conf t clock)
    (hget : c.cache.get h.pref = some (fromCacheItem ⟨clock h.pref + conf.cacheTime, stored⟩)) :
    Lasting c (lastingUntil conf t) h := by
  obtain ⟨hle, hfits⟩ := hclock h.pref
  refine (lasting_of_get hfits hget).mono ?_
  unfold lastingUntil
  omega

/-- An answer does not shorten the life of an entry. -/
theorem Lasting.storeInCache (hl : Lasting c (lastingUntil conf t) h) (hclock : Ticks conf t clock) :
    Lasting (Checker.storeInCache conf clock c asked resp) (lastingUntil conf t) h := by
  have hget := @get_storeInCache conf clock c asked resp h.pref
  split at hget
  · obtain ⟨data, item, hold, hitem, hexpiry⟩ := hl
    rw [hold, Option.some_or] at hget
    exact ⟨data, item, hget, hitem, hexpiry⟩
  · exact lasting_of_stored hclock hget

/-- The prefixes that have a new entry after an answer. -/
theorem lasting_storeInCache (hclock : Ticks conf t clock) (hmem : h ∈ asked)
    (hnew : c.cache.get h.pref = none ∨ ∃ h' ∈ resp, h'.pref = h.pref) :
    Lasting (Checker.storeInCache conf clock c asked resp) (lastingUntil conf t) h := by
  have hget := @get_storeInCache conf clock c asked resp h.pref
  split at hget
  · rename_i hnil
    rcases hnew with hnone | ⟨h', hh', hp⟩
    · rw [hnone, Option.none_or, if_pos ⟨h, hmem, rfl⟩] at hget
      exact lasting_of_stored hclock hget
    · have hfound : h' ∈ resp.filter (·.pref = h.pref) := List.mem_filter.2 ⟨hh', by simpa using hp⟩
      rw [hnil] at hfound
      cases hfound
  · exact lasting_of_stored hclock hget

end Store

/-! ## Runs of checks -/

/-- A check at the time or later, of an upstream that serves the set. -/
def Checker.Op.After (conf : Config) (S : Set HostnameHash) (t : ℤ) : Checker.Op → Prop
  | .check now clock exchange _ => t ≤ now ∧ Ticks conf now clock ∧ Hashprefix.Serves conf S exchange
  | .evict _ => False

theorem Ticks.mono {clock : Bytes → ℤ} (h : Ticks conf now clock) (hle : t ≤ now) : Ticks conf t clock :=
  fun p => ⟨hle.trans (h p).1, (h p).2⟩

/-- The checker after a check: nothing was stored, or an answer was. -/
theorem check_cases {exchange : Bytes → Except Err (List RR)} {clock : Bytes → ℤ} {host : Bytes} {res : Except Err Bool}
    (hcheck : c.check conf env now clock exchange host = some (res, c')) :
    c' = c ∨ ∃ asked resp, c' = Checker.storeInCache conf clock c asked resp := by
  unfold Checker.check at hcheck
  split at hcheck
  · cases hcheck
  · cases hcheck
    exact .inl rfl
  · split at hcheck
    · cases hcheck
      exact .inl rfl
    · cases hcheck
      exact .inr ⟨_, _, rfl⟩

theorem Lasting.step {op : Checker.Op} (hl : Lasting c (lastingUntil conf t) h) (hop : op.After conf S t) :
    Lasting (c.step conf env op) (lastingUntil conf t) h := by
  cases op with
  | evict keys => exact hop.elim
  | check now clock exchange host =>
    obtain ⟨hle, hclock, -⟩ := hop
    cases hcheck : c.check conf env now clock exchange host with
    | none =>
      rw [Checker.step, hcheck]
      exact hl
    | some r =>
      obtain ⟨res, c'⟩ := r
      rw [Checker.step, hcheck]
      rcases check_cases hcheck with rfl | ⟨asked, resp, rfl⟩
      · exact hl
      · exact hl.storeInCache (hclock.mono hle)

theorem Answered.step {op : Checker.Op} (ha : Answered S c (lastingUntil conf t) hashes) (hop : op.After conf S t) :
    Answered S (c.step conf env op) (lastingUntil conf t) hashes :=
  ha.imp (fun ⟨h, hmem, hS, hl⟩ => ⟨h, hmem, hS, hl.step hop⟩) fun hall h hmem => (hall h hmem).step hop

theorem Checker.Op.After.serves {op : Checker.Op} (hop : op.After conf S t) : op.Serves conf S := by
  cases op with
  | evict keys => exact hop.elim
  | check now clock exchange host => exact hop.2.2

/-- Checks do not take an answer out of the cache. -/
theorem Answered.run {between : List Checker.Op} (env : Env) (ha : Answered S c (lastingUntil conf t) hashes)
    (hc : Sound S c) (hbetween : ∀ op ∈ between, op.After conf S t) :
    Answered S (run (Checker.step conf env) c between) (lastingUntil conf t) hashes ∧
      Sound S (run (Checker.step conf env) c between) :=
  run_invariant_of_meets (I := fun c => Answered S c (lastingUntil conf t) hashes ∧ Sound S c)
    (fun _ _ h hop => ⟨h.1.step hop, h.2.step hop.serves⟩) ⟨ha, hc⟩
    (meets_of_forall (fun op hop _ => hbetween op hop) _)

/-! ## After an answer of the upstream -/

/-- The entry for the prefix of the hash, if there is one, lasts or is one that an answer replaces: it has expired and
there are blocked hashes with the prefix. -/
def Renewed (S : Set HostnameHash) (c : Checker) (t until' : ℤ) (h : HostnameHash) : Prop :=
  c.cache.get h.pref = none ∨ Lasting c until' h ∨ (c.expired t h = true ∧ ∃ h' ∈ S, h'.pref = h.pref)

/-- After an answer of the upstream the cache has the answer. -/
theorem answered_check {exchange : Bytes → Except Err (List RR)} {clock : Bytes → ℤ} {host : Bytes} {b blocked : Bool}
    {asked : List HostnameHash} (hc : Sound S c) (hop : (Checker.Op.check t clock exchange host).After conf S t)
    (hasked : c.findInCache t (hostnameToHashes env host) = some (false, blocked, asked))
    (hcheck : c.check conf env t clock exchange host = some (.ok b, c'))
    (hentries : (∃ h ∈ hostnameToHashes env host, h ∈ S) ∨
      ∀ h ∈ hostnameToHashes env host, Renewed S c t (lastingUntil conf t) h) :
    Answered S c' (lastingUntil conf t) (hostnameToHashes env host) := by
  obtain ⟨-, hclock, hserves⟩ := hop
  obtain ⟨hfilter, -⟩ := findInCache_unknown hasked
  obtain ⟨answer, resp, hex, htexts, hresp⟩ := hserves asked
  have hc' : c' = Checker.storeInCache conf clock c asked resp := by
    unfold Checker.check at hcheck
    rw [hasked] at hcheck
    simp only [hex, processAnswer_eq htexts] at hcheck
    cases hcheck
    rfl
  subst hc'
  have hmem_asked : ∀ {h}, h ∈ hostnameToHashes env host → c.expired t h = true → h ∈ asked := fun hmem hexpired => by
    rw [hfilter]
    exact List.mem_filter.2 ⟨hmem, hexpired⟩
  rcases hentries with ⟨h, hmem, hS⟩ | hall
  · -- a blocked hash whose entry lasts would have been found
    cases hexpired : c.expired t h with
    | false => cases findInCache_blocked hc hmem hS hexpired hasked
    | true =>
      have hin := hmem_asked hmem hexpired
      exact .inl ⟨h, hmem, hS, lasting_storeInCache hclock hin (.inr ⟨h, (hresp h).2 ⟨hS, h, hin, rfl⟩, rfl⟩)⟩
  · refine .inr fun h hmem => ?_
    rcases hall h hmem with hnone | hlasting | ⟨hexpired, h', hS, hp⟩
    · have hexpired : c.expired t h = true := by
        rw [Checker.expired, hnone]
      exact lasting_storeInCache hclock (hmem_asked hmem hexpired) (.inl hnone)
    · exact hlasting.storeInCache hclock
    · have hin := hmem_asked hmem hexpired
      exact lasting_storeInCache hclock hin (.inr ⟨h', (hresp h').2 ⟨hS, h, hin, hp.symm⟩, hp⟩)

/-- If the upstream has answered for a host that is blocked, or whose prefixes have no entry, entries that last or
entries that the answer replaces, then the host is checked without the upstream for as long as new entries last, and
the result is the same, whatever else is checked meanwhile. -/
theorem check_again {ops between : List Checker.Op} {exchange : Bytes → Except Err (List RR)} {clock : Bytes → ℤ}
    {host : Bytes} {b blocked : Bool} {asked : List HostnameHash} {t' : ℤ}
    (hops : ∀ op ∈ ops, op.Serves conf S) (hrun : run (Checker.step conf env) Checker.new ops = c)
    (hop : (Checker.Op.check t clock exchange host).After conf S t)
    (hasked : c.findInCache t (hostnameToHashes env host) = some (false, blocked, asked))
    (hcheck : c.check conf env t clock exchange host = some (.ok b, c'))
    (hentries : (∃ h ∈ hostnameToHashes env host, h ∈ S) ∨
      ∀ h ∈ hostnameToHashes env host, Renewed S c t (lastingUntil conf t) h)
    (hbetween : ∀ op ∈ between, op.After conf S t) (hlater : t' ≤ t + conf.cacheTime - nanos)
    (exchange' : Bytes → Except Err (List RR)) (clock' : Bytes → ℤ) :
    (run (Checker.step conf env) c' between).findInCache t' (hostnameToHashes env host) = some (true, b, []) ∧
      (run (Checker.step conf env) c' between).check conf env t' clock' exchange' host =
        some (.ok b, run (Checker.step conf env) c' between) := by
  have hc : Sound S c := by
    rw [← hrun]
    exact run_invariant_of_meets (fun _ _ hc hop => hc.step hop) Sound.new
      (meets_of_forall (fun op hop _ => hops op hop) _)
  obtain ⟨b₀, c₀, hcheck₀, hb, hc'⟩ := hc.check hop.2.2 env t clock host
  rw [hcheck] at hcheck₀
  cases hcheck₀
  obtain ⟨ha, hsound⟩ := (answered_check hc hop hasked hcheck hentries).run env hc' hbetween
  obtain ⟨b', hfind, hb'⟩ := ha.findInCache hsound hlater
  obtain rfl : b' = b := Bool.eq_iff_iff.2 (hb'.trans hb.symm)
  refine ⟨hfind, ?_⟩
  rw [Checker.check, hfind]

/-! ## Entries that are not written again -/

/-- The entry of a prefix without blocked hashes stays as it is, also when it has expired. -/
theorem get_step_missing {op : Checker.Op} {p data : Bytes} (hc : Sound S c) (hop : op.After conf S t)
    (hmissing : ∀ h ∈ S, h.pref ≠ p) (hget : c.cache.get p = some data) :
    (c.step conf env op).cache.get p = some data := by
  cases op with
  | evict keys => exact hop.elim
  | check now clock exchange host =>
    obtain ⟨-, -, hserves⟩ := hop
    obtain ⟨res, hfind, hres⟩ := findInCache_looked hc now (hostnameToHashes env host)
    rw [Checker.step, Checker.check, hfind]
    cases hres with
    | blocked hmem hS => exact hget
    | clean hclean => exact hget
    | @unknown asked hsub hrest =>
      obtain ⟨answer, resp, hex, htexts, hresp⟩ := hserves asked
      simp only [hex, processAnswer_eq htexts, Option.elim_some]
      have hnil : resp.filter (·.pref = p) = [] := by
        rw [List.filter_eq_nil_iff]
        intro h hmem hp
        exact hmissing h ((hresp h).1 hmem).1 (by simpa using hp)
      rw [get_storeInCache, if_pos hnil, hget, Option.some_or]

/-! ## Two hosts -/

/-- "www.example.org" -/
def wwwHost : Bytes := [119, 119, 119, 46] ++ exampleHost

/-- Some hash that has another prefix. -/
def wwwHash : HostnameHash := ⟨List.replicate 32 0, by decide⟩

/-- What the other packages return for "example.org" and "www.example.org". -/
def twoHostsEnv : Env where
  publicSuffix := fun _ => (exampleSuffix, true)
  subdomains := fun host => if host = wwwHost then [wwwHost, exampleHost, exampleSuffix] else [exampleHost, exampleSuffix]
  sum256 := fun host => if host = wwwHost then wwwHash else exampleHash

/-- The clock at so many seconds. -/
def clockAt (seconds : ℤ) : Bytes → ℤ := fun _ => seconds * nanos

theorem ticks_clockAt {seconds : ℤ} (hle : t ≤ seconds * nanos)
    (hfits : -2 ^ 63 ≤ seconds + 1800 ∧ seconds + 1800 < 2 ^ 63) : Ticks exampleConf t (clockAt seconds) := by
  intro p
  refine ⟨hle, ?_⟩
  have hsum : clockAt seconds p + exampleConf.cacheTime = (seconds + 1800) * nanos := by
    unfold clockAt exampleConf nanos
    dsimp only
    omega
  unfold Fits
  rw [hsum, Int.mul_fdiv_cancel _ (by decide)]
  exact hfits

/-- "example.org" is checked at 0 s, "www.example.org" at 1 s, and "example.org" again at 1799 s. -/
theorem check_again_example :
    ∃ c', Checker.new.check exampleConf exampleEnv 0 (clockAt 0) (serve [exampleHash]) exampleHost = some (.ok true, c') ∧
      (run (Checker.step exampleConf exampleEnv) c'
          [.check nanos (clockAt 1) (serve [exampleHash]) wwwHost]).findInCache (1799 * nanos)
        (hostnameToHashes exampleEnv exampleHost) = some (true, true, []) := by
  have hserves : Serves exampleConf {h | h ∈ [exampleHash]} (serve [exampleHash]) := serves_serve (by decide)
  obtain ⟨b, c', hcheck, hb, -⟩ := Sound.new.check hserves exampleEnv 0 (clockAt 0) exampleHost
  have hmem : exampleHash ∈ hostnameToHashes exampleEnv exampleHost := by decide
  obtain rfl := hb.2 ⟨exampleHash, hmem, by simp⟩
  have hasked : Checker.new.findInCache 0 (hostnameToHashes exampleEnv exampleHost) =
      some (false, false, [exampleHash]) := by decide +kernel
  have hnone : ∀ op ∈ ([] : List Checker.Op), op.Serves exampleConf {h | h ∈ [exampleHash]} := fun _ h => by cases h
  refine ⟨c', hcheck, (check_again hnone rfl ⟨le_rfl, ticks_clockAt (by decide) (by decide), hserves⟩ hasked hcheck
    (.inl ⟨exampleHash, hmem, by simp⟩) (fun op hop => ?_) (by decide +kernel) (serve []) (clockAt 1799)).1⟩
  rw [List.mem_singleton.1 hop]
  exact ⟨by decide, ticks_clockAt (by decide) (by decide), hserves⟩

/-- "example.org" is checked at 0 s and "www.example.org" at 1799 s, when the entry of the former lasts for a second
more, so that the latter is not answered from the cache at 1801 s. -/
theorem not_answered_wwwHost :
    ¬ ∀ (conf : Config) (env : Env) (S : Set HostnameHash) (ops between : List Checker.Op) (c c' : Checker)
        (exchange : Bytes → Except Err (List RR)) (clock : Bytes → ℤ) (host : Bytes) (b blocked : Bool)
        (asked : List HostnameHash) (t t' : ℤ), nanos < conf.cacheTime →
      (∀ op ∈ ops, op.After conf S 0) → run (Checker.step conf env) Checker.new ops = c →
        (Checker.Op.check t clock exchange host).After conf S t →
          c.findInCache t (hostnameToHashes env host) = some (false, blocked, asked) →
            c.check conf env t clock exchange host = some (.ok b, c') → (∀ op ∈ between, op.After conf S t) →
              t ≤ t' → t' ≤ t + conf.cacheTime - nanos →
                (run (Checker.step conf env) c' between).findInCache t' (hostnameToHashes env host) =
                  some (true, b, []) := by
  intro h
  have hserves : Serves exampleConf {h | h ∈ ([] : List HostnameHash)} (serve []) := serves_serve (by decide)
  have hfirst : (Checker.Op.check 0 (clockAt 0) (serve []) exampleHost).After exampleConf {h | h ∈ []} 0 :=
    ⟨le_rfl, ticks_clockAt (by decide) (by decide), hserves⟩
  have hsecond : (Checker.Op.check (1799 * nanos) (clockAt 1799) (serve []) wwwHost).After exampleConf {h | h ∈ []}
      (1799 * nanos) := ⟨le_rfl, ticks_clockAt le_rfl (by decide), hserves⟩
  obtain ⟨c, hc⟩ : ∃ c, run (Checker.step exampleConf twoHostsEnv) Checker.new
    [.check 0 (clockAt 0) (serve []) exampleHost] = c := ⟨_, rfl⟩
  have hsound : Sound {h | h ∈ ([] : List HostnameHash)} c := by
    rw [← hc]
    exact (Sound.new.step hfirst.serves : Sound _ (Checker.step exampleConf twoHostsEnv Checker.new _))
  obtain ⟨b, c', hcheck, -, -⟩ := hsound.check hserves twoHostsEnv (1799 * nanos) (clockAt 1799) wwwHost
  have hasked : c.findInCache (1799 * nanos) (hostnameToHashes twoHostsEnv wwwHost) = some (false, false, [wwwHash]) := by
    rw [← hc]
    decide +kernel
  have hagain := h exampleConf twoHostsEnv _ _ [] c c' _ _ wwwHost b false [wwwHash] (1799 * nanos) (1801 * nanos)
    (by decide) (fun op hop => by rw [List.mem_singleton.1 hop]; exact hfirst) hc hsecond hasked hcheck
    (fun op hop => by cases hop) (by decide) (by decide)
  have hnext : c.step exampleConf twoHostsEnv (.check (1799 * nanos) (clockAt 1799) (serve []) wwwHost) = c' := by
    rw [Checker.step, hcheck]
    rfl
  have hexpired : ((c.step exampleConf twoHostsEnv (.check (1799 * nanos) (clockAt 1799) (serve []) wwwHost)).findInCache
      (1801 * nanos) (hostnameToHashes twoHostsEnv wwwHost)).map Prod.fst = some false := by
    rw [← hc]
    decide +kernel
  rw [hnext] at hexpired
  rw [show run (Checker.step exampleConf twoHostsEnv) c' [] = c' from rfl] at hagain
  rw [hagain] at hexpired
  cases hexpired

end AdGuardHome.Hashprefix
