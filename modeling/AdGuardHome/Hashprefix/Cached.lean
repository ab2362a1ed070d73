import AdGuardHome.Hashprefix.Checker
import AdGuardHome.Lib.BigEndian
import AdGuardHome.Lib.Run

/-!
# Cached checks

With an upstream that answers for a fixed set of blocked hashes, every entry of the cache has all blocked hashes
with its prefix, so a check has the same result whatever earlier checks and evictions have left in the cache: the
host is blocked if and only if one of its hashes is.
-/

namespace AdGuardHome.Hashprefix

open AdGuardHome.Lib

/-! ## Entries -/

theorem bigEndian_eq (n v : ℕ) : bigEndian n v = toBigEndian n v := by
  induction n generalizing v with
  | zero => rfl
  | succ n ih => rw [bigEndian, toBigEndian, ih]

theorem length_bigEndian (n v : ℕ) : (bigEndian n v).length = n := by
  rw [bigEndian_eq, length_toBigEndian]

theorem ofBigEndian_bigEndian {n v : ℕ} (hv : v < 256 ^ n) : ofBigEndian (bigEndian n v) = v := by
  rw [bigEndian_eq]
  exact ofBigEndian_toBigEndian hv

theorem toHashes_append (h : HostnameHash) (rest : Bytes) (fuel : ℕ) :
    toHashes (fuel + 1) (h.1 ++ rest) = (toHashes fuel rest).map (h :: ·) := by
  have hlen : hashSize ≤ (h.1 ++ rest).length := by
    rw [List.length_append, h.2]
    omega
  have hdrop : (h.1 ++ rest).drop hashSize = rest := List.drop_left' h.2
  have htake : (h.1 ++ rest).take hashSize = h.1 := List.take_left' h.2
  generalize h.1 ++ rest = data at hlen hdrop htake
  cases data with
  | nil => simp [hashSize] at hlen
  | cons b data =>
    rw [toHashes, dif_pos hlen, hdrop]
    simp only [htake]

theorem toHashes_flatMap (hashes : List HostnameHash) {fuel : ℕ} (hfuel : hashes.length ≤ fuel) :
    toHashes fuel (hashes.flatMap (·.1)) = some hashes := by
  induction hashes generalizing fuel with
  | nil => cases fuel <;> rfl
  | cons h hashes ih =>
    cases fuel with
    | zero => simp at hfuel
    | succ fuel =>
      rw [List.flatMap_cons, toHashes_append, ih (by simpa using hfuel)]
      rfl

theorem length_le_flatMap (hashes : List HostnameHash) : hashes.length ≤ (hashes.flatMap (·.1)).length := by
  induction hashes with
  | nil => simp
  | cons h hashes ih =>
    have hlen := h.2
    have hsize : hashSize = 32 := rfl
    rw [List.flatMap_cons, List.length_append, List.length_cons]
    omega

/-- An encoded item is decoded with its hashes and the whole seconds of its expiry. -/
theorem toCacheItem_fromCacheItem (item : CacheItem) :
    toCacheItem (fromCacheItem item)
      = some { expiry := (item.expiry.fdiv nanos).bmod (2 ^ 64) * nanos, hashes := item.hashes } := by
  have hpos : 0 ≤ item.expiry.fdiv nanos % 2 ^ 64 := Int.emod_nonneg _ (by decide)
  have hlt : (item.expiry.fdiv nanos % 2 ^ 64).toNat < 256 ^ expirySize := by
    have := Int.emod_lt_of_pos (item.expiry.fdiv nanos) (show (0 : ℤ) < 2 ^ 64 by decide)
    have hsize : 256 ^ expirySize = 2 ^ 64 := by decide
    omega
  have hlen := length_bigEndian expirySize (item.expiry.fdiv nanos % 2 ^ 64).toNat
  have hhashes := length_le_flatMap item.hashes
  rw [toCacheItem, fromCacheItem, if_neg (by rw [List.length_append, hlen]; omega), List.drop_left' hlen,
    List.take_left' hlen, ofBigEndian_bigEndian hlt, toHashes_flatMap _ (by rw [List.length_append]; omega),
    Int.toNat_of_nonneg hpos]
  have hmod : (item.expiry.fdiv nanos % 2 ^ 64).bmod (2 ^ 64) = (item.expiry.fdiv nanos).bmod (2 ^ 64) := by
    exact_mod_cast Int.emod_bmod (item.expiry.fdiv nanos) (2 ^ 64)
  rw [hmod]
  rfl

/-! ## Looking in the cache -/

/-- The entry has exactly the blocked hashes with the prefix. -/
def Complete (S : Set HostnameHash) (p data : Bytes) : Prop :=
  ∃ item, toCacheItem data = some item ∧ ∀ h, h ∈ item.hashes ↔ h ∈ S ∧ h.pref = p

/-- All entries of the cache are complete. -/
def Sound (S : Set HostnameHash) (c : Checker) : Prop := ∀ p data, c.cache.get p = some data → Complete S p data

theorem complete_fromCacheItem {S : Set HostnameHash} {p : Bytes} {hashes : List HostnameHash} {expiry : ℤ}
    (h : ∀ h, h ∈ hashes ↔ h ∈ S ∧ h.pref = p) : Complete S p (fromCacheItem ⟨expiry, hashes⟩) :=
  ⟨_, toCacheItem_fromCacheItem _, h⟩

theorem findMatch_iff {a b : List HostnameHash} : findMatch a b = true ↔ ∃ h ∈ a, h ∈ b := by
  simp [findMatch]

/-- What holds before the hash at index `k` is looked at: the hashes before it are not blocked or among the first
`i` of the list, and the list is unchanged from `i` on. -/
structure Looking (S : Set HostnameHash) (orig : List HostnameHash) (k i : ℕ) (hashes : List HostnameHash) : Prop where
  le : i ≤ k
  length : hashes.length = orig.length
  same : ∀ j, i ≤ j → hashes[j]? = orig[j]?
  subset : ∀ h ∈ hashes, h ∈ orig
  looked : ∀ j h, j < k → orig[j]? = some h → h ∈ hashes.take i ∨ h ∉ S

/-- What the lookup of the hashes can end with. -/
inductive Looked (S : Set HostnameHash) (orig : List HostnameHash) : Bool × Bool × List HostnameHash → Prop
  | blocked {h : HostnameHash} (mem : h ∈ orig) (mem_set : h ∈ S) : Looked S orig (true, true, [])
  | clean (clean : ∀ h ∈ orig, h ∉ S) : Looked S orig (true, false, [])
  | unknown {hashes : List HostnameHash} (subset : ∀ h ∈ hashes, h ∈ orig)
      (rest : ∀ h ∈ orig, h ∈ S → h ∈ hashes) : Looked S orig (false, false, hashes)

variable {S : Set HostnameHash} {c : Checker} {orig hashes : List HostnameHash} {k i : ℕ}

/-- The hash is kept to be requested. -/
theorem Looking.keep {h : HostnameHash} (hl : Looking S orig k i hashes) (hk : hashes[k]? = some h) :
    Looking S orig (k + 1) (i + 1) (hashes.set i h) := by
  have hle := hl.le
  have hlt : k < hashes.length := (List.getElem?_eq_some_iff.1 hk).1
  refine ⟨by omega, by simpa using hl.length, ?_, ?_, ?_⟩
  · intro j hj
    rw [List.getElem?_set_ne (by omega)]
    exact hl.same j (by omega)
  · intro h' hh'
    obtain hh' | rfl := List.mem_or_eq_of_mem_set hh'
    · exact hl.subset h' hh'
    · exact hl.subset _ (List.mem_of_getElem? hk)
  · intro j h' hj hh'
    have htake : (hashes.set i h).take (i + 1) = hashes.take i ++ [h] := by
      rw [List.take_add_one, List.getElem?_set_self (by omega), List.take_set,
        List.set_eq_of_length_le (by simp)]
      rfl
    rw [htake, List.mem_append, List.mem_singleton]
    by_cases hjk : j = k
    · subst hjk
      rw [← hl.same j hle, hk] at hh'
      exact .inl (.inr (Option.some.inj hh').symm)
    · exact (hl.looked j h' (by omega) hh').imp_left .inl

/-- The hash is not blocked. -/
theorem Looking.skip {h : HostnameHash} (hl : Looking S orig k i hashes) (hk : hashes[k]? = some h) (hS : h ∉ S) :
    Looking S orig (k + 1) i hashes := by
  have hle := hl.le
  refine ⟨by omega, hl.length, hl.same, hl.subset, ?_⟩
  intro j h' hj hh'
  by_cases hjk : j = k
  · subst hjk
    rw [← hl.same j hle, hk] at hh'
    right
    rwa [← Option.some.inj hh']
  · exact hl.looked j h' (by omega) hh'

theorem findLoop_looked (hc : Sound S c) (now : ℤ) {n : ℕ} (hn : n + k = orig.length)
    (hl : Looking S orig k i hashes) :
    ∃ res, c.findLoop now n k i hashes = some res ∧ Looked S orig res := by
  induction n generalizing k i hashes with
  | zero =>
    have hall : ∀ h ∈ orig, h ∈ hashes.take i ∨ h ∉ S := by
      intro h hh
      obtain ⟨j, hj⟩ := List.mem_iff_getElem?.1 hh
      have hlt := (List.getElem?_eq_some_iff.1 hj).1
      exact hl.looked j h (by omega) hj
    rw [Checker.findLoop]
    split
    · rename_i hi
      refine ⟨_, rfl, .clean fun h hh => ?_⟩
      simpa [hi] using hall h hh
    · exact ⟨_, rfl, .unknown (fun h hh => hl.subset h (List.mem_of_mem_take hh))
        fun h hh hS => (hall h hh).resolve_right (not_not_intro hS)⟩
  | succ n ih =>
    have hlt : k < hashes.length := by
      rw [hl.length]
      omega
    have hk := List.getElem?_eq_getElem hlt
    generalize hashes[k] = h at hk
    rw [Checker.findLoop, hk]
    simp only
    cases hget : c.cache.get h.pref with
    | none => exact ih (by omega) (hl.keep hk)
    | some data =>
      obtain ⟨item, hitem, hcomplete⟩ := hc _ _ hget
      simp only [hitem]
      split
      · exact ih (by omega) (hl.keep hk)
      · split
        · rename_i hmatch
          obtain ⟨h', hh', hmem⟩ := findMatch_iff.1 hmatch
          exact ⟨_, rfl, .blocked (hl.subset h' hh') ((hcomplete h').1 hmem).1⟩
        · rename_i hmatch
          refine ih (by omega) (hl.skip hk ?_)
          intro hS
          exact hmatch (findMatch_iff.2 ⟨h, List.mem_of_getElem? hk, (hcomplete h).2 ⟨hS, rfl⟩⟩)

theorem findInCache_looked (hc : Sound S c) (now : ℤ) (hashes : List HostnameHash) :
    ∃ res, c.findInCache now hashes = some res ∧ Looked S hashes res :=
  findLoop_looked hc now rfl ⟨le_rfl, rfl, fun _ _ => rfl, fun _ h => h, by simp⟩

/-! ## Storing answers -/

theorem get_foldl_hashes (respHashes : List HostnameHash) (m : GoMap Bytes (List HostnameHash)) (p : Bytes) :
    (respHashes.foldl (fun m hash => m.set hash.pref ((m.get hash.pref).getD [] ++ [hash])) m).get p
      = if respHashes.filter (·.pref = p) = [] then m.get p
        else some ((m.get p).getD [] ++ respHashes.filter (·.pref = p)) := by
  induction respHashes generalizing m with
  | nil => simp
  | cons hash respHashes ih =>
    rw [List.foldl_cons, ih, GoMap.get_set]
    by_cases hp : p = hash.pref
    · subst hp
      by_cases hnil : respHashes.filter (·.pref = hash.pref) = [] <;> simp [hnil]
    · have hfilter : (hash :: respHashes).filter (·.pref = p) = respHashes.filter (·.pref = p) :=
        List.filter_cons_of_neg (by simpa using Ne.symm hp)
      rw [hfilter, if_neg hp]

/-- The received hashes with a prefix, if there are any. -/
theorem get_hashToStore (respHashes : List HostnameHash) (p : Bytes) :
    (Checker.hashToStore respHashes).get p
      = if respHashes.filter (·.pref = p) = [] then none else some (respHashes.filter (·.pref = p)) := by
  rw [Checker.hashToStore, get_foldl_hashes]
  simp

variable {conf : Config} {clock : Bytes → ℤ}

/-- The prefixes without a hash. -/
theorem get_foldl_storeMissing (hashesToRequest : List HostnameHash) (c : Checker) (p : Bytes) :
    (hashesToRequest.foldl (Checker.storeMissing conf clock) c).cache.get p
      = (c.cache.get p).or (if ∃ h ∈ hashesToRequest, h.pref = p then
          some (fromCacheItem { expiry := clock p + conf.cacheTime, hashes := [] }) else none) := by
  induction hashesToRequest generalizing c with
  | nil => simp
  | cons hash hashesToRequest ih =>
    rw [List.foldl_cons, ih]
    by_cases hp : hash.pref = p
    · subst hp
      cases hget : c.cache.get hash.pref with
      | none => simp [Checker.storeMissing, Checker.setCache, hget]
      | some data => simp [Checker.storeMissing, hget]
    · have hasked : (∃ h ∈ hash :: hashesToRequest, h.pref = p) ↔ ∃ h ∈ hashesToRequest, h.pref = p := by simp [hp]
      rw [if_congr hasked rfl rfl]
      cases hget : c.cache.get hash.pref with
      | none => simp [Checker.storeMissing, Checker.setCache, hget, GoMap.get_set_ne _ (Ne.symm hp)]
      | some data => simp [Checker.storeMissing, hget]

/-- The entry of a prefix after an answer: the received hashes with the prefix, what there was before, or no hash for
a prefix that was asked for. -/
theorem get_storeInCache (c : Checker) (hashesToRequest respHashes : List HostnameHash) (p : Bytes) :
    (Checker.storeInCache conf clock c hashesToRequest respHashes).cache.get p
      = if respHashes.filter (·.pref = p) = [] then
          (c.cache.get p).or (if ∃ h ∈ hashesToRequest, h.pref = p then
            some (fromCacheItem { expiry := clock p + conf.cacheTime, hashes := [] }) else none)
        else some (fromCacheItem { expiry := clock p + conf.cacheTime, hashes := respHashes.filter (·.pref = p) }) := by
  have hfold : ((Checker.hashToStore respHashes).entries.foldl
        (fun c e => Checker.setCache conf clock c e.1 e.2) c).cache
      = (Checker.hashToStore respHashes).entries.foldl
        (fun m e => m.set e.1 (fromCacheItem { expiry := clock e.1 + conf.cacheTime, hashes := e.2 })) c.cache :=
    (List.foldl_hom Checker.cache fun _ _ => rfl).symm
  rw [Checker.storeInCache, get_foldl_storeMissing, hfold,
    GoMap.get_foldl_entries _ (fun p hashes => fromCacheItem { expiry := clock p + conf.cacheTime, hashes := hashes }),
    get_hashToStore]
  by_cases hnil : respHashes.filter (·.pref = p) = [] <;> simp [hnil]

/-- Complete answers keep the cache sound. -/
theorem Sound.storeInCache {hashesToRequest respHashes : List HostnameHash} (hc : Sound S c)
    (hresp : ∀ h, h ∈ respHashes ↔ h ∈ S ∧ ∃ h' ∈ hashesToRequest, h'.pref = h.pref) :
    Sound S (Checker.storeInCache conf clock c hashesToRequest respHashes) := by
  intro p data hget
  rw [get_storeInCache] at hget
  split at hget
  · rename_i hnil
    rcases Option.or_eq_some_iff.1 hget with hget | ⟨-, hget⟩
    · exact hc p data hget
    · split at hget
      · rename_i hasked
        obtain ⟨h', hh', rfl⟩ := hasked
        rw [← Option.some.inj hget]
        refine complete_fromCacheItem fun h => ?_
        have hnot : ¬ (h ∈ S ∧ h.pref = h'.pref) := by
          rintro ⟨hS, hp⟩
          have hmem : h ∈ respHashes.filter (·.pref = h'.pref) :=
            List.mem_filter.2 ⟨(hresp h).2 ⟨hS, h', hh', hp.symm⟩, by simpa using hp⟩
          rw [hnil] at hmem
          cases hmem
        simpa using hnot
      · cases hget
  · rename_i hne
    rw [← Option.some.inj hget]
    obtain ⟨h₀, hh₀⟩ := List.exists_mem_of_ne_nil _ hne
    obtain ⟨hmem₀, hp₀⟩ := List.mem_filter.1 hh₀
    obtain ⟨-, h', hh', hp'⟩ := (hresp h₀).1 hmem₀
    refine complete_fromCacheItem fun h => ?_
    rw [List.mem_filter, hresp, decide_eq_true_eq]
    constructor
    · rintro ⟨⟨hS, -⟩, hp⟩
      exact ⟨hS, hp⟩
    · rintro ⟨hS, rfl⟩
      exact ⟨⟨hS, h', hh', hp'.trans (by simpa using hp₀)⟩, rfl⟩

/-! ## Answers -/

/-- The strings of the TXT records of an answer. -/
def texts (answer : List RR) : List Bytes :=
  answer.flatMap fun
    | .txt txt => txt
    | .other => []

theorem decodeHash_hexEncode (h : HostnameHash) : decodeHash (hexEncode h.1) = some h := by
  rw [decodeHash, if_neg (by rw [length_hexEncode, h.2]; decide), hexDecode_hexEncode]
  exact dif_pos h.2

theorem appendHashesFromTXT_eq (hashes : List HostnameHash) (txt : List Bytes) :
    appendHashesFromTXT hashes txt = hashes ++ txt.filterMap decodeHash := by
  induction txt generalizing hashes with
  | nil => simp [appendHashesFromTXT]
  | cons t txt ih =>
    rw [appendHashesFromTXT, List.foldl_cons, ← appendHashesFromTXT, ih]
    cases hdec : decodeHash t <;> simp [hdec]

theorem foldl_appendHashes (hashes : List HostnameHash) (answer : List RR) :
    answer.foldl appendHashes hashes = hashes ++ (texts answer).filterMap decodeHash := by
  induction answer generalizing hashes with
  | nil => simp [texts]
  | cons rr answer ih =>
    rw [List.foldl_cons, ih]
    cases rr with
    | txt txt => simp [appendHashes, appendHashesFromTXT_eq, texts]
    | other => simp [appendHashes, texts]

/-- The hashes of an answer are received as they were sent. -/
theorem processAnswer_eq {answer : List RR} {hs : List HostnameHash} (h : texts answer = hs.map fun h => hexEncode h.1)
    (hashesToRequest : List HostnameHash) :
    processAnswer hashesToRequest answer = (findMatch hashesToRequest hs, hs) := by
  have hrecv : answer.foldl appendHashes [] = hs := by
    rw [foldl_appendHashes, h, List.nil_append, List.filterMap_map]
    have hid : decodeHash ∘ (fun h : HostnameHash => hexEncode h.1) = some := funext decodeHash_hexEncode
    rw [hid, List.filterMap_some]
  rw [processAnswer, hrecv]

/-! ## Checks -/

/-- The upstream answers the question for the prefixes of any hashes with all hashes of the set that have one of
these prefixes, in any order and in any number of TXT records. -/
def Serves (conf : Config) (S : Set HostnameHash) (exchange : Bytes → Except Err (List RR)) : Prop :=
  ∀ hashes, ∃ (answer : List RR) (hs : List HostnameHash), exchange (getQuestion conf hashes) = .ok answer
    ∧ texts answer = hs.map (fun h => hexEncode h.1) ∧ ∀ h, h ∈ hs ↔ h ∈ S ∧ ∃ h' ∈ hashes, h'.pref = h.pref

/-- The upstream of a check serves the set. -/
def Checker.Op.Serves (conf : Config) (S : Set HostnameHash) : Checker.Op → Prop
  | .check _ _ exchange _ => Hashprefix.Serves conf S exchange
  | .evict _ => True

/-- A check with a sound cache finds whether a hash of the host is blocked, and keeps the cache sound. -/
theorem Sound.check {exchange : Bytes → Except Err (List RR)} (hc : Sound S c) (hserves : Serves conf S exchange)
    (env : Env) (now : ℤ) (clock : Bytes → ℤ) (host : Bytes) :
    ∃ b c', c.check conf env now clock exchange host = some (.ok b, c')
      ∧ (b = true ↔ ∃ h ∈ hostnameToHashes env host, h ∈ S) ∧ Sound S c' := by
  obtain ⟨res, hfind, hres⟩ := findInCache_looked hc now (hostnameToHashes env host)
  rw [Checker.check, hfind]
  cases hres with
  | @blocked h hmem hS => exact ⟨true, c, rfl, ⟨fun _ => ⟨h, hmem, hS⟩, fun _ => rfl⟩, hc⟩
  | clean hclean =>
    refine ⟨false, c, rfl, ⟨Bool.noConfusion, ?_⟩, hc⟩
    rintro ⟨h, hmem, hS⟩
    exact absurd hS (hclean h hmem)
  | @unknown hashes hsub hrest =>
    obtain ⟨answer, hs, hex, htexts, hhs⟩ := hserves hashes
    simp only [hex, processAnswer_eq htexts]
    refine ⟨_, _, rfl, ?_, hc.storeInCache hhs⟩
    rw [findMatch_iff]
    constructor
    · rintro ⟨h, hmem, hh⟩
      exact ⟨h, hsub h hmem, ((hhs h).1 hh).1⟩
    · rintro ⟨h, hmem, hS⟩
      have hreq := hrest h hmem hS
      exact ⟨h, hreq, (hhs h).2 ⟨hS, h, hreq, rfl⟩⟩

theorem Sound.new : Sound S Checker.new := by
  intro p data hget
  rw [Checker.new, GoMap.get_empty] at hget
  cases hget

theorem Sound.step {env : Env} {op : Checker.Op} (hc : Sound S c) (hop : op.Serves conf S) :
    Sound S (c.step conf env op) := by
  cases op with
  | check now clock exchange host =>
    obtain ⟨b, c', hcheck, -, hc'⟩ := hc.check hop env now clock host
    rw [Checker.step, hcheck]
    exact hc'
  | evict keys =>
    intro p data hget
    rw [Checker.step, GoMap.get_delAll] at hget
    split at hget
    · cases hget
    · exact hc p data hget

/-- Whatever checks and evictions there were before, a check of a host returns true if and only if one of its hashes
is blocked, as it does with an empty cache. -/
theorem check_eq_uncached {env : Env} {ops : List Checker.Op} {exchange : Bytes → Except Err (List RR)}
    (hops : ∀ op ∈ ops, op.Serves conf S) (hserves : Serves conf S exchange) (now : ℤ) (clock : Bytes → ℤ)
    (host : Bytes) :
    ∃ b c' c₀, (run (Checker.step conf env) Checker.new ops).check conf env now clock exchange host = some (.ok b, c')
      ∧ Checker.new.check conf env now clock exchange host = some (.ok b, c₀)
      ∧ (b = true ↔ ∃ h ∈ hostnameToHashes env host, h ∈ S) := by
  have hmeets : Meets (Checker.step conf env) (fun _ op => op.Serves conf S) Checker.new ops :=
    meets_of_forall (fun op hop _ => hops op hop) _
  have hrun : Sound S (run (Checker.step conf env) Checker.new ops) :=
    run_invariant_of_meets (fun _ _ hc hop => hc.step hop) Sound.new hmeets
  obtain ⟨b, c', hcheck, hb, -⟩ := hrun.check hserves env now clock host
  obtain ⟨b₀, c₀, hcheck₀, hb₀, -⟩ := Sound.new.check hserves env now clock host
  have hbb : b = b₀ := Bool.eq_iff_iff.2 (hb.trans hb₀.symm)
  exact ⟨b, c', c₀, hcheck, hbb ▸ hcheck₀, hb⟩

/-! ## An upstream with a list of hashes -/

theorem splitOn_getQuestion (conf : Config) (hashes : List HostnameHash) :
    (getQuestion conf hashes).splitOn dot
      = hashes.map (fun h => hexEncode h.pref) ++ conf.txtSuffix.splitOn dot := by
  induction hashes with
  | nil => simp [getQuestion]
  | cons h hashes ih =>
    have hdot : dot ∉ hexEncode h.pref := not_mem_hexEncode (by decide) _
    have hcons : getQuestion conf (h :: hashes) = hexEncode h.pref ++ dot :: getQuestion conf hashes := by
      simp [getQuestion]
    rw [hcons, List.splitOn_append_cons_self, List.splitOn_eq_singleton hdot, ih]
    rfl

/-- An upstream with the hashes: it answers for the labels of the question that are their prefixes. -/
def serve (hashes : List HostnameHash) (question : Bytes) : Except Err (List RR) :=
  let found := hashes.filter fun h => (question.splitOn dot).contains (hexEncode h.pref)
  .ok [.txt (found.map fun h => hexEncode h.1)]

theorem serves_serve {hashes : List HostnameHash} (h : ∀ h ∈ hashes, hexEncode h.pref ∉ conf.txtSuffix.splitOn dot) :
    Serves conf {h | h ∈ hashes} (serve hashes) := by
  intro asked
  refine ⟨_, hashes.filter fun h => ((getQuestion conf asked).splitOn dot).contains (hexEncode h.pref), rfl, ?_, ?_⟩
  · rw [texts, List.flatMap_singleton]
  intro h'
  rw [List.mem_filter, splitOn_getQuestion]
  have hsuf : h' ∈ hashes → (hexEncode h'.pref ∈ asked.map (fun h => hexEncode h.pref) ++ conf.txtSuffix.splitOn dot
      ↔ ∃ h₀ ∈ asked, h₀.pref = h'.pref) := by
    intro hmem
    rw [List.mem_append, List.mem_map, or_iff_left (h h' hmem)]
    refine exists_congr fun h₀ => and_congr_right fun _ => ?_
    exact ⟨hexEncode_injective, fun h => by rw [h]⟩
  exact and_congr_right fun hmem => by rw [List.contains_iff_mem, hsuf hmem]

/-- "example.org" -/
def exampleHost : Bytes := [101, 120, 97, 109, 112, 108, 101, 46, 111, 114, 103]

/-- "org" -/
def exampleSuffix : Bytes := [111, 114, 103]

/-- The hash of "example.org". -/
def exampleHash : HostnameHash :=
  ⟨[191, 171, 195, 116, 50, 149, 139, 6, 51, 96, 211, 173, 100, 97, 201, 196, 115, 90, 231, 248, 237, 212, 101, 146,
    165, 224, 240, 20, 82, 178, 228, 181], by decide⟩

/-- What the other packages return for "example.org". -/
def exampleEnv : Env where
  publicSuffix := fun _ => (exampleSuffix, true)
  subdomains := fun _ => [exampleHost, exampleSuffix]
  sum256 := fun _ => exampleHash

/-- The suffix "sb.dns.adguard.com." and half an hour. -/
def exampleConf : Config where
  txtSuffix := [115, 98, 46, 100, 110, 115, 46, 97, 100, 103, 117, 97, 114, 100, 46, 99, 111, 109, 46]
  cacheTime := 30 * 60 * nanos

/-- Checks of "example.org" before this one: the first is answered by the upstream, the next from the cache. -/
def exampleOps : List Checker.Op :=
  [.check 0 (fun _ => 0) (serve [exampleHash]) exampleHost, .evict [],
    .check 1 (fun _ => 1) (serve [exampleHash]) exampleHost, .evict [exampleHash.pref]]

theorem check_eq_uncached_example :
    ∃ c', (run (Checker.step exampleConf exampleEnv) Checker.new exampleOps).check exampleConf exampleEnv nanos
        (fun _ => nanos) (serve [exampleHash]) exampleHost = some (.ok true, c') := by
  have hserves : Serves exampleConf {h | h ∈ [exampleHash]} (serve [exampleHash]) := serves_serve (by decide)
  have hops : ∀ op ∈ exampleOps, op.Serves exampleConf {h | h ∈ [exampleHash]} := by
    simpa [exampleOps, Checker.Op.Serves] using hserves
  obtain ⟨b, c', -, hcheck, -, hb⟩ :=
    @check_eq_uncached _ _ exampleEnv _ _ hops hserves nanos (fun _ => nanos) exampleHost
  have hmem : exampleHash ∈ hostnameToHashes exampleEnv exampleHost := by decide
  obtain rfl := hb.2 ⟨exampleHash, hmem, by simp⟩
  exact ⟨c', hcheck⟩

end AdGuardHome.Hashprefix
