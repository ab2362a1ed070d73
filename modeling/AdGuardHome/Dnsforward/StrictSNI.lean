import Mathlib.Data.String.Basic
import AdGuardHome.Lib.BinarySearch

/-!
# The strict check of server names

With `strict_sni_check`, a certificate is only returned to clients that ask for one of its names.  Exact names are
looked for with a binary search, which is right as the manager of the certificates sorts their names
(`aghtls/defaultmanager.go`) whenever it loads one.
-/

namespace AdGuardHome.Dnsforward

open AdGuardHome.Lib

/-- The names of `x509.Certificate`. -/
structure Leaf where
  dnsNames : List String
  commonName : String
deriving DecidableEq

/-- `tls.Certificate`, `none` for a nil leaf. -/
structure Certificate where
  certificate : List (List UInt8)
  leaf : Option Leaf
deriving DecidableEq

/-- `netutil.IsValidHostname` and `netutil.IsValidIPString`. -/
structure SNIEnv where
  isValidHostname : String → Bool
  isValidIPString : String → Bool

/-- `slices.BinarySearch`, its second result. -/
def binarySearch (x : List String) (target : String) : Bool :=
  x[search x fun name => decide (name < target)]? = some target

def isWildcard (host : String) : Bool := ['*', '.'].isPrefixOf host.toList

def matchesDomainWildcard (host pat : String) : Bool :=
  isWildcard pat && (pat.toList.drop 1).isSuffixOf host.toList

def anyNameMatches (env : SNIEnv) (dnsNames : List String) (sni : String) : Bool :=
  if !env.isValidHostname sni && !env.isValidIPString sni then false
  else if binarySearch dnsNames sni then true
  else dnsNames.any fun dn => matchesDomainWildcard sni dn

/-- The names that a certificate is for. -/
def Leaf.names (leaf : Leaf) : List String :=
  if leaf.dnsNames.length = 0 then [leaf.commonName] else leaf.dnsNames

/-- `GetCertificate` after `replaceGetCertificate`, for messages with a `ServerName`. -/
def getCertificate {H : Type} (env : SNIEnv) (serverName : H → String)
    (origGetCert : H → Except String (Option Certificate)) (chi : H) : Except String Certificate :=
  match origGetCert chi with
  | .error err => .error err
  | .ok none => .error "tls certificate is not set"
  | .ok (some cert) =>
    match cert.leaf with
    | none => .error "tls certificate is not set"
    | some leaf =>
      if !anyNameMatches env leaf.names (serverName chi) then .error "unknown sni in client hello" else .ok cert

/-! ## The manager of the certificate -/

/-- What `tls.X509KeyPair` returns.  It fills in the leaf. -/
structure KeyPair where
  certificate : List (List UInt8)
  leaf : Leaf
deriving DecidableEq

/-- `slices.Sort` of the names. -/
def Leaf.sort (leaf : Leaf) : Leaf := { leaf with dnsNames := leaf.dnsNames.mergeSort fun a b => a ≤ b }

/-- The certificate with its names sorted. -/
def KeyPair.sorted (pair : KeyPair) : Certificate := ⟨pair.certificate, some pair.leaf.sort⟩

/-- What the manager reads of `ExtendedTLSConfig` for the certificate. -/
structure ExtendedTLSConfig where
  enabled : Bool
  certificatePath : String
  certificateChainData : List UInt8
  privateKeyData : List UInt8
  dnsCryptConfigFile : String
  portDNSCrypt : UInt16
deriving DecidableEq

/-- `aghtls.DefaultManager`, with whether `tlsConf` is set. -/
structure DefaultManager where
  extTLSConf : ExtendedTLSConfig
  tlsConf : Bool
  tlsCert : Option Certificate
deriving DecidableEq

/-- What `LoadTLSConfig` makes of the configuration, and its error. -/
abbrev Loaded := ExtendedTLSConfig × Option String

namespace DefaultManager

section Manager

-- `tls.X509KeyPair`
variable (x509KeyPair : List UInt8 → List UInt8 → Except String KeyPair)

def prepareTLSConfig (mgr : DefaultManager) (loaded : Loaded) : DefaultManager × Option String :=
  match loaded.2 with
  | some err => ({ mgr with extTLSConf := { loaded.1 with enabled := false } }, some err)
  | none =>
    match x509KeyPair loaded.1.certificateChainData loaded.1.privateKeyData with
    | .error err =>
      if loaded.1.portDNSCrypt ≠ 0 ∧ loaded.1.dnsCryptConfigFile ≠ "" then ({ mgr with extTLSConf := loaded.1 }, none)
      else ({ mgr with extTLSConf := { loaded.1 with enabled := false } }, some ("parsing tls certificate: " ++ err))
    | .ok pair => (⟨loaded.1, true, some pair.sorted⟩, none)

/-- `NewDefaultManager`.  The manager is used after an error, too. -/
def newDefaultManager (conf : ExtendedTLSConfig) (loaded : Loaded) : DefaultManager × Option String :=
  if !conf.enabled then (⟨conf, false, none⟩, none)
  else prepareTLSConfig x509KeyPair ⟨conf, false, none⟩ loaded

def updateTLSCert (mgr : DefaultManager) (extTLSConf : ExtendedTLSConfig) : Except String DefaultManager :=
  if extTLSConf.certificateChainData.length = 0 ∨ extTLSConf.privateKeyData.length = 0 then .ok mgr
  else
    match x509KeyPair extTLSConf.certificateChainData extTLSConf.privateKeyData with
    | .error err => .error ("loading tls certificate: " ++ err)
    | .ok pair => .ok { mgr with tlsConf := true, tlsCert := some pair.sorted }

/-- `reload`, with whether the file was modified since it was loaded. -/
def reload (mgr : DefaultManager) (modified : Bool) (loaded : Loaded) : DefaultManager :=
  if !mgr.extTLSConf.enabled || mgr.extTLSConf.certificatePath.length = 0 then mgr
  else if !modified then mgr
  else
    match loaded.2 with
    | some _ => mgr
    | none =>
      match mgr.updateTLSCert x509KeyPair loaded.1 with
      | .error _ => mgr
      | .ok mgr' => { mgr' with extTLSConf := loaded.1 }

/-- `SetExtendedTLSConfig`, without whether the HTTPS server is to be restarted. -/
def setExtendedTLSConfig (mgr : DefaultManager) (newConf : ExtendedTLSConfig) : Except String DefaultManager :=
  match mgr.updateTLSCert x509KeyPair newConf with
  | .error err => .error err
  | .ok mgr' => .ok { mgr' with
      extTLSConf := { newConf with
        dnsCryptConfigFile := mgr.extTLSConf.dnsCryptConfigFile
        portDNSCrypt := mgr.extTLSConf.portDNSCrypt } }

/-- A manager after any changes of the files and the configuration. -/
inductive Reachable : DefaultManager → Prop
  | new (conf : ExtendedTLSConfig) (loaded : Loaded) : Reachable (newDefaultManager x509KeyPair conf loaded).1
  | reload {mgr : DefaultManager} (modified : Bool) (loaded : Loaded) :
      Reachable mgr → Reachable (mgr.reload x509KeyPair modified loaded)
  | setExtendedTLSConfig {mgr mgr' : DefaultManager} {newConf : ExtendedTLSConfig} :
      Reachable mgr → mgr.setExtendedTLSConfig x509KeyPair newConf = .ok mgr' → Reachable mgr'

/-- The certificate is there when `tlsConf` is, and was loaded. -/
structure Certified (mgr : DefaultManager) : Prop where
  isSome : mgr.tlsConf = true → mgr.tlsCert.isSome = true
  pair : ∀ cert, mgr.tlsCert = some cert → ∃ chain key pair, x509KeyPair chain key = .ok pair ∧ cert = pair.sorted

end Manager

/-- `onGetCertificate`.  `tlsCert` is not nil when `tlsConf` is not (`Certified`). -/
def onGetCertificate (mgr : DefaultManager) : Option Certificate :=
  if !mgr.extTLSConf.enabled || !mgr.tlsConf then none else mgr.tlsCert

end DefaultManager

/-! ## What the check is for -/

/-- The name is one of the names, or ends with what follows the star of a wildcard name. -/
def NameMatches (names : List String) (sni : String) : Prop :=
  sni ∈ names ∨ ∃ dn ∈ names, matchesDomainWildcard sni dn = true

/-- The manager returns the certificate of the pair, as it was loaded. -/
def DefaultManager.Returns (x509KeyPair : List UInt8 → List UInt8 → Except String KeyPair) (mgr : DefaultManager)
    (pair : KeyPair) : Prop :=
  (∃ chain key, x509KeyPair chain key = .ok pair) ∧ mgr.onGetCertificate = some pair.sorted

/-! ## The check -/

theorem nameMatches_perm {names names' : List String} (h : names'.Perm names) (sni : String) :
    NameMatches names' sni ↔ NameMatches names sni := by
  unfold NameMatches
  simp only [h.mem_iff]

/-- The names of a leaf are the same when they are sorted. -/
theorem names_sort_perm (leaf : Leaf) : leaf.sort.names.Perm leaf.names := by
  have hperm := List.mergeSort_perm leaf.dnsNames fun a b => decide (a ≤ b)
  unfold Leaf.names Leaf.sort
  rw [hperm.length_eq]
  split
  · exact .refl _
  · exact hperm

theorem names_sort_sorted (leaf : Leaf) : leaf.sort.names.Pairwise (· ≤ ·) := by
  have htrans : ∀ a b c : String, decide (a ≤ b) = true → decide (b ≤ c) = true → decide (a ≤ c) = true := by
    intro a b c
    simpa using le_trans
  have htotal : ∀ a b : String, (decide (a ≤ b) || decide (b ≤ a)) = true := by
    intro a b
    simpa using le_total a b
  have hsorted : (leaf.dnsNames.mergeSort fun a b => decide (a ≤ b)).Pairwise (· ≤ ·) := by
    simpa using List.pairwise_mergeSort htrans htotal leaf.dnsNames
  unfold Leaf.names Leaf.sort
  split
  · exact List.pairwise_singleton _ _
  · exact hsorted

/-- The names are found in a sorted list. -/
theorem binarySearch_of_sorted {names : List String} (hsorted : names.Pairwise (· ≤ ·)) (sni : String) :
    binarySearch names sni = true ↔ sni ∈ names := by
  have hbelow : names.Pairwise fun a b => decide (b < sni) = true → decide (a < sni) = true := by
    refine hsorted.imp fun hab hb => ?_
    rw [decide_eq_true_iff] at hb ⊢
    exact lt_of_le_of_lt hab hb
  obtain ⟨lo, hi, hnames, hsearch, hlo, hhi⟩ := search_split hbelow
  rw [binarySearch, decide_eq_true_iff]
  refine ⟨List.mem_of_getElem?, fun hsni => ?_⟩
  rw [hsearch, hnames, List.getElem?_append_right le_rfl, Nat.sub_self]
  rw [hnames, List.mem_append] at hsni
  have hmem : sni ∈ hi := by
    refine hsni.resolve_left fun hmem => ?_
    exact lt_irrefl sni (of_decide_eq_true (hlo sni hmem))
  cases hi with
  | nil => cases hmem
  | cons a hi =>
    rw [hnames, List.pairwise_append] at hsorted
    have hle : sni ≤ a := not_lt.1 (of_decide_eq_false (hhi a List.mem_cons_self))
    rcases List.mem_cons.1 hmem with rfl | hmem
    · rfl
    · have hge := (List.pairwise_cons.1 hsorted.2.1).1 sni hmem
      rw [le_antisymm hle hge]
      rfl

theorem anyNameMatches_of_sorted {env : SNIEnv} {names : List String} (hsorted : names.Pairwise (· ≤ ·)) {sni : String}
    (hvalid : env.isValidHostname sni = true ∨ env.isValidIPString sni = true) :
    anyNameMatches env names sni = true ↔ NameMatches names sni := by
  have hnot : ¬ (!env.isValidHostname sni && !env.isValidIPString sni) = true := by
    rcases hvalid with h | h <;> simp [h]
  rw [anyNameMatches, if_neg hnot, NameMatches, ← binarySearch_of_sorted hsorted]
  cases binarySearch names sni <;> simp

theorem getCertificate_ok_iff {H : Type} {env : SNIEnv} {serverName : H → String}
    {origGetCert : H → Except String (Option Certificate)} {chi : H} {cert : Certificate} {leaf : Leaf}
    (horig : origGetCert chi = .ok (some cert)) (hleaf : cert.leaf = some leaf) :
    getCertificate env serverName origGetCert chi = .ok cert ↔
      anyNameMatches env leaf.names (serverName chi) = true := by
  unfold getCertificate
  rw [horig]
  simp only [hleaf]
  cases anyNameMatches env leaf.names (serverName chi) <;> simp

/-! ## The certificate of the manager -/

namespace DefaultManager

variable {x509KeyPair : List UInt8 → List UInt8 → Except String KeyPair} {mgr mgr' : DefaultManager}

theorem Certified.updateTLSCert (h : Certified x509KeyPair mgr) {conf : ExtendedTLSConfig}
    (hok : mgr.updateTLSCert x509KeyPair conf = .ok mgr') : Certified x509KeyPair mgr' := by
  unfold DefaultManager.updateTLSCert at hok
  split at hok
  · cases hok
    exact h
  · split at hok
    · cases hok
    · rename_i pair hpair
      cases hok
      exact ⟨fun _ => rfl, fun cert hcert => ⟨_, _, pair, hpair, (Option.some.inj hcert).symm⟩⟩

theorem certified_new (conf : ExtendedTLSConfig) (loaded : Loaded) :
    Certified x509KeyPair (newDefaultManager x509KeyPair conf loaded).1 := by
  have hnone : ∀ conf, Certified x509KeyPair ⟨conf, false, none⟩ := fun conf => ⟨nofun, nofun⟩
  unfold newDefaultManager prepareTLSConfig
  split
  · exact hnone conf
  · split
    · exact hnone _
    · split
      · split
        · exact hnone _
        · exact hnone _
      · rename_i pair hpair
        exact ⟨fun _ => rfl, fun cert hcert => ⟨_, _, pair, hpair, (Option.some.inj hcert).symm⟩⟩

theorem Certified.reload (h : Certified x509KeyPair mgr) (modified : Bool) (loaded : Loaded) :
    Certified x509KeyPair (mgr.reload x509KeyPair modified loaded) := by
  unfold DefaultManager.reload
  split
  · exact h
  · split
    · exact h
    · split
      · exact h
      · split
        · exact h
        · rename_i mgr' hok
          obtain ⟨hsome, hpair⟩ := h.updateTLSCert hok
          exact ⟨hsome, hpair⟩

theorem Certified.setExtendedTLSConfig (h : Certified x509KeyPair mgr) {newConf : ExtendedTLSConfig}
    (hok : mgr.setExtendedTLSConfig x509KeyPair newConf = .ok mgr') : Certified x509KeyPair mgr' := by
  unfold DefaultManager.setExtendedTLSConfig at hok
  split at hok
  · cases hok
  · rename_i mgr'' hup
    cases hok
    obtain ⟨hsome, hpair⟩ := h.updateTLSCert hup
    exact ⟨hsome, hpair⟩

theorem Reachable.certified (h : Reachable x509KeyPair mgr) : Certified x509KeyPair mgr := by
  induction h with
  | new conf loaded => exact certified_new conf loaded
  | reload modified loaded _ ih => exact ih.reload modified loaded
  | setExtendedTLSConfig _ hok ih => exact ih.setExtendedTLSConfig hok

/-- Every certificate that the manager returns was loaded. -/
theorem Reachable.returns (h : Reachable x509KeyPair mgr) {cert : Certificate} (hcert : mgr.onGetCertificate = some cert) :
    ∃ pair, mgr.Returns x509KeyPair pair ∧ cert = pair.sorted := by
  have hstored : mgr.tlsCert = some cert := by
    unfold onGetCertificate at hcert
    split at hcert
    · cases hcert
    · exact hcert
  obtain ⟨chain, key, pair, hpair, rfl⟩ := h.certified.pair cert hstored
  exact ⟨pair, ⟨⟨chain, key, hpair⟩, hcert⟩, rfl⟩

end DefaultManager

/-- The certificate is returned for exactly the names that it was loaded with, in any order. -/
theorem getCertificate_of_returns {H : Type} {env : SNIEnv} {serverName : H → String}
    {x509KeyPair : List UInt8 → List UInt8 → Except String KeyPair} {mgr : DefaultManager} {pair : KeyPair} {chi : H}
    (hreturns : mgr.Returns x509KeyPair pair)
    (hvalid : env.isValidHostname (serverName chi) = true ∨ env.isValidIPString (serverName chi) = true) :
    getCertificate env serverName (fun _ => .ok mgr.onGetCertificate) chi = .ok pair.sorted ↔
      NameMatches pair.leaf.names (serverName chi) := by
  have hok := @getCertificate_ok_iff H env serverName (fun _ => .ok mgr.onGetCertificate) chi pair.sorted
    pair.leaf.sort (congrArg Except.ok hreturns.2) rfl
  rw [hok, anyNameMatches_of_sorted (names_sort_sorted pair.leaf) hvalid,
    nameMatches_perm (names_sort_perm pair.leaf)]

/-- Whatever certificate the manager returns, the check lets it through for exactly the names that it was loaded with,
and the same for another order of the names. -/
theorem getCertificate_iff {H : Type} (env : SNIEnv) (serverName : H → String)
    (x509KeyPair : List UInt8 → List UInt8 → Except String KeyPair) {mgr : DefaultManager}
    (hmgr : mgr.Reachable x509KeyPair) {cert : Certificate} (hcert : mgr.onGetCertificate = some cert) (chi : H)
    (hvalid : env.isValidHostname (serverName chi) = true ∨ env.isValidIPString (serverName chi) = true) :
    ∃ pair, mgr.Returns x509KeyPair pair ∧ cert = pair.sorted ∧
      (getCertificate env serverName (fun _ => .ok mgr.onGetCertificate) chi = .ok cert ↔
        NameMatches pair.leaf.names (serverName chi)) ∧
      ∀ mgr' pair', DefaultManager.Returns x509KeyPair mgr' pair' → pair'.leaf.names.Perm pair.leaf.names →
        (getCertificate env serverName (fun _ => .ok mgr'.onGetCertificate) chi = .ok pair'.sorted ↔
          getCertificate env serverName (fun _ => .ok mgr.onGetCertificate) chi = .ok cert) := by
  obtain ⟨pair, hreturns, rfl⟩ := hmgr.returns hcert
  have hiff := getCertificate_of_returns hreturns hvalid
  refine ⟨pair, hreturns, rfl, hiff, fun mgr' pair' hreturns' hperm => ?_⟩
  rw [getCertificate_of_returns hreturns' hvalid, hiff, nameMatches_perm hperm]

/-- A key pair with the names in the order of a certificate. -/
def unsortedPair : KeyPair := ⟨[[0x30]], ⟨["www.example.org", "example.org"], "www.example.org"⟩⟩

/-- It is in a file of one byte, with a key of one byte. -/
def exampleKeyPair (chain key : List UInt8) : Except String KeyPair :=
  if chain = [1] ∧ key = [2] then .ok unsortedPair else .error "tls: failed to find any PEM data"

def exampleEnv : SNIEnv := ⟨(· = "www.example.org"), fun _ => false⟩

def exampleConf : ExtendedTLSConfig := ⟨true, "cert.pem", [1], [2], "", 0⟩

def exampleManager : DefaultManager := (DefaultManager.newDefaultManager exampleKeyPair exampleConf (exampleConf, none)).1

/-- The first of the names is one of those that are returned. -/
theorem getCertificate_iff_unsorted :
    getCertificate exampleEnv id (fun _ => .ok exampleManager.onGetCertificate) "www.example.org" =
      .ok unsortedPair.sorted := by
  obtain ⟨pair, hreturns, hcert, hiff, -⟩ := getCertificate_iff exampleEnv id exampleKeyPair
    (.new exampleConf (exampleConf, none)) (show exampleManager.onGetCertificate = some unsortedPair.sorted from rfl)
    "www.example.org" (.inl (by decide))
  obtain ⟨⟨chain, key, hpair⟩, -⟩ := hreturns
  have hsame : pair = unsortedPair := by
    unfold exampleKeyPair at hpair
    split at hpair
    · cases hpair
      rfl
    · cases hpair
  rw [hsame] at hiff
  exact hiff.2 (.inl (by decide))

end AdGuardHome.Dnsforward
