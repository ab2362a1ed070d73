import AdGuardHome.Filtering.Result
import AdGuardHome.Lib.BinarySearch
import AdGuardHome.Net.Parse

/-!
# Persistent clients (`internal/client/persistent.go`)

The client record, its validation and the parsing of its identifiers, and the order of subnets in the index: longer
prefixes first, then by address.
-/

namespace AdGuardHome.Client

open AdGuardHome.Net AdGuardHome.Lib AdGuardHome.Filtering

/-- `UID`: a UUID; the zero value marks an absent one. -/
abbrev UID := BitVec 128

abbrev ClientID := String

structure Persistent where
  name : String
  tags : List String
  upstreams : List String
  ips : List Addr
  subnets : List Prefix
  macs : List HardwareAddr
  clientIDs : List ClientID
  uid : UID
  upstreamsCacheSize : UInt32 := 0
  upstreamsCacheEnabled : Bool := false
  useOwnSettings : Bool := false
  filteringEnabled : Bool := false
  safeBrowsingEnabled : Bool := false
  parentalEnabled : Bool := false
  useOwnBlockedServices : Bool := false
  ignoreQueryLog : Bool := false
  ignoreStatistics : Bool := false
  safeSearchConf : SafeSearchConfig := {}
  /-- The number of the safe search object of the client. -/
  safeSearch : Option ℕ := none
  blockedServices : Option BlockedServices := none
deriving DecidableEq

/-- The errors of the storage, with the data that their messages show. -/
inductive ClientError
  /-- `empty name` -/
  | emptyName
  /-- `id required` -/
  | idRequired
  /-- `uid required` -/
  | uidRequired
  /-- `invalid upstream servers: %w` -/
  | invalidUpstreams (err : String)
  /-- `invalid tag: %q` -/
  | invalidTag (tag : String)
  /-- `another client %q uses the same uid` -/
  | sameUID (name : String)
  /-- `another client uses the same name %q` -/
  | sameName (name : String)
  /-- `another client %q uses the same ClientID %q` -/
  | sameClientID (name : String) (id : ClientID)
  /-- `another client %q uses the same IP %q` -/
  | sameIP (name : String) (ip : Addr)
  /-- `another client %q uses the same subnet %q` -/
  | sameSubnet (name : String) (subnet : Prefix)
  /-- `another client %q uses the same MAC %q` -/
  | sameMAC (name : String) (mac : HardwareAddr)
  /-- `client %q is not found` -/
  | notFound (name : String)
deriving DecidableEq

/-- How a call can fail: with an error, or with a panic of the running goroutine. -/
inductive Fault
  | err (e : ClientError)
  /-- `client must contain uid` -/
  | panicUID
  /-- `invalid mac address %#v` -/
  | panicMAC (mac : HardwareAddr)
  /-- A field of a nil client is read. -/
  | nilClient
deriving DecidableEq

namespace Persistent

/-- `idendifiersLen`. -/
def identifiersLen (c : Persistent) : ℕ :=
  c.ips.length + c.subnets.length + c.macs.length + c.clientIDs.length

/-- `slices.BinarySearch(allTags, t)`. -/
def tagAllowed (allTags : List String) (t : String) : Bool :=
  (allTags[search allTags fun s => s < t]?).any (· == t)

/-- `validate`.  `parseUpstreams` is the error of `proxy.ParseUpstreamsConfig`, if it returns one.  A valid
client has its tags sorted in place. -/
def validate (parseUpstreams : List String → Option String) (allTags : List String) (c : Persistent) :
    Except ClientError Persistent :=
  if c.name = "" then .error .emptyName
  else if c.identifiersLen = 0 then .error .idRequired
  else if c.uid = 0 then .error .uidRequired
  else match parseUpstreams c.upstreams with
    | some e => .error (.invalidUpstreams e)
    | none => match c.tags.find? fun t => !tagAllowed allTags t with
      | some t => .error (.invalidTag t)
      | none => .ok { c with tags := c.tags.mergeSort fun a b => a ≤ b }

/-- Validation changes nothing but the tags. -/
theorem validate_ok {parseUpstreams : List String → Option String} {allTags : List String}
    {c c' : Persistent} (h : c.validate parseUpstreams allTags = .ok c') :
    c.uid ≠ 0 ∧ ∃ tags, c' = { c with tags := tags } := by
  unfold validate at h
  split at h
  · cases h
  split at h
  · cases h
  split at h
  · cases h
  rename_i huid
  split at h
  · cases h
  split at h
  · cases h
  · cases h
    exact ⟨huid, _, rfl⟩

end Persistent

/-- `subnetCompare`. -/
def subnetCompare (x y : Prefix) : Ordering :=
  if x = y then .eq
  else if x.bits = y.bits then x.addr.cmp y.addr
  else if x.bits > y.bits then .lt
  else .gt

theorem subnetCompare_eq_lex : subnetCompare =
    compareLex (fun x y => compareOn Prefix.bits y x) (fun x y => x.addr.cmp y.addr) := by
  funext x y
  simp only [subnetCompare, compareLex, compareOn]
  split
  · rename_i h
    subst h
    have h₁ : compare x.bits x.bits = .eq := Std.ReflCmp.compare_self
    have h₂ : x.addr.cmp x.addr = .eq := Std.ReflCmp.compare_self
    rw [h₁, h₂]
    rfl
  split
  · rename_i h
    have h₁ : compare y.bits y.bits = .eq := Std.ReflCmp.compare_self
    rw [h, h₁]
    rfl
  split
  · rename_i h
    rw [compare_lt_iff_lt.2 h]
    rfl
  · rename_i _ hne hle
    rw [compare_gt_iff_gt.2 (lt_of_le_of_ne (not_lt.1 hle) hne)]
    rfl

instance : Std.TransCmp fun x y : Prefix => x.addr.cmp y.addr where
  eq_swap {a b} := (Std.OrientedCmp.eq_swap : a.addr.cmp b.addr = (b.addr.cmp a.addr).swap)
  isLE_trans {a _ c} h₁ h₂ :=
    (Std.TransCmp.isLE_trans h₁ h₂ : (a.addr.cmp c.addr).isLE = true)

instance : Std.TransCmp subnetCompare := by
  rw [subnetCompare_eq_lex]
  infer_instance

instance : Std.LawfulEqCmp subnetCompare where
  compare_self := by intro x; simp [subnetCompare]
  eq_of_compare := by
    intro x y h
    unfold subnetCompare at h
    split at h
    · assumption
    split at h
    · rename_i hbits
      have ha : x.addr = y.addr := Std.LawfulEqCmp.eq_of_compare h
      have hb : x.bitsPlusOne = y.bitsPlusOne := by
        simp only [Prefix.bits] at hbits
        exact UInt8.toNat_inj.1 (by omega)
      cases x; cases y; simp_all
    split at h <;> cases h

/-! ## Parsing the identifiers -/

inductive IDError
  /-- `clientid is empty` -/
  | empty
  /-- `invalid clientid %q: %w` -/
  | invalid (id : String)
deriving DecidableEq

namespace Persistent

section SetIDs

-- Whether `netutil.ValidateHostnameLabel` returns no error.
variable (validateHostnameLabel : String → Bool)

def setID (c : Persistent) (id : String) : Except IDError Persistent :=
  if id = "" then .error .empty
  else
    match parseAddr id with
    | some ip => .ok { c with ips := c.ips ++ [ip] }
    | none =>
      match parsePrefix id with
      | some subnet => .ok { c with subnets := c.subnets ++ [subnet] }
      | none =>
        match parseMAC id with
        | some mac => .ok { c with macs := c.macs ++ [mac] }
        | none =>
          if validateHostnameLabel id then .ok { c with clientIDs := c.clientIDs ++ [id.toLower] }
          else .error (.invalid id)

/-- The loop of `SetIDs`. -/
def setEach (c : Persistent) : List String → Except IDError Persistent
  | [] => .ok c
  | id :: ids =>
    match c.setID validateHostnameLabel id with
    | .error e => .error e
    | .ok c => c.setEach ids

def setIDs (c : Persistent) (ids : List String) : Except IDError Persistent :=
  match c.setEach validateHostnameLabel ids with
  | .error e => .error e
  | .ok c => .ok { c with
    ips := c.ips.mergeSort fun a b => a.cmp b != .gt
    subnets := c.subnets.mergeSort fun a b => subnetCompare a b != .gt
    macs := c.macs.mergeSort fun a b => a ≤ b
    clientIDs := c.clientIDs.mergeSort fun a b => a ≤ b }

end SetIDs

variable {validateHostnameLabel : String → Bool} {c c' : Persistent}

theorem setID_clientIDs {id : String} (hc : "" ∉ c.clientIDs) (h : c.setID validateHostnameLabel id = .ok c') :
    "" ∉ c'.clientIDs := by
  unfold setID at h
  split at h
  · cases h
  rename_i hid
  split at h
  · cases h
    exact hc
  split at h
  · cases h
    exact hc
  split at h
  · cases h
    exact hc
  split at h
  · cases h
    have hlower : id.toLower ≠ "" := fun h0 => hid (String.map_eq_empty.1 h0)
    simpa [hc] using hlower.symm
  · cases h

theorem setEach_clientIDs {ids : List String} (hc : "" ∉ c.clientIDs)
    (h : c.setEach validateHostnameLabel ids = .ok c') : "" ∉ c'.clientIDs := by
  induction ids generalizing c with
  | nil =>
    cases h
    exact hc
  | cons id ids ih =>
    unfold setEach at h
    split at h
    · cases h
    · rename_i c₁ hid
      exact ih (setID_clientIDs hc hid) h

/-- `SetIDs` gives no client the empty ClientID. -/
theorem setIDs_clientIDs {ids : List String} (hc : "" ∉ c.clientIDs)
    (h : c.setIDs validateHostnameLabel ids = .ok c') : "" ∉ c'.clientIDs := by
  unfold setIDs at h
  split at h
  · cases h
  · rename_i c₁ heach
    cases h
    simpa using setEach_clientIDs hc heach

end Persistent

end AdGuardHome.Client
