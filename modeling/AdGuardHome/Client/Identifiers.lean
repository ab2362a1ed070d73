import AdGuardHome.Aghnet.Text
import AdGuardHome.Client.Persistent
import AdGuardHome.Lib.Each
import AdGuardHome.Lib.Lower

/-!
# Saving the identifiers of a client

`Identifiers` prints what `SetIDs` has parsed.  Each text is parsed on its own, so the result of `SetIDs` is computed
from the kinds that the texts are read as, and a printed identifier is read as the same one, with a single exception:
eight bytes of a hardware address print as an IPv6 address.
-/

namespace AdGuardHome.Client

open AdGuardHome.Net AdGuardHome.Lib AdGuardHome.Aghnet

namespace Persistent

/-- `Identifiers` -/
def identifiers (c : Persistent) : List String :=
  c.ips.map addrString ++ c.subnets.map prefixString ++ c.macs.map macString ++ c.clientIDs

/-- `EqualIDs` -/
def equalIDs (c prev : Persistent) : Bool :=
  c.ips == prev.ips && c.subnets == prev.subnets && c.macs == prev.macs && c.clientIDs == prev.clientIDs

/-- A client as the loader makes it before its identifiers are set. -/
def zero : Persistent :=
  { name := "", tags := [], upstreams := [], ips := [], subnets := [], macs := [], clientIDs := [], uid := 0 }

end Persistent

/-- What `netutil.ValidateHostnameLabel` accepts: letters, digits, hyphens and low lines, in either case. -/
structure LabelValidation (validateHostnameLabel : String → Bool) : Prop where
  chars : ∀ s, validateHostnameLabel s = true → ∀ c ∈ s.toList, c.isAlphanum = true ∨ c = '-' ∨ c = '_'
  lower : ∀ s, validateHostnameLabel s = true → validateHostnameLabel s.toLower = true

/-! ## One identifier -/

/-- An identifier as it is stored. -/
inductive Identifier
  | ip (a : Addr)
  | subnet (p : Prefix)
  | mac (m : HardwareAddr)
  | clientID (id : ClientID)
deriving DecidableEq

namespace Identifier

def ip? : Identifier → Option Addr
  | .ip a => some a
  | _ => none

def subnet? : Identifier → Option Prefix
  | .subnet p => some p
  | _ => none

def mac? : Identifier → Option HardwareAddr
  | .mac m => some m
  | _ => none

def clientID? : Identifier → Option ClientID
  | .clientID id => some id
  | _ => none

@[simp] theorem ip?_eq_some {x : Identifier} {a : Addr} : x.ip? = some a ↔ x = .ip a := by
  cases x <;> simp [ip?]

@[simp] theorem subnet?_eq_some {x : Identifier} {p : Prefix} : x.subnet? = some p ↔ x = .subnet p := by
  cases x <;> simp [subnet?]

@[simp] theorem mac?_eq_some {x : Identifier} {m : HardwareAddr} : x.mac? = some m ↔ x = .mac m := by
  cases x <;> simp [mac?]

@[simp] theorem clientID?_eq_some {x : Identifier} {id : ClientID} : x.clientID? = some id ↔ x = .clientID id := by
  cases x <;> simp [clientID?]

/-- What `setID` reads the text as. -/
def read (validateHostnameLabel : String → Bool) (id : String) : Except IDError Identifier :=
  if id = "" then .error .empty
  else
    match parseAddr id with
    | some a => .ok (.ip a)
    | none =>
      match parsePrefix id with
      | some p => .ok (.subnet p)
      | none =>
        match parseMAC id with
        | some m => .ok (.mac m)
        | none => if validateHostnameLabel id then .ok (.clientID id.toLower) else .error (.invalid id)

end Identifier

namespace Persistent

def add (c : Persistent) : Identifier → Persistent
  | .ip a => { c with ips := c.ips ++ [a] }
  | .subnet p => { c with subnets := c.subnets ++ [p] }
  | .mac m => { c with macs := c.macs ++ [m] }
  | .clientID id => { c with clientIDs := c.clientIDs ++ [id] }

/-- The client with further identifiers. -/
def adds (c : Persistent) (xs : List Identifier) : Persistent :=
  { c with
    ips := c.ips ++ xs.filterMap Identifier.ip?
    subnets := c.subnets ++ xs.filterMap Identifier.subnet?
    macs := c.macs ++ xs.filterMap Identifier.mac?
    clientIDs := c.clientIDs ++ xs.filterMap Identifier.clientID? }

theorem adds_nil (c : Persistent) : c.adds [] = c := by
  simp [adds]

theorem adds_cons (c : Persistent) (x : Identifier) (xs : List Identifier) : c.adds (x :: xs) = (c.add x).adds xs := by
  cases x <;> simp [adds, add, List.filterMap_cons, Identifier.ip?, Identifier.subnet?, Identifier.mac?,
    Identifier.clientID?]

variable {V : String → Bool}

theorem setID_eq (c : Persistent) (id : String) : c.setID V id = (Identifier.read V id).map c.add := by
  unfold setID Identifier.read
  split
  · rfl
  cases parseAddr id with
  | some a => rfl
  | none =>
    cases parsePrefix id with
    | some p => rfl
    | none =>
      cases parseMAC id with
      | some m => rfl
      | none => cases V id <;> rfl

/-- The texts are read each on its own. -/
theorem setEach_ok_iff {c c' : Persistent} {ids : List String} :
    c.setEach V ids = .ok c' ↔ ∃ xs, List.Forall₂ (fun id x => Identifier.read V id = .ok x) ids xs ∧ c' = c.adds xs := by
  induction ids generalizing c with
  | nil =>
    constructor
    · intro h
      cases h
      exact ⟨[], .nil, (adds_nil _).symm⟩
    · rintro ⟨xs, hxs, rfl⟩
      cases hxs
      rw [adds_nil]
      rfl
  | cons id ids ih =>
    rw [setEach, setID_eq]
    cases hread : Identifier.read V id with
    | error e =>
      constructor
      · intro h
        cases h
      · rintro ⟨xs, hxs, -⟩
        cases hxs with
        | cons hx _ =>
          rw [hread] at hx
          cases hx
    | ok x =>
      show (c.add x).setEach V ids = .ok c' ↔ _
      rw [ih]
      constructor
      · rintro ⟨xs, hxs, rfl⟩
        exact ⟨x :: xs, .cons hread hxs, (adds_cons c x xs).symm⟩
      · rintro ⟨xs, hxs, rfl⟩
        cases hxs with
        | cons hx hxs =>
          cases hread.symm.trans hx
          exact ⟨_, hxs, adds_cons c x _⟩

end Persistent

/-! ## Reading what is printed -/

theorem hexDigit?_toLower (c : Char) : hexDigit? c.toLower = hexDigit? c := by
  rcases toLower_spec c with h | ⟨-, hhigh, -⟩
  · rw [h]
  · have hchars : ∀ n < 91, hexDigit? (Char.ofNat n).toLower = hexDigit? (Char.ofNat n) := by decide
    have hc := hchars c.toNat (Nat.lt_succ_of_le hhigh)
    rwa [Char.ofNat_toNat] at hc

theorem hexBytes_toLower : ∀ cs : List Char, hexBytes (cs.map Char.toLower) = hexBytes cs
  | [] => rfl
  | [_] => rfl
  | c :: d :: cs => by
    rw [List.map_cons, List.map_cons, hexBytes, hexBytes, hexDigit?_toLower, hexDigit?_toLower, hexBytes_toLower cs]

theorem parseMACGroups_toLower {sep : Char} (hsep : sep.isAlpha = false) (digits : ℕ) (cs : List Char) :
    parseMACGroups sep digits (cs.map Char.toLower) = parseMACGroups sep digits cs := by
  have hall : ((cs.splitOn sep).map (List.map Char.toLower)).all (·.length == digits) =
      (cs.splitOn sep).all (·.length == digits) := by
    rw [List.all_map]
    congr 1
    funext l
    simp
  unfold parseMACGroups
  simp only [splitOn_map fun c => toLower_eq_of_not_isAlpha hsep]
  rw [hall, ← List.map_flatten, hexBytes_toLower]

/-- A hardware address is read without regard to case. -/
theorem parseMAC_toLower (id : String) : parseMAC id.toLower = parseMAC id := by
  have hget : ∀ {sep : Char} (i : ℕ), sep.isAlpha = false →
      ((id.toList.map Char.toLower)[i]? = some sep ↔ id.toList[i]? = some sep) := by
    intro sep i hsep
    rw [List.getElem?_map, Option.map_eq_some_iff]
    constructor
    · rintro ⟨c, hc, hlower⟩
      rw [hc, (toLower_eq_of_not_isAlpha hsep).1 hlower]
    · intro h
      exact ⟨sep, h, (toLower_eq_of_not_isAlpha hsep).2 rfl⟩
  have hcolon : Char.isAlpha ':' = false := by decide
  have hhyphen : Char.isAlpha '-' = false := by decide
  have hdot : Char.isAlpha '.' = false := by decide
  unfold parseMAC
  simp only [toList_toLower, hget 2 hcolon, hget 2 hhyphen, hget 4 hdot, parseMACGroups_toLower hcolon,
    parseMACGroups_toLower hhyphen, parseMACGroups_toLower hdot]

namespace Identifier

variable {V : String → Bool} {id : String} {x : Identifier}

/-- A hardware address of eight bytes in one of the notations that are not those of an IPv6 address. -/
def EUI64 (id : String) : Prop :=
  parseAddr id = none ∧ parsePrefix id = none ∧ ∃ m, parseMAC id = some m ∧ m.length = 8

/-- The text of what is stored. -/
def text : Identifier → String
  | .ip a => addrString a
  | .subnet p => prefixString p
  | .mac m => macString m
  | .clientID id => id

/-- What that text is read as. -/
def reread : Identifier → Identifier
  | .mac m =>
    match parseAddr (macString m) with
    | some a => .ip a
    | none => .mac m
  | x => x

/-- What `setID` stores. -/
def Proper (V : String → Bool) : Identifier → Prop
  | .ip a => a.isValid = true
  | .subnet p => ParsedPrefix p
  | .mac m => validMACLen m.length = true
  | .clientID id => read V id = .ok (.clientID id)

/-- A label is the text of no address and no prefix. -/
theorem parse_label {id : String} (hchars : ∀ c ∈ id.toList, c.isAlphanum = true ∨ c = '-' ∨ c = '_') :
    parseAddr id = none ∧ parsePrefix id = none := by
  have hmem : ∀ {c : Char}, c.isAlphanum = false → c ≠ '-' → c ≠ '_' → c ∉ id.toList := by
    intro c halphanum hhyphen hlow hc
    rcases hchars c hc with h | h | h
    · rw [h] at halphanum
      cases halphanum
    · exact hhyphen h
    · exact hlow h
  constructor
  · have hfind : id.toList.find? (fun c => c = '.' ∨ c = ':' ∨ c = '%') = none := by
      rw [List.find?_eq_none]
      rintro c hc
      simp only [decide_eq_true_eq]
      rintro (rfl | rfl | rfl)
      · exact hmem (by decide) (by decide) (by decide) hc
      · exact hmem (by decide) (by decide) (by decide) hc
      · exact hmem (by decide) (by decide) (by decide) hc
    rw [parseAddr, hfind]
  · exact parsePrefix_of_no_slash (hmem (by decide) (by decide) (by decide))

theorem parseMAC_length {id : String} {m : HardwareAddr} (h : parseMAC id = some m) : validMACLen m.length = true := by
  have hgroups : ∀ {sep : Char} {digits : ℕ}, parseMACGroups sep digits id.toList = some m →
      validMACLen m.length = true := by
    intro sep digits h
    unfold parseMACGroups at h
    simp only at h
    split at h
    · obtain ⟨m', -, h⟩ := Option.bind_eq_some_iff.1 h
      split at h
      · rename_i hlen
        cases h
        exact hlen
      · cases h
    · cases h
  unfold parseMAC at h
  simp only at h
  split at h
  · exact hgroups h
  split at h
  · exact hgroups h
  split at h
  · exact hgroups h
  · cases h

theorem proper_of_read (hV : LabelValidation V) (h : read V id = .ok x) : Proper V x := by
  unfold read at h
  split at h
  · cases h
  rename_i hid
  split at h
  · rename_i a hip
    cases h
    exact isValid_of_parseAddr hip
  split at h
  · rename_i p hsubnet
    cases h
    exact parsedPrefix_of_parsePrefix hsubnet
  split at h
  · rename_i m hmac
    cases h
    exact parseMAC_length hmac
  rename_i hmac
  split at h
  · rename_i hlabel
    cases h
    have hlower := hV.lower id hlabel
    obtain ⟨hip, hsubnet⟩ := parse_label (hV.chars _ hlower)
    rw [Proper, read, if_neg (fun h0 => hid (toLower_eq_empty.1 h0)), hip, hsubnet, parseMAC_toLower, hmac]
    simp only [hlower, if_true, toLower_toLower]
  · cases h

/-- The text of what is stored is read as the same, but for hardware addresses that print as IPv6 addresses. -/
theorem read_text (h : Proper V x) : read V x.text = .ok x.reread := by
  have hempty : parseAddr "" = none ∧ parsePrefix "" = none ∧ parseMAC "" = none := by decide
  cases x with
  | ip a =>
    have hparse := parseAddr_addrString h
    have hne : addrString a ≠ "" := by
      intro h0
      rw [h0, hempty.1] at hparse
      cases hparse
    rw [read, text, if_neg hne, hparse]
    rfl
  | subnet p =>
    have hparse := parsePrefix_prefixString h
    have hne : prefixString p ≠ "" := by
      intro h0
      rw [h0, hempty.2.1] at hparse
      cases hparse
    rw [read, text, if_neg hne, parseAddr_prefixString h, hparse]
    rfl
  | mac m =>
    have hparse := parseMAC_macString h
    have hne : macString m ≠ "" := by
      intro h0
      rw [h0, hempty.2.2] at hparse
      cases hparse
    rw [read, text, if_neg hne, parsePrefix_macString, hparse, reread]
    cases parseAddr (macString m) <;> rfl
  | clientID id => exact h

theorem reread_eq (h : Proper V x) (hmac : ∀ m, x = .mac m → m.length ≠ 8) : x.reread = x := by
  cases x with
  | mac m =>
    have htext := parseAddr_macString h
    rw [if_neg (hmac m rfl)] at htext
    rw [reread, htext]
  | _ => rfl

theorem mac?_reread (h : Proper V x) : x.reread.mac? = x.mac?.filter fun m => m.length != 8 := by
  cases x with
  | mac m =>
    have htext := parseAddr_macString h
    split at htext
    · rename_i hlen
      obtain ⟨a, ha⟩ := htext
      rw [reread, ha]
      simp [mac?, Option.filter, hlen]
    · rename_i hlen
      rw [reread, htext]
      simp [mac?, Option.filter, hlen]
  | _ => rfl

theorem read_mac_iff {m : HardwareAddr} : read V id = .ok (.mac m) ↔
    parseAddr id = none ∧ parsePrefix id = none ∧ parseMAC id = some m := by
  have hempty : parseMAC "" = none := by decide
  constructor
  · intro h
    unfold read at h
    split at h
    · cases h
    split at h
    · cases h
    rename_i hip
    split at h
    · cases h
    rename_i hsubnet
    split at h
    · rename_i hmac
      cases h
      exact ⟨hip, hsubnet, hmac⟩
    split at h <;> cases h
  · rintro ⟨hip, hsubnet, hmac⟩
    have hne : id ≠ "" := by
      rintro rfl
      rw [hempty] at hmac
      cases hmac
    rw [read, if_neg hne, hip, hsubnet, hmac]

end Identifier

/-! ## All of them -/

namespace Persistent

variable {V : String → Bool} {c₀ c₁ c : Persistent} {ids : List String}

/-- The identifiers in the order in which they are printed. -/
def stored (c : Persistent) : List Identifier :=
  c.ips.map .ip ++ c.subnets.map .subnet ++ c.macs.map .mac ++ c.clientIDs.map .clientID

theorem identifiers_eq (c : Persistent) : c.identifiers = c.stored.map Identifier.text := by
  simp [identifiers, stored, Identifier.text, Function.comp_def]

/-- What `SetIDs` does after its loop. -/
def sortIDs (c : Persistent) : Persistent :=
  { c with
    ips := c.ips.mergeSort fun a b => a.cmp b != .gt
    subnets := c.subnets.mergeSort fun a b => subnetCompare a b != .gt
    macs := c.macs.mergeSort fun a b => a ≤ b
    clientIDs := c.clientIDs.mergeSort fun a b => a ≤ b }

theorem setIDs_ok_iff : c₀.setIDs V ids = .ok c ↔
    ∃ xs, List.Forall₂ (fun id x => Identifier.read V id = .ok x) ids xs ∧ c = (c₀.adds xs).sortIDs := by
  unfold setIDs
  constructor
  · intro h
    split at h
    · cases h
    · rename_i c' heach
      obtain ⟨xs, hxs, rfl⟩ := setEach_ok_iff.1 heach
      cases h
      exact ⟨xs, hxs, rfl⟩
  · rintro ⟨xs, hxs, rfl⟩
    rw [setEach_ok_iff.2 ⟨xs, hxs, rfl⟩]
    rfl

theorem mergeSort_mergeSort {α : Type} {le : α → α → Bool} (trans : ∀ a b c, le a b → le b c → le a c)
    (total : ∀ a b, le a b || le b a) (l : List α) : (l.mergeSort le).mergeSort le = l.mergeSort le :=
  List.mergeSort_of_pairwise (List.pairwise_mergeSort trans total l)

theorem mergeSort_mergeSort_cmp {α : Type} {cmp : α → α → Ordering} [Std.TransCmp cmp] (l : List α) :
    (l.mergeSort fun a b => cmp a b != .gt).mergeSort (fun a b => cmp a b != .gt) =
      l.mergeSort fun a b => cmp a b != .gt := by
  have hle : ∀ {a b}, (cmp a b != .gt) = true ↔ (cmp a b).isLE = true := by
    intro a b
    cases cmp a b <;> decide
  apply mergeSort_mergeSort
  · intro a b c hab hbc
    rw [hle] at hab hbc ⊢
    exact Std.TransCmp.isLE_trans hab hbc
  · intro a b
    rw [@Std.OrientedCmp.eq_swap _ cmp _ a b]
    cases cmp b a <;> decide

theorem sortIDs_sortIDs (c : Persistent) : c.sortIDs.sortIDs = c.sortIDs := by
  have hmacs : (c.macs.mergeSort fun a b => a ≤ b).mergeSort (fun a b => a ≤ b) = c.macs.mergeSort fun a b => a ≤ b := by
    apply mergeSort_mergeSort
    · intro a b c hab hbc
      exact decide_eq_true (List.le_trans (of_decide_eq_true hab) (of_decide_eq_true hbc))
    · intro a b
      rw [Bool.or_eq_true, decide_eq_true_eq, decide_eq_true_eq]
      exact List.le_total a b
  have hclientIDs : (c.clientIDs.mergeSort fun a b => a ≤ b).mergeSort (fun a b => a ≤ b) =
      c.clientIDs.mergeSort fun a b => a ≤ b := by
    apply mergeSort_mergeSort
    · intro a b c hab hbc
      exact decide_eq_true (String.le_trans (of_decide_eq_true hab) (of_decide_eq_true hbc))
    · intro a b
      rw [Bool.or_eq_true, decide_eq_true_eq, decide_eq_true_eq]
      exact String.le_total a b
  simp only [sortIDs, mergeSort_mergeSort_cmp, hmacs, hclientIDs]

theorem adds_of_len (h : c₀.identifiersLen = 0) (xs : List Identifier) :
    c₀.adds xs = { c₀ with
      ips := xs.filterMap Identifier.ip?
      subnets := xs.filterMap Identifier.subnet?
      macs := xs.filterMap Identifier.mac?
      clientIDs := xs.filterMap Identifier.clientID? } := by
  have hnil : c₀.ips = [] ∧ c₀.subnets = [] ∧ c₀.macs = [] ∧ c₀.clientIDs = [] := by
    simpa [identifiersLen, and_assoc] using h
  obtain ⟨hips, hsubnets, hmacs, hclientIDs⟩ := hnil
  simp [adds, hips, hsubnets, hmacs, hclientIDs]

theorem adds_stored (h : c₁.identifiersLen = 0) (c : Persistent) :
    c₁.adds c.stored =
      { c₁ with ips := c.ips, subnets := c.subnets, macs := c.macs, clientIDs := c.clientIDs } := by
  rw [adds_of_len h]
  simp [stored, List.filterMap_map, Function.comp_def, Identifier.ip?, Identifier.subnet?, Identifier.mac?,
    Identifier.clientID?]

theorem mem_stored_sort (h : c₀.identifiersLen = 0) {xs : List Identifier} {x : Identifier} :
    x ∈ (c₀.adds xs).sortIDs.stored ↔ x ∈ xs := by
  rw [adds_of_len h]
  cases x <;> simp [stored, sortIDs, List.mem_mergeSort, List.mem_filterMap]

end Persistent

open Identifier Persistent

variable {V : String → Bool} {c₀ c₁ c : Persistent} {ids : List String}

/-- Setting the printed identifiers always succeeds. -/
theorem setIDs_identifiers (c₁ : Persistent) (hc : ∀ x ∈ c.stored, Proper V x) :
    c₁.setIDs V c.identifiers = .ok (c₁.adds (c.stored.map reread)).sortIDs := by
  refine setIDs_ok_iff.2 ⟨c.stored.map reread, ?_, rfl⟩
  rw [identifiers_eq, List.forall₂_map_left_iff, List.forall₂_map_right_iff, List.forall₂_same]
  exact fun x hx => read_text (hc x hx)

/-- They give the same client if no hardware address has eight bytes. -/
theorem equalIDs_of_clear (h₁ : c₁.identifiersLen = 0) (hc : ∀ x ∈ c.stored, Proper V x) (hsorted : c.sortIDs = c)
    (hmac : ∀ m ∈ c.macs, m.length ≠ 8) : c.equalIDs (c₁.adds (c.stored.map reread)).sortIDs = true := by
  have hreread : c.stored.map reread = c.stored := by
    conv_rhs => rw [← List.map_id c.stored]
    apply List.map_congr_left
    intro x hx
    refine reread_eq (hc x hx) ?_
    rintro m rfl
    exact hmac m (by simpa [stored] using hx)
  rw [hreread, adds_stored h₁]
  have hips := congrArg Persistent.ips hsorted
  have hsubnets := congrArg Persistent.subnets hsorted
  have hmacs := congrArg Persistent.macs hsorted
  have hclientIDs := congrArg Persistent.clientIDs hsorted
  simp only [sortIDs] at hips hsubnets hmacs hclientIDs
  simp [equalIDs, sortIDs, hips, hsubnets, hmacs, hclientIDs]

/-- They give fewer hardware addresses if one has eight bytes. -/
theorem not_equalIDs_of_EUI64 (h₁ : c₁.identifiersLen = 0) (hc : ∀ x ∈ c.stored, Proper V x) {m : HardwareAddr}
    (hm : m ∈ c.macs) (hlen : m.length = 8) : c.equalIDs (c₁.adds (c.stored.map reread)).sortIDs = false := by
  have hmacs : (c.stored.map reread).filterMap mac? = c.macs.filter fun m => m.length != 8 := by
    have hmap : ∀ xs : List Identifier, (∀ x ∈ xs, Proper V x) →
        (xs.map reread).filterMap mac? = (xs.filterMap mac?).filter fun m => m.length != 8 := by
      intro xs hxs
      rw [List.filterMap_map, List.filter_filterMap]
      exact List.filterMap_congr fun x hx => mac?_reread (hxs x hx)
    have hstored : c.stored.filterMap mac? = c.macs := by
      have hadds := congrArg Persistent.macs (adds_stored h₁ c)
      rwa [adds_of_len h₁] at hadds
    rw [hmap _ hc, hstored]
  have hlt : (c.macs.filter fun m => m.length != 8).length < c.macs.length := by
    rw [List.length_filter_lt_length_iff_exists]
    exact ⟨m, hm, by simp [hlen]⟩
  have hne : c.macs ≠ (c₁.adds (c.stored.map reread)).sortIDs.macs := by
    intro heq
    have hlength := congrArg List.length heq
    rw [adds_of_len h₁] at hlength
    simp only [sortIDs, hmacs, List.length_mergeSort] at hlength
    omega
  simp [equalIDs, hne]

/-- The identifiers of a client survive saving if and only if no hardware address of eight bytes is given. -/
theorem identifiers_survive_iff (hV : LabelValidation V) (h₀ : c₀.identifiersLen = 0) (h₁ : c₁.identifiersLen = 0)
    (h : c₀.setIDs V ids = .ok c) :
    (∃ c', c₁.setIDs V c.identifiers = .ok c' ∧ c.equalIDs c' = true) ↔ ∀ id ∈ ids, ¬ EUI64 id := by
  obtain ⟨xs, hxs, rfl⟩ := setIDs_ok_iff.1 h
  have hstored : ∀ {x}, x ∈ (c₀.adds xs).sortIDs.stored ↔ x ∈ xs := mem_stored_sort h₀
  have hproper : ∀ x ∈ (c₀.adds xs).sortIDs.stored, Proper V x := by
    intro x hx
    obtain ⟨id, -, hid⟩ := exists_left_of_forall₂ hxs (hstored.1 hx)
    exact proper_of_read hV hid
  have hmem : ∀ {m}, m ∈ (c₀.adds xs).sortIDs.macs ↔ ∃ id ∈ ids, read V id = .ok (.mac m) := by
    intro m
    have hmac : m ∈ (c₀.adds xs).sortIDs.macs ↔ .mac m ∈ xs := by
      rw [← hstored]
      simp [stored]
    rw [hmac]
    constructor
    · intro hx
      exact exists_left_of_forall₂ hxs hx
    · rintro ⟨id, hid, hread⟩
      obtain ⟨x, hx, hread'⟩ := exists_right_of_forall₂ hxs hid
      cases hread.symm.trans hread'
      exact hx
  rw [setIDs_identifiers c₁ hproper]
  constructor
  · rintro ⟨c', hc', hequal⟩ id hid ⟨hip, hsubnet, m, hparse, hlen⟩
    cases hc'
    have hm := hmem.2 ⟨id, hid, read_mac_iff.2 ⟨hip, hsubnet, hparse⟩⟩
    rw [not_equalIDs_of_EUI64 h₁ hproper hm hlen] at hequal
    cases hequal
  · intro hids
    refine ⟨_, rfl, equalIDs_of_clear h₁ hproper (sortIDs_sortIDs _) ?_⟩
    intro m hm hlen
    obtain ⟨id, hid, hread⟩ := hmem.1 hm
    obtain ⟨hip, hsubnet, hparse⟩ := read_mac_iff.1 hread
    exact hids id hid ⟨hip, hsubnet, m, hparse, hlen⟩

/-- Letters, digits, hyphens and low lines. -/
def asciiLabel (s : String) : Bool := s.toList.all fun c => c.isAlphanum || c == '-' || c == '_'

theorem labelValidation_asciiLabel : LabelValidation asciiLabel where
  chars := by
    intro s hs c hc
    have hchar := List.all_eq_true.1 hs c hc
    simpa [or_assoc] using hchar
  lower := by
    intro s hs
    rw [asciiLabel, toList_toLower, List.all_map, List.all_eq_true]
    intro c hc
    have hchar := List.all_eq_true.1 hs c hc
    by_cases hlower : c.toLower = c
    · rwa [Function.comp_apply, hlower]
    · have halpha := (isAlpha_of_toLower_ne hlower).2
      simp [Char.isAlphanum, halpha]

theorem identifiers_survive_sixBytes :
    ∃ c, Persistent.zero.setIDs asciiLabel ["192.168.0.1", "00-11-22-33-44-55"] = .ok c ∧
      ∃ c', Persistent.zero.setIDs asciiLabel c.identifiers = .ok c' ∧ c.equalIDs c' = true := by
  have hset : Persistent.zero.setIDs asciiLabel ["192.168.0.1", "00-11-22-33-44-55"] =
      .ok (Persistent.zero.adds [.ip (.v4 0xc0a80001), .mac [0x00, 0x11, 0x22, 0x33, 0x44, 0x55]]).sortIDs :=
    setIDs_ok_iff.2 ⟨_, .cons (by decide) (.cons (by decide) .nil), rfl⟩
  refine ⟨_, hset, (identifiers_survive_iff labelValidation_asciiLabel rfl rfl hset).2 ?_⟩
  rintro id hid ⟨hip, -, m, hm, hlen⟩
  rcases List.mem_cons.1 hid with rfl | hid
  · cases hip
  · obtain rfl := List.mem_singleton.1 hid
    have hparse : parseMAC "00-11-22-33-44-55" = some [0x00, 0x11, 0x22, 0x33, 0x44, 0x55] := by decide
    obtain rfl := Option.some.inj (hparse.symm.trans hm)
    cases hlen

/-- An address of eight bytes comes back as an IPv6 address. -/
theorem identifiers_lost_eightBytes : ¬ ∀ (V : String → Bool), LabelValidation V →
    ∀ (ids : List String) (c : Persistent), Persistent.zero.setIDs V ids = .ok c →
      ∃ c', Persistent.zero.setIDs V c.identifiers = .ok c' ∧ c.equalIDs c' = true := by
  intro h
  have hmac : ∀ m, (Persistent.zero.adds [.mac m]).sortIDs = { Persistent.zero with macs := [m] } := by
    intro m
    simp [sortIDs, adds, Persistent.zero, List.filterMap_cons, ip?, subnet?, mac?, clientID?]
  have hip : ∀ a, (Persistent.zero.adds [.ip a]).sortIDs = { Persistent.zero with ips := [a] } := by
    intro a
    simp [sortIDs, adds, Persistent.zero, List.filterMap_cons, ip?, subnet?, mac?, clientID?]
  have hset : Persistent.zero.setIDs asciiLabel ["00-11-22-33-44-55-66-77"] =
      .ok { Persistent.zero with macs := [[0x00, 0x11, 0x22, 0x33, 0x44, 0x55, 0x66, 0x77]] } :=
    setIDs_ok_iff.2 ⟨_, .cons (by decide) .nil, (hmac _).symm⟩
  have hset' : Persistent.zero.setIDs asciiLabel ["00:11:22:33:44:55:66:77"] =
      .ok { Persistent.zero with ips := [.v6 0x00000011002200330044005500660077 ""] } :=
    setIDs_ok_iff.2 ⟨_, .cons (by decide) .nil, (hip _).symm⟩
  obtain ⟨c', hc', hequal⟩ := h asciiLabel labelValidation_asciiLabel _ _ hset
  cases hset'.symm.trans hc'
  cases hequal

end AdGuardHome.Client
