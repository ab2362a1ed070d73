import AdGuardHome.Aghnet.Text
import AdGuardHome.Dhcp.Lease
import AdGuardHome.Querylog.Format

/-!
# Leases in the database

Both DHCP servers keep their leases in a file of JSON objects with the same fields.  The texts of times, hardware
addresses and addresses are read as what they were made of, times to the second, where the year has four digits.  A
hostname that is not UTF-8 is read as another one.
-/

namespace AdGuardHome.Dhcp

open AdGuardHome.Net AdGuardHome.Lib AdGuardHome.Aghnet

/-! ## Times -/

/-- The nanoseconds of a second, in which instants are measured. -/
def second : Int := 1000000000

/-- An instant without the fraction of its second. -/
def truncate (t : Time) : Time := t / second * second

/-- A number with at least four digits, as the year of a time is written. -/
def yearText (y : Int) : List Char :=
  let digits := if y.natAbs < 10000 then Querylog.padded 4 y.natAbs else Nat.toDigits 10 y.natAbs
  if y < 0 then '-' :: digits else digits

/-- `Time.Format(time.RFC3339)` in a zone with the offset in minutes. -/
def formatRFC3339 (offset : Int) (t : Time) : List Char :=
  match Querylog.formatRFC3339Nano offset ⟨t / second, 0⟩ with
  | some text => text
  | none =>
    -- the year has not four digits; the date is found within a cycle of four hundred years
    let sec := t / second + offset * 60
    let days := sec / 86400 % 146097
    let y := Querylog.yearOf days
    let m := Querylog.monthOf y days
    let d := (days - Querylog.daysSinceYearOne y m 1 + 1).toNat
    let s := (sec % 86400).toNat
    yearText (y + 400 * (sec / 86400 / 146097)) ++ '-' :: (Querylog.padded 2 m ++ '-' :: (Querylog.padded 2 d ++
      'T' :: (Querylog.padded 2 (s / 3600) ++ ':' :: (Querylog.padded 2 (s / 60 % 60) ++ ':' ::
        (Querylog.padded 2 (s % 60) ++ Querylog.zoneText offset)))))

/-- `time.Parse(time.RFC3339, s)` -/
def parseRFC3339 (s : String) : Option Time :=
  (Querylog.parseRFC3339Nano (utf8 s.toList)).map fun t => t.sec * second + t.nsec

/-- In the zone the year of the instant has four digits. -/
def FourDigitYear (offset : Int) (t : Time) : Prop := (Querylog.formatRFC3339Nano offset ⟨t / second, 0⟩).isSome

instance (offset : Int) (t : Time) : Decidable (FourDigitYear offset t) := inferInstanceAs (Decidable (_ = true))

theorem parseRFC3339_format {offset : Int} {t : Time} (h : FourDigitYear offset t) :
    parseRFC3339 (String.ofList (formatRFC3339 offset t)) = some (truncate t) := by
  obtain ⟨text, htext⟩ := Option.isSome_iff_exists.1 h
  have hformat : formatRFC3339 offset t = text := by
    unfold formatRFC3339
    rw [htext]
  unfold parseRFC3339
  rw [hformat, String.toList_ofList, Querylog.parseRFC3339Nano_format htext]
  exact congrArg some (add_zero _)

example : formatRFC3339 60 (second * 315537897600) = "10000-01-01T01:00:00+01:00".toList := by
  decide +kernel

/-! ## Records -/

/-- How `encoding/json` writes a hostname as a text, and reads it. -/
class JSONName (Name : Type) where
  text : Name → String
  ofText : String → Name

instance : JSONName String := ⟨id, id⟩

/-- A byte that is not UTF-8 is written as a replacement character. -/
instance : JSONName GoString := ⟨GoString.text, fun text => text⟩

/-- `dbLease` and `jsonLease`. -/
structure DBLease (Name : Type) where
  expiry : String
  ip : Addr
  hostname : Name
  hwAddr : String
  isStatic : Bool
deriving DecidableEq

/-- A record in the file: the values of `expires`, `ip`, `hostname`, `mac` and `static`. -/
structure Row where
  expires : String
  ip : String
  hostname : String
  mac : String
  static : Bool
deriving DecidableEq

/-- `Addr.MarshalText` -/
def marshalText (ip : Addr) : String := if ip.isValid then addrString ip else ""

/-- `Addr.UnmarshalText` -/
def unmarshalText (s : String) : Option Addr := if s = "" then some .invalid else parseAddr s

section names

variable {Name : Type} [JSONName Name]

/-- How `encoding/json` writes a record. -/
def marshal (dl : DBLease Name) : Row :=
  ⟨dl.expiry, marshalText dl.ip, JSONName.text dl.hostname, dl.hwAddr, dl.isStatic⟩

/-- How `encoding/json` reads a record. -/
def unmarshal (row : Row) : Option (DBLease Name) :=
  (unmarshalText row.ip).map fun ip => ⟨row.expires, ip, JSONName.ofText row.hostname, row.mac, row.static⟩

/-- The hostname is read as it was. -/
def ReadsBack (name : Name) : Prop := JSONName.ofText (JSONName.text name) = name

end names

theorem readsBack_text (name : String) : ReadsBack name := rfl

theorem readsBack_iff (name : GoString) : ReadsBack name ↔ name.IsUtf8 := GoString.isUtf8_iff.symm

section leases

variable {Name : Type}

/-- The record of a lease whose expiry is in a zone with the offset. -/
def toRecord (offset : Int) (l : Lease Name) : DBLease Name where
  expiry := if l.isStatic then "" else String.ofList (formatRFC3339 offset l.expiry)
  ip := l.ip
  hostname := l.hostname
  hwAddr := macString l.hwAddr
  isStatic := l.isStatic

/-- The lease of a record, `none` if its hardware address or its expiry cannot be read. -/
def ofRecord (dl : DBLease Name) : Option (Lease Name) :=
  (parseMAC dl.hwAddr).bind fun mac =>
    (if dl.isStatic then some 0 else parseRFC3339 dl.expiry).map fun expiry =>
      ⟨dl.ip, expiry, dl.hostname, mac, dl.isStatic⟩

/-- What the database keeps of a lease: a static one has no expiry. -/
def kept (l : Lease Name) : Lease Name := { l with expiry := if l.isStatic then 0 else truncate l.expiry }

theorem unmarshal_marshal [JSONName Name] {dl : DBLease Name} (h : ReadsBack dl.hostname) :
    unmarshal (marshal dl) = some dl := by
  have htext : unmarshalText (marshalText dl.ip) = some dl.ip := by
    unfold unmarshalText marshalText
    cases hvalid : dl.ip.isValid with
    | false =>
      cases hip : dl.ip with
      | invalid => rfl
      | v4 a =>
        rw [hip] at hvalid
        cases hvalid
      | v6 a z =>
        rw [hip] at hvalid
        cases hvalid
    | true =>
      have hparse := parseAddr_addrString hvalid
      rw [if_pos rfl, if_neg, hparse]
      intro hempty
      have hnone : parseAddr "" = none := by decide
      rw [hempty, hnone] at hparse
      cases hparse
  have hname : JSONName.ofText (JSONName.text dl.hostname) = dl.hostname := h
  unfold unmarshal marshal
  rw [htext, hname]
  rfl

theorem mapM_eq_some {α β : Type} {f : α → Option β} {g : α → β} {l : List α} (h : ∀ a ∈ l, f a = some (g a)) :
    l.mapM f = some (l.map g) := by
  induction l with
  | nil => rfl
  | cons a l ih =>
    rw [List.mapM_cons, h a (by simp), ih fun b hb => h b (List.mem_cons_of_mem a hb)]
    rfl

/-- A file is read as the records that were written. -/
theorem mapM_unmarshal_marshal [JSONName Name] {dl : List (DBLease Name)} (h : ∀ d ∈ dl, ReadsBack d.hostname) :
    (dl.map marshal).mapM unmarshal = some dl := by
  rw [List.mapM_map]
  exact (mapM_eq_some (g := id) fun d hd => unmarshal_marshal (h d hd)).trans (by rw [List.map_id])

/-- A lease with a valid hardware address is read back, to the second. -/
theorem ofRecord_toRecord {offset : Int} {l : Lease Name} (hmac : validateMAC l.hwAddr = true)
    (hyear : l.isStatic = false → FourDigitYear offset l.expiry) : ofRecord (toRecord offset l) = some (kept l) := by
  unfold ofRecord toRecord kept
  dsimp only
  rw [parseMAC_macString hmac, Option.bind_some]
  cases hst : l.isStatic with
  | true => rfl
  | false =>
    rw [if_neg Bool.false_ne_true, if_neg Bool.false_ne_true, if_neg Bool.false_ne_true,
      parseRFC3339_format (hyear hst)]
    rfl

/-- A lease that is the same but for the fraction of a second. -/
def Same (l l' : Lease Name) : Prop :=
  l.ip = l'.ip ∧ l.hwAddr = l'.hwAddr ∧ l.hostname = l'.hostname ∧ l.isStatic = l'.isStatic ∧
    l.expiry / second = l'.expiry / second

instance [DecidableEq Name] (l l' : Lease Name) : Decidable (Same l l') := inferInstanceAs (Decidable (_ ∧ _))

theorem truncate_div (t : Time) : truncate t / second = t / second := Int.mul_ediv_cancel _ (by decide)

/-- A lease is kept as it is, but for the expiry of a static one. -/
theorem same_kept {l : Lease Name} (h : l.isStatic = true → l.expiry / second = 0) : Same l (kept l) := by
  refine ⟨rfl, rfl, rfl, rfl, ?_⟩
  unfold kept
  dsimp only
  split
  · rename_i hst
    rw [h hst]
    rfl
  · exact (truncate_div l.expiry).symm

theorem kept_congr {l l' : Lease Name} (h : Same l l') : kept l = kept l' := by
  obtain ⟨hip, hmac, hname, hst, hexp⟩ := h
  unfold kept truncate
  ext <;> simp [hip, hmac, hname, hst, hexp]

end leases

end AdGuardHome.Dhcp
