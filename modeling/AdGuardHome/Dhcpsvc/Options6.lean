import AdGuardHome.Lib.BigEndian
import AdGuardHome.Lib.Utf8
import AdGuardHome.Net.Netip
import Mathlib.Data.List.Forall2

/-!
# The IA_NA option of DHCPv6

The codec of `options6.go`.  The decoder reads a header of twelve bytes and then records until fewer than four bytes
are left; those of other codes are skipped.  Slices are read with their bounds checked, where the source would panic.
-/

namespace AdGuardHome.Dhcpsvc

open AdGuardHome.Net AdGuardHome.Lib

/-- `time.Duration`, in nanoseconds. -/
abbrev Duration := ℤ

/-- `time.Second` -/
def second : Duration := 1000000000

/-- `uint32(d.Seconds())`, for a whole number of seconds that `uint32` can hold. -/
def seconds (d : Duration) : ℕ := (d / second).toNat % 256 ^ 4

structure IAAddrOption where
  addr : Addr
  preferredLifetime : Duration
  validLifetime : Duration
deriving DecidableEq

structure IANAOption where
  nested : List IAAddrOption
  id : UInt32
  t1 : Duration
  t2 : Duration
deriving DecidableEq

/-- `layers.DHCPv6Option`, whose length is that of its data. -/
structure DHCPv6Option where
  code : UInt16
  data : List UInt8
deriving DecidableEq

/-- `layers.DHCPv6OptIANA` -/
def optIANA : UInt16 := 3

/-- `layers.DHCPv6OptIAAddr` -/
def optIAAddr : UInt16 := 5

def iaNAMinLen : ℕ := 12

def iaAddrDataLen : ℕ := 24

/-- The errors of the decoders. -/
inductive OptionErr
  /-- `data length: %w` -/
  | dataLength
  /-- `ia_addr: invalid ipv6 address bytes` -/
  | addrBytes
  /-- `nested option at index %d: nested option length: %w` -/
  | nestedOption (i : ℕ)
  /-- `nested ia_addr at index %d: %w` -/
  | nestedIAAddr (i : ℕ) (err : OptionErr)
  /-- The source panics. -/
  | fault
deriving DecidableEq

/-! ## Reading -/

/-- `data[lo:hi]`. -/
def slice (data : List UInt8) (lo hi : ℕ) : Except OptionErr (List UInt8) :=
  if lo ≤ hi ∧ hi ≤ data.length then .ok ((data.take hi).drop lo) else .error .fault

/-- `binary.BigEndian.Uint16` or `Uint32` of `data[lo:hi]`. -/
def beUint (data : List UInt8) (lo hi : ℕ) : Except OptionErr ℕ := (slice data lo hi).map ofBigEndian

/-- `netip.AddrFromSlice`. -/
def addrFromSlice (bs : List UInt8) : Option Addr :=
  if bs.length = 4 then some (.v4 (BitVec.ofNat 32 (ofBigEndian bs)))
  else if bs.length = 16 then some (.v6 (BitVec.ofNat 128 (ofBigEndian bs)) "")
  else none

/-- `IAAddrOption.UnmarshalBinary` -/
def IAAddrOption.unmarshalBinary (data : List UInt8) : Except OptionErr IAAddrOption :=
  if data.length < iaAddrDataLen then .error .dataLength
  else do
    let addrBytes ← slice data 0 16
    match addrFromSlice addrBytes with
    | none => .error .addrBytes
    | some addr =>
      let preferred ← beUint data 16 20
      let valid ← beUint data 20 24
      return ⟨addr, preferred * second, valid * second⟩

theorem slice_ok {data bs : List UInt8} {lo hi : ℕ} (h : slice data lo hi = .ok bs) :
    lo ≤ hi ∧ hi ≤ data.length ∧ bs = (data.take hi).drop lo := by
  unfold slice at h
  split at h
  · rename_i hle
    cases h
    exact ⟨hle.1, hle.2, rfl⟩
  · cases h

/-- The loop of `IANAOption.UnmarshalBinary` over the records, from the index `i` on. -/
def unmarshalNested (i : ℕ) (nested : List UInt8) (addrs : List IAAddrOption) : Except OptionErr (List IAAddrOption) :=
  if 4 ≤ nested.length then do
    let code ← beUint nested 0 2
    let l ← beUint nested 2 4
    if nested.length - 4 < l then .error (.nestedOption i)
    else
      let addrs ←
        if code = optIAAddr.toNat then do
          let data ← slice nested 4 (4 + l)
          match IAAddrOption.unmarshalBinary data with
          | .error err => .error (.nestedIAAddr i err)
          | .ok addr => .ok (addrs ++ [addr])
        else .ok addrs
      match _h : slice nested (4 + l) nested.length with
      | .error err => .error err
      | .ok rest => unmarshalNested (i + 1) rest addrs
  else .ok addrs
termination_by nested.length
decreasing_by
  obtain ⟨hle, -, rfl⟩ := slice_ok _h
  rw [List.length_drop, List.length_take]
  omega

/-- `IANAOption.UnmarshalBinary`, of a zero value. -/
def IANAOption.unmarshalBinary (data : List UInt8) : Except OptionErr IANAOption :=
  if data.length < iaNAMinLen then .error .dataLength
  else do
    let id ← beUint data 0 4
    let t1 ← beUint data 4 8
    let t2 ← beUint data 8 12
    let nested ← slice data iaNAMinLen data.length
    let addrs ← unmarshalNested 0 nested []
    return ⟨addrs, UInt32.ofNat id, t1 * second, t2 * second⟩

/-! ## Writing -/

/-- `netip.Addr.AppendBinary` -/
def appendBinary : Addr → List UInt8
  | .invalid => []
  | .v4 a => toBigEndian 4 a.toNat
  | .v6 a zone => toBigEndian 16 a.toNat ++ utf8 zone.toList

/-- `IAAddrOption.appendTo` -/
def IAAddrOption.appendTo (ia : IAAddrOption) (orig : List UInt8) : List UInt8 :=
  orig ++ toBigEndian 2 optIAAddr.toNat ++ toBigEndian 2 iaAddrDataLen ++ appendBinary ia.addr ++
    toBigEndian 4 (seconds ia.preferredLifetime) ++ toBigEndian 4 (seconds ia.validLifetime)

/-- `IANAOption.Encode` -/
def IANAOption.encode (opt : IANAOption) : DHCPv6Option where
  code := optIANA
  data := opt.nested.foldl (fun data addr => addr.appendTo data)
    (toBigEndian 4 opt.id.toNat ++ toBigEndian 4 (seconds opt.t1) ++ toBigEndian 4 (seconds opt.t2))

/-! ## What the decoder accepts -/

namespace OptionErr

/-- Whether the source panics instead of returning the error. -/
def panics : OptionErr → Bool
  | .fault => true
  | .nestedIAAddr _ err => err.panics
  | _ => false

end OptionErr

/-- The address in the data of an IA Address option. -/
def IAAddrOption.ofData (data : List UInt8) : IAAddrOption where
  addr := .v6 (BitVec.ofNat 128 (ofBigEndian (data.take 16))) ""
  preferredLifetime := ofBigEndian ((data.take 20).drop 16) * second
  validLifetime := ofBigEndian ((data.take 24).drop 20) * second

/-- The IA Address options among the records. -/
def collect (items : List Record) : List IAAddrOption :=
  (items.filter fun r => r.code = optIAAddr).map fun r => .ofData r.data

/-- An IA Address option has the bytes that are read of it. -/
def Complete (r : Record) : Prop := r.code = optIAAddr → iaAddrDataLen ≤ r.data.length

instance : DecidablePred Complete := fun _ => inferInstanceAs (Decidable (_ → _))

/-- The bytes are the header of the option, complete records with its addresses, and fewer than four other bytes. -/
structure Laid (data : List UInt8) (opt : IANAOption) (header tail : List UInt8) (items : List Record) : Prop where
  bytes : data = header ++ (items.flatMap Record.encode ++ tail)
  length : header.length = iaNAMinLen
  id : opt.id = UInt32.ofNat (ofBigEndian (header.take 4))
  t1 : opt.t1 = ofBigEndian ((header.take 8).drop 4) * second
  t2 : opt.t2 = ofBigEndian ((header.take 12).drop 8) * second
  complete : ∀ r ∈ items, Complete r
  nested : opt.nested = collect items
  tail : tail.length < 4

theorem slice_of_le {data : List UInt8} {lo hi : ℕ} (hlo : lo ≤ hi) (hhi : hi ≤ data.length) :
    slice data lo hi = .ok ((data.take hi).drop lo) := if_pos ⟨hlo, hhi⟩

theorem beUint_of_le {data : List UInt8} {lo hi : ℕ} (hlo : lo ≤ hi) (hhi : hi ≤ data.length) :
    beUint data lo hi = .ok (ofBigEndian ((data.take hi).drop lo)) := by
  rw [beUint, slice_of_le hlo hhi]
  rfl

theorem IAAddrOption.unmarshalBinary_eq (data : List UInt8) : IAAddrOption.unmarshalBinary data =
    if data.length < iaAddrDataLen then .error .dataLength else .ok (.ofData data) := by
  unfold IAAddrOption.unmarshalBinary
  split
  · rfl
  · rename_i hlen
    have hlen : 24 ≤ data.length := not_lt.1 hlen
    have haddr : ((data.take 16).drop 0).length = 16 := by
      rw [List.drop_zero, List.length_take]
      omega
    rw [slice_of_le (by omega) (by omega), beUint_of_le (by omega) (by omega), beUint_of_le (by omega) hlen]
    simp only [bind, Except.bind]
    rw [addrFromSlice, if_neg (by omega), if_pos haddr]
    rfl

/-- Fewer than four bytes are left unread. -/
theorem unmarshalNested_short (i : ℕ) {nested : List UInt8} (h : nested.length < 4) (addrs : List IAAddrOption) :
    unmarshalNested i nested addrs = .ok addrs := by
  rw [unmarshalNested, if_neg (by omega)]

/-- A header without its data. -/
theorem unmarshalNested_truncated (i : ℕ) {nested : List UInt8} (h : 4 ≤ nested.length)
    (hl : nested.length < 4 + ofBigEndian ((nested.take 4).drop 2)) (addrs : List IAAddrOption) :
    unmarshalNested i nested addrs = .error (.nestedOption i) := by
  rw [unmarshalNested, if_pos h, beUint_of_le (by omega) (by omega), beUint_of_le (by omega) h]
  simp only [bind, Except.bind]
  rw [if_pos (by omega)]

/-- A record is skipped, read or refused. -/
theorem unmarshalNested_record (i : ℕ) (r : Record) (rest : List UInt8) (addrs : List IAAddrOption) :
    unmarshalNested i (r.encode ++ rest) addrs =
      if ¬ Complete r then .error (.nestedIAAddr i .dataLength)
      else unmarshalNested (i + 1) rest (addrs ++ collect [r]) := by
  obtain ⟨hcode, hlen, hdata, hrest⟩ := r.parts_encode_append rest
  have hle : 4 + r.data.length ≤ (r.encode ++ rest).length := by
    rw [List.length_append, r.length_encode]
    omega
  have hcode0 : ((r.encode ++ rest).take 2).drop 0 = (r.encode ++ rest).take 2 := rfl
  have hslice : slice (r.encode ++ rest) (4 + r.data.length) (r.encode ++ rest).length = .ok rest := by
    rw [slice_of_le hle le_rfl, List.take_length, hrest]
  rw [unmarshalNested, if_pos (by omega), beUint_of_le (by omega) (by omega), beUint_of_le (by omega) (by omega),
    hcode0, hcode, hlen]
  simp only [bind, Except.bind]
  rw [if_neg (by omega), slice_of_le (by omega) hle, hdata]
  dsimp only
  rw [IAAddrOption.unmarshalBinary_eq]
  by_cases hia : r.code = optIAAddr
  · rw [if_pos (congrArg UInt16.toNat hia)]
    by_cases hshort : r.data.length < iaAddrDataLen
    · rw [if_pos hshort, if_pos fun h : Complete r => absurd (h hia) (not_le.2 hshort)]
    · have hcomplete : Complete r := fun _ => not_lt.1 hshort
      rw [if_neg hshort, if_neg (not_not.2 hcomplete)]
      dsimp only
      split
      · rename_i heq
        rw [hslice] at heq
        cases heq
      · rename_i heq
        rw [hslice] at heq
        cases heq
        simp [collect, hia]
  · have hcomplete : Complete r := fun h => absurd h hia
    rw [if_neg fun h => hia (UInt16.toNat_inj.1 h), if_neg (not_not.2 hcomplete)]
    split
    · rename_i heq
      rw [hslice] at heq
      cases heq
    · rename_i heq
      rw [hslice] at heq
      cases heq
      simp [collect, hia]

theorem collect_cons (r : Record) (items : List Record) : collect (r :: items) = collect [r] ++ collect items := by
  unfold collect
  rw [← List.singleton_append, List.filter_append, List.map_append]

/-- Complete records are read one after the other. -/
theorem unmarshalNested_records {items : List Record} (h : ∀ r ∈ items, Complete r) (i : ℕ) (tail : List UInt8)
    (addrs : List IAAddrOption) :
    unmarshalNested i (items.flatMap Record.encode ++ tail) addrs =
      unmarshalNested (i + items.length) tail (addrs ++ collect items) := by
  induction items generalizing i addrs with
  | nil => simp [collect]
  | cons r items ih =>
    have hr := h r List.mem_cons_self
    rw [List.flatMap_cons, List.append_assoc, unmarshalNested_record, if_neg (not_not.2 hr),
      ih (fun x hx => h x (List.mem_cons_of_mem _ hx)), collect_cons r items, List.append_assoc, List.length_cons]
    congr 1
    omega

/-- The first IA Address option that is too short is refused. -/
theorem unmarshalNested_incomplete {items : List Record} (h : ¬ ∀ r ∈ items, Complete r) (i : ℕ) (tail : List UInt8)
    (addrs : List IAAddrOption) :
    ∃ j, unmarshalNested i (items.flatMap Record.encode ++ tail) addrs = .error (.nestedIAAddr j .dataLength) := by
  induction items generalizing i addrs with
  | nil => exact absurd (by simp) h
  | cons r items ih =>
    rw [List.flatMap_cons, List.append_assoc, unmarshalNested_record]
    by_cases hr : Complete r
    · rw [if_neg (not_not.2 hr)]
      exact ih (fun hall => h (List.forall_mem_cons.2 ⟨hr, hall⟩)) _ _
    · exact ⟨i, if_pos hr⟩

/-- Every byte string is records and a rest, from which no other record can be read. -/
theorem exists_records (bs : List UInt8) : ∃ (items : List Record) (tail : List UInt8),
    bs = items.flatMap Record.encode ++ tail ∧
      (4 ≤ tail.length → tail.length < 4 + ofBigEndian ((tail.take 4).drop 2)) := by
  induction hn : bs.length using Nat.strongRecOn generalizing bs with
  | ind n ih =>
    subst hn
    by_cases hroom : 4 + ofBigEndian ((bs.take 4).drop 2) ≤ bs.length
    · obtain ⟨r, hr⟩ := Record.exists_encode hroom
      have hshorter : (bs.drop (4 + r.data.length)).length < bs.length := by
        rw [List.length_drop]
        omega
      obtain ⟨items, tail, heq, htail⟩ := ih _ hshorter _ rfl
      refine ⟨r :: items, tail, ?_, htail⟩
      rw [List.flatMap_cons, List.append_assoc, ← heq]
      exact hr
    · exact ⟨[], bs, rfl, fun _ => not_le.1 hroom⟩

/-- The records end before fewer than four bytes, or with one whose length is too large. -/
theorem unmarshalNested_cases (nested : List UInt8) : ∃ (items : List Record) (tail : List UInt8),
    nested = items.flatMap Record.encode ++ tail ∧
      (((∀ r ∈ items, Complete r) ∧ tail.length < 4 ∧ unmarshalNested 0 nested [] = .ok (collect items)) ∨
        ∃ err, err.panics = false ∧ unmarshalNested 0 nested [] = .error err) := by
  obtain ⟨items, tail, rfl, htail⟩ := exists_records nested
  refine ⟨items, tail, rfl, ?_⟩
  by_cases hcomplete : ∀ r ∈ items, Complete r
  · rw [unmarshalNested_records hcomplete]
    by_cases hshort : tail.length < 4
    · exact .inl ⟨hcomplete, hshort, unmarshalNested_short _ hshort _⟩
    · exact .inr ⟨_, rfl, unmarshalNested_truncated _ (not_lt.1 hshort) (htail (not_lt.1 hshort)) _⟩
  · obtain ⟨j, hj⟩ := unmarshalNested_incomplete hcomplete 0 tail []
    exact .inr ⟨_, rfl, hj⟩

/-- The header, and what the loop makes of the rest. -/
theorem IANAOption.unmarshalBinary_eq {data : List UInt8} (h : iaNAMinLen ≤ data.length) :
    IANAOption.unmarshalBinary data = (unmarshalNested 0 (data.drop 12) []).map fun addrs =>
      ⟨addrs, UInt32.ofNat (ofBigEndian (data.take 4)), ofBigEndian ((data.take 8).drop 4) * second,
        ofBigEndian ((data.take 12).drop 8) * second⟩ := by
  unfold IANAOption.unmarshalBinary
  unfold iaNAMinLen at h ⊢
  rw [if_neg (by omega), beUint_of_le (by omega) (by omega), beUint_of_le (by omega) (by omega),
    beUint_of_le (by omega) (by omega), slice_of_le h le_rfl, List.take_length]
  simp only [bind, Except.bind]
  cases unmarshalNested 0 (data.drop 12) [] <;> rfl

theorem IANAOption.unmarshalBinary_of_laid {data header tail : List UInt8} {opt : IANAOption} {items : List Record}
    (h : Laid data opt header tail items) : IANAOption.unmarshalBinary data = .ok opt := by
  have hlen := h.length
  unfold iaNAMinLen at hlen
  have htake : ∀ n ≤ 12, (header ++ (items.flatMap Record.encode ++ tail)).take n = header.take n := fun n hn =>
    List.take_append_of_le_length (by omega)
  obtain ⟨nested, id, t1, t2⟩ := opt
  have hid := h.id
  have ht1 := h.t1
  have ht2 := h.t2
  have hnested := h.nested
  dsimp only at hid ht1 ht2 hnested
  rw [h.bytes, unmarshalBinary_eq (by rw [List.length_append]; unfold iaNAMinLen; omega), htake 4 (by omega),
    htake 8 (by omega), htake 12 (by omega), List.drop_left' hlen, unmarshalNested_records h.complete,
    unmarshalNested_short _ h.tail, hid, ht1, ht2, hnested]
  rfl

/-! ## The round trip -/

/-- A whole number of seconds that four bytes can hold. -/
def Whole (d : Duration) : Prop := ∃ n : ℕ, n < 256 ^ 4 ∧ d = n * second

theorem seconds_natCast {n : ℕ} (h : n < 256 ^ 4) : seconds (n * second) = n := by
  rw [seconds, Int.mul_ediv_cancel _ (by decide), Int.toNat_natCast, Nat.mod_eq_of_lt h]

/-- What the encoder can write: whole seconds and addresses of sixteen bytes. -/
structure IANAOption.Encodable (opt : IANAOption) : Prop where
  t1 : Whole opt.t1
  t2 : Whole opt.t2
  nested : ∀ ia ∈ opt.nested, (∃ a, ia.addr = .v6 a "") ∧ Whole ia.preferredLifetime ∧ Whole ia.validLifetime

/-- An address is written as a record that it is read from. -/
theorem IAAddrOption.exists_record {ia : IAAddrOption} {a : BitVec 128} (ha : ia.addr = .v6 a "")
    (hpreferred : Whole ia.preferredLifetime) (hvalid : Whole ia.validLifetime) :
    ∃ r : Record, Complete r ∧ collect [r] = [ia] ∧ ∀ orig, ia.appendTo orig = orig ++ r.encode := by
  obtain ⟨addr, preferred, valid⟩ := ia
  obtain ⟨p, hp, rfl⟩ := hpreferred
  obtain ⟨v, hv, rfl⟩ := hvalid
  dsimp only at ha
  subst ha
  have hlen : (toBigEndian 16 a.toNat ++ toBigEndian 4 p ++ toBigEndian 4 v).length = iaAddrDataLen := by
    simp [iaAddrDataLen]
  have hbits : BitVec.ofNat 128 (ofBigEndian (toBigEndian 16 a.toNat)) = a := by
    rw [ofBigEndian_toBigEndian (show a.toNat < 256 ^ 16 from a.isLt), BitVec.ofNat_toNat, BitVec.setWidth_eq]
  refine ⟨⟨optIAAddr, toBigEndian 16 a.toNat ++ toBigEndian 4 p ++ toBigEndian 4 v, by rw [hlen]; decide⟩,
    fun _ => hlen.ge, ?_, ?_⟩
  · have hread : IAAddrOption.ofData (toBigEndian 16 a.toNat ++ toBigEndian 4 p ++ toBigEndian 4 v) =
        ⟨.v6 a "", p * second, v * second⟩ := by
      unfold IAAddrOption.ofData
      rw [List.append_assoc, List.take_left' (by simp), hbits, ← List.append_assoc, List.take_left' (by simp),
        List.drop_left' (by simp), List.take_of_length_le (by simp), List.drop_left' (by simp),
        ofBigEndian_toBigEndian hp, ofBigEndian_toBigEndian hv]
    simp only [collect, List.filter_cons, decide_true, if_true, List.filter_nil, List.map_cons, List.map_nil, hread]
  · intro orig
    unfold IAAddrOption.appendTo Record.encode
    dsimp only
    rw [seconds_natCast hp, seconds_natCast hv, hlen]
    simp only [appendBinary, utf8, String.toList_empty, List.flatMap_nil, List.append_nil, List.append_assoc]

theorem exists_records_foldl {nested : List IAAddrOption}
    (h : ∀ ia ∈ nested, (∃ a, ia.addr = .v6 a "") ∧ Whole ia.preferredLifetime ∧ Whole ia.validLifetime)
    (orig : List UInt8) :
    ∃ items : List Record, (∀ r ∈ items, Complete r) ∧ collect items = nested ∧
      nested.foldl (fun data addr => addr.appendTo data) orig = orig ++ items.flatMap Record.encode := by
  induction nested generalizing orig with
  | nil => exact ⟨[], by simp, rfl, by simp⟩
  | cons ia nested ih =>
    obtain ⟨⟨a, ha⟩, hpreferred, hvalid⟩ := h ia List.mem_cons_self
    obtain ⟨r, hr, hcollect, happend⟩ := IAAddrOption.exists_record ha hpreferred hvalid
    obtain ⟨items, hitems, hcollects, hfold⟩ := ih (fun x hx => h x (List.mem_cons_of_mem _ hx)) (ia.appendTo orig)
    refine ⟨r :: items, List.forall_mem_cons.2 ⟨hr, hitems⟩, ?_, ?_⟩
    · rw [collect_cons, hcollect, hcollects]
      rfl
    · rw [List.foldl_cons, hfold, happend, List.flatMap_cons, List.append_assoc]

theorem IANAOption.exists_laid_encode {opt : IANAOption} (h : opt.Encodable) :
    ∃ header items, Laid opt.encode.data opt header [] items := by
  obtain ⟨items, hcomplete, hcollect, hfold⟩ := exists_records_foldl h.nested
    (toBigEndian 4 opt.id.toNat ++ toBigEndian 4 (seconds opt.t1) ++ toBigEndian 4 (seconds opt.t2))
  obtain ⟨n1, hn1, ht1⟩ := h.t1
  obtain ⟨n2, hn2, ht2⟩ := h.t2
  refine ⟨_, items, by rw [List.append_nil]; exact hfold, by simp [iaNAMinLen], ?_, ?_, ?_, hcomplete, hcollect.symm,
    by decide⟩
  · rw [List.append_assoc, List.take_left' (by simp), ofBigEndian_toBigEndian opt.id.toNat_lt, UInt32.ofNat_toNat]
  · rw [List.take_left' (by simp), List.drop_left' (by simp), ht1, seconds_natCast hn1, ofBigEndian_toBigEndian hn1]
  · rw [List.take_of_length_le (by simp), List.drop_left' (by simp), ht2, seconds_natCast hn2,
      ofBigEndian_toBigEndian hn2]

/-- The decoder reads what the encoder has written; it never panics, and it accepts exactly the bytes that are laid
out as an option. -/
theorem IANAOption.codec :
    (∀ opt : IANAOption, opt.Encodable → IANAOption.unmarshalBinary opt.encode.data = .ok opt) ∧
      ∀ data : List UInt8, (∀ err, IANAOption.unmarshalBinary data = .error err → err.panics = false) ∧
        ∀ opt, IANAOption.unmarshalBinary data = .ok opt ↔ ∃ header tail items, Laid data opt header tail items := by
  refine ⟨fun opt h => ?_, fun data => ⟨fun err herr => ?_, fun opt => ⟨fun hok => ?_, ?_⟩⟩⟩
  · obtain ⟨header, items, hlaid⟩ := exists_laid_encode h
    exact unmarshalBinary_of_laid hlaid
  · by_cases hlen : data.length < iaNAMinLen
    · rw [unmarshalBinary, if_pos hlen] at herr
      cases herr
      rfl
    · obtain ⟨items, tail, -, ⟨-, -, hok⟩ | ⟨err', hpanics, heq⟩⟩ := unmarshalNested_cases (data.drop 12)
      · rw [unmarshalBinary_eq (not_lt.1 hlen), hok] at herr
        cases herr
      · rw [unmarshalBinary_eq (not_lt.1 hlen), heq] at herr
        cases herr
        exact hpanics
  · by_cases hlen : data.length < iaNAMinLen
    · rw [unmarshalBinary, if_pos hlen] at hok
      cases hok
    · obtain ⟨items, tail, hsplit, ⟨hcomplete, htail, heq⟩ | ⟨err', -, heq⟩⟩ := unmarshalNested_cases (data.drop 12)
      · rw [unmarshalBinary_eq (not_lt.1 hlen), heq] at hok
        cases hok
        have hheader : (data.take 12).length = iaNAMinLen := by
          rw [List.length_take]
          exact Nat.min_eq_left (not_lt.1 hlen)
        have htake : ∀ n ≤ 12, (data.take 12).take n = data.take n := fun n hn => by
          rw [List.take_take, Nat.min_eq_left hn]
        refine ⟨data.take 12, tail, items, by rw [← hsplit, List.take_append_drop], hheader, ?_, ?_, ?_, hcomplete, rfl,
          htail⟩
        · rw [htake 4 (by omega)]
        · rw [htake 8 (by omega)]
        · rw [htake 12 le_rfl]
      · rw [unmarshalBinary_eq (not_lt.1 hlen), heq] at hok
        cases hok
  · rintro ⟨header, tail, items, hlaid⟩
    exact unmarshalBinary_of_laid hlaid

/-- An option with one address. -/
def oneAddress : IANAOption :=
  ⟨[⟨.v6 0x20010db8000000000000000000000001 "", 3600 * second, 7200 * second⟩], 7, 1800 * second, 2880 * second⟩

theorem codec_oneAddress : IANAOption.unmarshalBinary oneAddress.encode.data = .ok oneAddress :=
  IANAOption.codec.1 oneAddress ⟨⟨1800, by decide, rfl⟩, ⟨2880, by decide, rfl⟩, by
    intro ia hia
    cases List.mem_singleton.1 hia
    exact ⟨⟨_, rfl⟩, ⟨3600, by decide, rfl⟩, ⟨7200, by decide, rfl⟩⟩⟩

end AdGuardHome.Dhcpsvc
