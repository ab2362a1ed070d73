import AdGuardHome.Querylog.Decode

/-!
# Search criteria

The criteria of a search in the query log, which are applied to the entries and, before the decoding, to the lines.
-/

namespace AdGuardHome.Querylog

open AdGuardHome.Lib

/-- Comparison of texts without regard to case. -/
structure TextFold where
  /-- The same character for all that differ in case only. -/
  fold : Char → Char
  containsFold : String → String → Bool

/-- `strings.EqualFold` -/
def TextFold.equalFold (f : TextFold) (s t : String) : Bool := s.toList.map f.fold == t.toList.map f.fold

inductive CriterionType
  | ctTerm
  | ctFilteringStatus
  | ctReason
deriving DecidableEq

/-- The names of the reasons by their numbers. -/
def reasonNames : List String :=
  ["NotFilteredNotFound", "NotFilteredWhiteList", "NotFilteredError", "FilteredBlackList", "FilteredSafeBrowsing",
    "FilteredParental", "FilteredInvalid", "FilteredSafeSearch", "FilteredBlockedService", "Rewrite",
    "RewriteEtcHosts", "RewriteRule"]

/-- `Reason.String` -/
def reasonString (r : UInt8) : String := reasonNames.getD r.toNat ""

/-- The codes of the reasons in a line by their numbers. -/
def reasonCodes : List String := ["", "1", "2", "3", "4", "5", "6", "7", "8", "9", "10", "11"]

structure SearchCriterion where
  value : String := ""
  /-- The ASCII form of the value, for internationalized domain names. -/
  asciiVal : String := ""
  /-- The names of the reasons. -/
  values : List String := []
  criterionType : CriterionType
  /-- The whole of a value is compared, and not a part of it. -/
  strict : Bool := false

def ctDomainOrClientCaseStrict (f : TextFold) (term asciiTerm clientID name host ip : String) : Bool :=
  f.equalFold host term || (asciiTerm != "" && f.equalFold host asciiTerm) || f.equalFold clientID term
    || f.equalFold ip term || f.equalFold name term

def ctDomainOrClientCaseNonStrict (f : TextFold) (term asciiTerm clientID name host ip : String) : Bool :=
  f.containsFold clientID term || f.containsFold host term || (asciiTerm != "" && f.containsFold host asciiTerm)
    || f.containsFold ip term || f.containsFold name term

/-- The case of a term, on the values of an entry or of a line. -/
def ctDomainOrClientCase (f : TextFold) (c : SearchCriterion) (clientID name host ip : String) : Bool :=
  if c.strict then ctDomainOrClientCaseStrict f c.value c.asciiVal clientID name host ip
  else ctDomainOrClientCaseNonStrict f c.value c.asciiVal clientID name host ip

/-! ## Matching an entry -/

def reasonIsRewrite (r : UInt8) : Bool := r == 10 || r == 11 || r == 9

def reasonIsRuleList (r : UInt8) : Bool := r == 3 || r == 8 || r == 1

/-- The reasons of a status; it is called for these statuses only. -/
def isFilteredWithReason (value : String) (reason : UInt8) : Bool :=
  if value = "blocked" then reason == 3 || reason == 8
  else if value = "blocked_parental" then reason == 5
  else if value = "blocked_safebrowsing" then reason == 4
  else if value = "blocked_services" then reason == 8
  else if value = "safe_search" then reason == 7
  else false

def ctFilteringStatusCase (value : String) (reason : UInt8) (isFiltered : Bool) : Bool :=
  if value = "all" then true
  else if value = "filtered" then isFiltered || reason == 1 || reasonIsRewrite reason
  else if value = "blocked" ∨ value = "blocked_parental" ∨ value = "blocked_safebrowsing"
      ∨ value = "blocked_services" ∨ value = "safe_search" then
    isFiltered && isFilteredWithReason value reason
  else if value = "whitelisted" then reason == 1
  else if value = "rewritten" then reasonIsRewrite reason
  else if value = "processed" then !reasonIsRuleList reason
  else false

/-- The name of a client, if one is found. -/
def clientName (c : Option Client) : String := (c.map Client.name).getD ""

/-- `searchCriterion.match` -/
def SearchCriterion.matches (f : TextFold) (c : SearchCriterion) (e : LogEntry) : Bool :=
  match c.criterionType with
  | .ctTerm => ctDomainOrClientCase f c e.clientID (clientName e.client) e.qHost e.ip.string
  | .ctFilteringStatus => ctFilteringStatusCase c.value e.result.reason e.result.isFiltered
  | .ctReason => c.values.contains (reasonString e.result.reason)

/-! ## Matching a line -/

/-- A lookup of a client by its identifiers. -/
abbrev ClientFinder := List String → Except String (Option Client)

/-- The identifiers that are looked up. -/
def clientIDs (clientID ip : String) : List String :=
  (if clientID = "" then [] else [clientID]) ++ if ip = "" then [] else [ip]

/-- The client by its ClientID and its address, none if the lookup fails.  The cache of a search only spares it
lookups. -/
def client (find : ClientFinder) (clientID ip : String) : Option Client :=
  match find (clientIDs clientID ip) with
  | .ok c => c
  | .error _ => none

/-- The number after the text in a line. -/
def readJSONNumericValue (s key : Bytes) : Bytes :=
  match index s key with
  | none => []
  | some i =>
    let start := i + key.length
    match (s.drop start).findIdx? fun b => (b > 57 || b < 48) && b != 46 with
    | none => []
    | some i => (s.drop start).take i

/-- The text of bytes. -/
def ofBytes (bs : Bytes) : String := String.ofList (runes bs)

/-- A value in a line as it is written. -/
def rawValue (line : Bytes) (key : String) : String := ofBytes (readJSONValue line (utf8 key.toList))

/-- The code of the reason in a line. -/
def rawReason (line : Bytes) : String := ofBytes (readJSONNumericValue line (utf8 "\x22Reason\x22:".toList))

/-- `searchCriterion.quickMatch` -/
def SearchCriterion.quickMatch (f : TextFold) (find : ClientFinder) (c : SearchCriterion) (line : Bytes) : Bool :=
  match c.criterionType with
  | .ctTerm =>
    let host := rawValue line "\x22QH\x22:\x22"
    let ip := rawValue line "\x22IP\x22:\x22"
    let clientID := rawValue line "\x22CID\x22:\x22"
    ctDomainOrClientCase f c clientID (clientName (client find clientID ip)) host ip
  | .ctFilteringStatus => true
  | .ctReason =>
    let reasonCode := rawReason line
    if reasonCode = "" then c.values.contains (reasonString 0)
    else
      match reasonCodes.idxOf? reasonCode with
      | none => false
      | some idx => c.values.contains (reasonString (UInt8.ofNat idx))

/-! ## A search -/

structure SearchParams where
  /-- Only the entries older than this time are returned, unless it is zero. -/
  olderThan : Time := ⟨0, 0⟩
  searchCriteria : List SearchCriterion := []
  offset : ℤ := 0
  limit : ℤ := 500
  /-- How many records of the files are looked at, all of them if it is not positive. -/
  maxFileScanEntries : ℤ := 50000

/-- `Time.Before` -/
def Time.before (t u : Time) : Bool := t.sec < u.sec || (t.sec == u.sec && t.nsec < u.nsec)

def SearchParams.quickMatch (f : TextFold) (find : ClientFinder) (s : SearchParams) (line : Bytes) : Bool :=
  s.searchCriteria.all fun c => c.quickMatch f find line

def SearchParams.matches (f : TextFold) (s : SearchParams) (e : LogEntry) : Bool :=
  if !decide s.olderThan.IsZero && !e.time.before s.olderThan then false
  else s.searchCriteria.all fun c => c.matches f e

/-- The entry with its client from the lookup. -/
def LogEntry.withClient (find : ClientFinder) (e : LogEntry) : LogEntry :=
  { e with client := Querylog.client find e.clientID e.ip.string }

end AdGuardHome.Querylog
