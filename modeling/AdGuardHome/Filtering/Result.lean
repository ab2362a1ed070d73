import AdGuardHome.Net.Netip

/-!
# Results and settings of filtering (`internal/filtering/result.go`, `safesearch.go`, `blocked.go`)

What `CheckHost` and `CheckHostRules` take and return, and the settings of the filters.
-/

namespace AdGuardHome.Filtering

open AdGuardHome.Net

inductive Reason
  | notFilteredNotFound
  | notFilteredAllowList
  | notFilteredError
  | filteredBlockList
  | filteredSafeBrowsing
  | filteredParental
  | filteredInvalid
  | filteredSafeSearch
  | filteredBlockedService
  | rewritten
  | rewrittenAutoHosts
  | rewrittenRule
deriving DecidableEq

structure ResultRule where
  text : String
  /-- `invalid` unless the rule uses the syntax of `/etc/hosts` or comes from safe search. -/
  ip : Addr
  filterListID : ℤ
deriving DecidableEq

/-- `rules.DNSSVCB`. -/
structure DNSSVCB where
  params : List (String × String)
  target : String
  priority : UInt16
deriving DecidableEq

/-- `rules.RRValue`, nil or a value of one of the types that the rules can hold. -/
inductive RRValue
  | nil
  | ip (ip : Addr)
  | text (str : String)
  | mx (preference : UInt16) (exchange : String)
  | svcb (svcb : DNSSVCB)
  | srv (priority weight port : UInt16) (target : String)
deriving DecidableEq

structure DNSRewriteResult where
  /-- `none` for a nil map. -/
  response : Option (List (UInt16 × List RRValue))
  rcode : ℕ
deriving DecidableEq

structure Result where
  dnsRewriteResult : Option DNSRewriteResult := none
  canonName : String := ""
  serviceName : String := ""
  ipList : List Addr := []
  rules : List ResultRule := []
  reason : Reason := .notFilteredNotFound
  isFiltered : Bool := false
deriving DecidableEq

/-! ## Settings that a client may have of its own -/

structure SafeSearchConfig where
  enabled : Bool := false
  bing : Bool := false
  duckDuckGo : Bool := false
  ecosia : Bool := false
  google : Bool := false
  pixabay : Bool := false
  yandex : Bool := false
  youTube : Bool := false
deriving DecidableEq

/-- `schedule.Weekly`: the name of the location and the ranges of the days, in nanoseconds. -/
structure Weekly where
  location : String
  days : List (ℤ × ℤ)
deriving DecidableEq

structure BlockedServices where
  schedule : Option Weekly
  ids : List String
deriving DecidableEq

/-! ## Settings of a request -/

structure Settings where
  clientName : String := ""
  clientIP : Addr := .invalid
  clientTags : List String := []
  /-- The names of the services.  Their rules are in a table. -/
  servicesRules : List String := []
  blockedServices : Option BlockedServices := none
  protectionEnabled : Bool := false
  filteringEnabled : Bool := false
  safeSearchEnabled : Bool := false
  safeBrowsingEnabled : Bool := false
  parentalEnabled : Bool := false
  /-- The number of the safe search object of the client. -/
  clientSafeSearch : Option ℕ := none
deriving DecidableEq

end AdGuardHome.Filtering
