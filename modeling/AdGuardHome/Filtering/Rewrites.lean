import AdGuardHome.Lib.SortFunc
import AdGuardHome.Filtering.Result
import AdGuardHome.Net.Parse

/-!
# Legacy rewrites

The list of DNS rewrites of the user: how an entry is normalised, which entries are found for a host, and how a chain
of canonical names is followed.
-/

namespace AdGuardHome.Filtering

open AdGuardHome.Lib AdGuardHome.Net

def typeA : UInt16 := 1
def typeCNAME : UInt16 := 5
def typeAAAA : UInt16 := 28

/-- What the rewrites take from the libraries. -/
structure RewriteEnv where
  /-- `slices.SortFunc` -/
  sortFunc : SortFunc
  /-- `unicode.ToLower` -/
  lower : Char → Char
  /-- `netutil.ValidateDomainName`: the error, if there is one. -/
  validateDomainName : String → Option String
  /-- A string as `%q` prints it. -/
  quote : String → String

/-- `strings.ToLower` -/
def RewriteEnv.toLower (env : RewriteEnv) (s : String) : String := String.ofList (s.toList.map env.lower)

structure LegacyRewrite where
  domain : String
  answer : String
  ip : Addr
  type : UInt16
  enabled : Bool
deriving DecidableEq

/-- Whether a pattern is a wildcard. -/
def isWildcard (pat : String) : Bool := pat.toList[0]? = some '*' && pat.toList[1]? = some '.'

def matchDomainWildcard (host wildcard : String) : Bool :=
  isWildcard wildcard && (wildcard.toList.drop 1).isSuffixOf host.toList

namespace LegacyRewrite

def matchesQType (rw : LegacyRewrite) (qt : UInt16) : Bool :=
  if rw.type = typeCNAME then true
  else if qt ≠ typeA ∧ qt ≠ typeAAAA then false
  else rw.type = qt || rw.ip = .invalid

/-- The part of the condition in the loop of `findRewrites` that is about the host. -/
def matchesHost (rw : LegacyRewrite) (host : String) : Bool :=
  rw.domain = host || matchDomainWildcard host rw.domain

def normalize (env : RewriteEnv) (rw : LegacyRewrite) : Except String LegacyRewrite :=
  let rw := { rw with domain := env.toLower rw.domain }
  if rw.answer = "AAAA" then .ok { rw with ip := .invalid, type := typeAAAA }
  else if rw.answer = "A" then .ok { rw with ip := .invalid, type := typeA }
  else
    match parseAddr rw.answer with
    | none =>
      match env.validateDomainName rw.answer with
      | some err => .error ("invalid CNAME target " ++ env.quote rw.answer ++ ": " ++ err)
      | none => .ok { rw with type := typeCNAME }
    | some ip => .ok { rw with ip := ip, type := if ip.is4 then typeA else typeAAAA }

/-- Negative when the entry comes before the other. -/
def compare (rw b : LegacyRewrite) : ℤ :=
  if rw.type = typeCNAME ∧ b.type ≠ typeCNAME then -1
  else if rw.type ≠ typeCNAME ∧ b.type = typeCNAME then 1
  else if isWildcard rw.domain = isWildcard b.domain then (b.domain.utf8ByteSize : ℤ) - rw.domain.utf8ByteSize
  else if isWildcard rw.domain then 1
  else -1

end LegacyRewrite

/-- `none` at the end stands for no error, and the index is that of the first entry. -/
def prepareRewrites (env : RewriteEnv) : ℕ → List LegacyRewrite → Except String (List LegacyRewrite)
  | _, [] => .ok []
  | i, r :: rs =>
    match r.normalize env with
    | .error err => .error ("at index " ++ toString i ++ ": " ++ err)
    | .ok r =>
      match prepareRewrites env (i + 1) rs with
      | .error err => .error err
      | .ok rs => .ok (r :: rs)

/-- Truncates wildcard entries, but leaves one entry at least. -/
def truncate (rewrites : List LegacyRewrite) : List LegacyRewrite :=
  match rewrites.findIdx? fun r => isWildcard r.domain with
  | some i => rewrites.take (max 1 i)
  | none => rewrites

def finalizeRewrites (env : RewriteEnv) (rewrites : List LegacyRewrite) : List LegacyRewrite :=
  truncate (env.sortFunc.sort LegacyRewrite.compare rewrites)

/-- The entries that the loop of `findRewrites` collects. -/
def matching (entries : List LegacyRewrite) (host : String) (qtype : UInt16) : List LegacyRewrite :=
  entries.filter fun e => e.enabled && e.matchesHost host && e.matchesQType qtype

def findRewrites (env : RewriteEnv) (entries : List LegacyRewrite) (host : String) (qtype : UInt16) :
    List LegacyRewrite × Bool :=
  let rewrites := matching entries host qtype
  let matched := entries.any fun e => e.enabled && e.matchesHost host
  if rewrites = [] then ([], matched) else (finalizeRewrites env rewrites, matched)

def setRewriteResult (qtype : UInt16) : Result → List LegacyRewrite → Result
  | res, [] => res
  | res, rw :: rws =>
    if rw.type = qtype ∧ (qtype = typeA ∨ qtype = typeAAAA) then
      -- An exception: the upstream is asked.
      if rw.ip = .invalid then { res with reason := .notFilteredNotFound }
      else setRewriteResult qtype { res with ipList := res.ipList ++ [rw.ip] } rws
    else setRewriteResult qtype res rws

/-- What `processRewrites` reads of the configuration. -/
structure RewriteConf where
  rewrites : List LegacyRewrite
  rewritesEnabled : Bool

/-- The loop of `handleRewriteLoop`, in at most `turns` turns; `none` if it needs more. -/
def handleRewriteLoop (env : RewriteEnv) (conf : RewriteConf) (origHost : String) (qtype : UInt16) :
    ℕ → List String → String → List LegacyRewrite × Bool → Result → Option Result
  | 0, _, _, _, _ => none
  | turns + 1, cnames, host, (rewrites, matched), res =>
    match rewrites with
    | [] => some (setRewriteResult qtype res [])
    | rw :: _ =>
      if matched && rw.type = typeCNAME then
        if origHost = rw.answer ∨ rw.domain = rw.answer then some {}
        else if host = rw.answer ∧ isWildcard rw.domain then
          some (setRewriteResult qtype { res with canonName := host } rewrites)
        else if rw.answer ∈ cnames then some res
        else
          handleRewriteLoop env conf origHost qtype turns (rw.answer :: cnames) rw.answer
            (findRewrites env conf.rewrites rw.answer qtype) { res with canonName := rw.answer }
      else some (setRewriteResult qtype res rewrites)

def processRewrites (env : RewriteEnv) (conf : RewriteConf) (turns : ℕ) (host : String) (qtype : UInt16) :
    Option Result :=
  if !conf.rewritesEnabled then some {}
  else
    let found := findRewrites env conf.rewrites host qtype
    if !found.2 then some {}
    else handleRewriteLoop env conf host qtype turns [] host found { reason := .rewritten }

end AdGuardHome.Filtering
