import AdGuardHome.Filtering.IDGenerator

/-!
# The filter lists of the filter (`internal/filtering/filtering.go`, `filter.go`, `http.go`)

`new` is the part of `New` that loads the lists and repairs their identifiers, and `handleFilteringAddURL` is the
request that adds one.  What the file system and the network answer is a parameter of both.
-/

namespace AdGuardHome.Filtering

/-- `rulelist.ParseResult`, without the number of bytes. -/
structure ParseResult where
  title : String
  rulesCount : ℕ
  checksum : UInt32
deriving DecidableEq

/-- What opening and parsing the file of a list ends in. -/
inductive Loaded
  | absent
  | failed
  | parsed (res : ParseResult) (modTime : ℕ)

structure Config where
  dataDir : String
  filters : List FilterYAML
  whitelistFilters : List FilterYAML

structure DNSFilter where
  dataDir : String
  filters : List FilterYAML
  whitelistFilters : List FilterYAML
  idGen : IDGenerator

namespace DNSFilter

/-! ## `New` -/

/-- `DNSFilter.load` -/
def load (files : String → Loaded) (dataDir : String) (flt : FilterYAML) : FilterYAML :=
  match files (flt.path dataDir) with
  | .parsed res modTime =>
    { flt.ensureName res.title with
      rulesCount := res.rulesCount, checksum := res.checksum, lastUpdated := modTime }
  | _ => flt

/-- `DNSFilter.loadFilters` -/
def loadFilters (files : String → Loaded) (dataDir : String) (g : IDGenerator) :
    List FilterYAML → Option (List FilterYAML × IDGenerator)
  | [] => some ([], g)
  | filter :: array =>
    match g.ensureID filter with
    | none => none
    | some (filter, g) =>
      let filter := if filter.enabled then load files dataDir filter else filter
      (loadFilters files dataDir g array).map fun (array, g) => (filter :: array, g)

/-- The loop of `deduplicateFilters` on the lists that are left, `urls` being those of the lists before. -/
def deduplicateFrom (urls : List String) : List FilterYAML → List FilterYAML
  | [] => []
  | filter :: filters =>
    if filter.url ∈ urls then deduplicateFrom urls filters
    else filter :: deduplicateFrom (filter.url :: urls) filters

/-- `deduplicateFilters` -/
def deduplicateFilters (filters : List FilterYAML) : List FilterYAML := deduplicateFrom [] filters

/-- The last part of `New`, with `seed` for the time; `none` when it panics. -/
def new (files : String → Loaded) (seed : UInt64) (c : Config) : Option DNSFilter := do
  let g := IDGenerator.new seed
  let (filters, g) ← loadFilters files c.dataDir g c.filters
  let (whitelistFilters, g) ← loadFilters files c.dataDir g c.whitelistFilters
  let (filters, g) ← g.fix (deduplicateFilters filters)
  let (whitelistFilters, g) ← g.fix (deduplicateFilters whitelistFilters)
  return ⟨c.dataDir, filters, whitelistFilters, g⟩

/-! ## Adding a list -/

/-- What one download of a list ends in. -/
structure Download where
  /-- The error of `aghrenameio.NewPendingFile`. -/
  newPendingFile : Option String
  /-- What reading and parsing the source gives. -/
  read : Except String ParseResult
  /-- The errors of `Cleanup` and `CloseReplace` on the pending file. -/
  cleanup : Option String
  closeReplace : Option String
  /-- The time after it. -/
  now : ℕ

/-- `DNSFilter.updateIntl` with `finalizeUpdate`. -/
def updateIntl (dl : Download) (flt : FilterYAML) : FilterYAML × Bool × Option String :=
  match dl.newPendingFile with
  | some err => (flt, false, some err)
  | none =>
    match dl.read with
    | .error err => (flt, false, some err)
    | .ok res =>
      if res.checksum = flt.checksum then
        (flt, false, dl.cleanup)
      else
        match dl.closeReplace with
        | some err => (flt, true, some ("finalizing update: " ++ err))
        | none =>
          ({ flt.ensureName res.title with checksum := res.checksum, rulesCount := res.rulesCount }, true, none)

/-- `DNSFilter.update` -/
def update (dl : Download) (filter : FilterYAML) : FilterYAML × Bool × Option String :=
  let (filter, b, err) := updateIntl dl filter
  ({ filter with lastUpdated := dl.now }, b, err)

/-- `DNSFilter.filterExistsLocked` -/
def filterExists (d : DNSFilter) (url : String) : Bool :=
  d.filters.any (·.url == url) || d.whitelistFilters.any (·.url == url)

/-- `errFilterExists` -/
def errFilterExists : String := "url already exists"

/-- `DNSFilter.filterAdd` -/
def filterAdd (d : DNSFilter) (flt : FilterYAML) : Except String DNSFilter :=
  if d.filterExists flt.url then .error ("adding filter: " ++ errFilterExists)
  else if flt.white then .ok { d with whitelistFilters := d.whitelistFilters ++ [flt] }
  else .ok { d with filters := d.filters ++ [flt] }

structure FilterAddJSON where
  name : String
  url : String
  whitelist : Bool

/-- A request to add a list, with what the decoder, `validateFilterURL` and the download answer. -/
structure AddRequest where
  body : Except String FilterAddJSON
  validateFilterURL : String → Option String
  download : Download

inductive AddResponse
  /-- `"OK %d rules\n"` -/
  | ok (rulesCount : ℕ)
  /-- `"Failed to parse request body json: %s"` -/
  | parse (err : String)
  | invalidURL (err : String)
  /-- `"Filter with URL %q: %s"` -/
  | url (url err : String)
  /-- `"Couldn't fetch filter from URL %q: %s"` -/
  | fetch (url err : String)
  /-- `"Filter with URL %q is invalid (maybe it points to blank page?)"` -/
  | blank (url : String)
  /-- The generator panics. -/
  | panic

/-- `DNSFilter.handleFilteringAddURL` -/
def handleFilteringAddURL (d : DNSFilter) (r : AddRequest) : DNSFilter × AddResponse :=
  match r.body with
  | .error err => (d, .parse err)
  | .ok fj =>
    match r.validateFilterURL fj.url with
    | some err => (d, .invalidURL err)
    | none =>
      if d.filterExists fj.url then
        (d, .url fj.url errFilterExists)
      else
        match d.idGen.next with
        | none => ({ d with idGen := ⟨0⟩ }, .panic)
        | some (id, g) =>
          let d := { d with idGen := g }
          let filt : FilterYAML :=
            { enabled := true, url := fj.url, name := fj.name, rulesCount := 0, lastUpdated := 0,
              checksum := 0, white := fj.whitelist, id := id }
          match update r.download filt with
          | (filt, _, some err) => (d, .fetch filt.url err)
          | (filt, false, none) => (d, .blank filt.url)
          | (filt, true, none) =>
            match d.filterAdd filt with
            | .error err => (d, .url filt.url err)
            | .ok d => (d, .ok filt.rulesCount)

end DNSFilter

end AdGuardHome.Filtering
