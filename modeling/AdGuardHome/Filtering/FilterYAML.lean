import AdGuardHome.Lib.Filepath
import Mathlib.Data.Nat.Notation

/-!
# Filter lists of the configuration (`internal/filtering/filter.go`)

A list is kept in a file that is named after its identifier, so lists with distinct identifiers have distinct files
(`path_inj`).
-/

namespace AdGuardHome.Filtering

open AdGuardHome.Lib

/-- `rules.ListID` -/
abbrev ListID := UInt64

structure FilterYAML where
  enabled : Bool
  /-- URL or a file path. -/
  url : String
  name : String
  rulesCount : ℕ
  lastUpdated : ℕ
  checksum : UInt32
  white : Bool
  id : ListID
deriving DecidableEq

namespace FilterYAML

/-- `filterDir` -/
def filterDir : String := "filters"

/-- `FilterYAML.Path` -/
def path (dataDir : String) (filter : FilterYAML) : String :=
  String.ofList (Filepath.join [dataDir.toList, filterDir.toList,
    (Nat.repr filter.id.toNat).toList ++ ".txt".toList])

/-- `FilterYAML.ensureName` -/
def ensureName (filter : FilterYAML) (title : String) : FilterYAML :=
  if filter.name ≠ "" then filter
  else if title ≠ "" then { filter with name := title }
  else { filter with name := "List " ++ Nat.repr filter.id.toNat }

theorem ordinary_filterDir : Filepath.Ordinary filterDir.toList := by
  constructor <;> decide

theorem ordinary_fileName (n : ℕ) : Filepath.Ordinary ((Nat.repr n).toList ++ ".txt".toList) := by
  have hdot : ∀ cs : List Char, cs.length < 4 → (Nat.repr n).toList ++ ".txt".toList ≠ cs := by
    rintro cs hcs rfl
    rw [List.length_append, show ".txt".toList.length = 4 from rfl] at hcs
    omega
  refine ⟨hdot _ (by decide), hdot _ (by decide), hdot _ (by decide), ?_⟩
  intro h
  rcases List.mem_append.1 h with h | h
  · rw [Nat.toList_repr] at h
    have hdigit := Nat.isDigit_of_mem_toDigits (by decide) (by decide) h
    exact absurd hdigit (by decide)
  · exact absurd h (by decide)

theorem repr_inj {m n : ℕ} (h : Nat.repr m = Nat.repr n) : m = n := by
  have hdigits := congrArg (fun s : String => Nat.ofDigitChars 10 s.toList 0) h
  simpa [Nat.toList_repr] using hdigits

/-- Lists share a file only if they share an identifier. -/
theorem path_inj {dataDir : String} {f f' : FilterYAML} (h : f.path dataDir = f'.path dataDir) :
    f.id = f'.id := by
  have hname := Filepath.join_inj _ ordinary_filterDir (ordinary_fileName _) (ordinary_fileName _)
    (String.ofList_injective h)
  have hrepr := repr_inj (String.toList_injective (List.append_cancel_right hname))
  exact UInt64.toNat_inj.1 hrepr

end FilterYAML

end AdGuardHome.Filtering
