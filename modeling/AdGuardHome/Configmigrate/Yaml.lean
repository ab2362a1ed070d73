import AdGuardHome.Lib.Agree
import Mathlib.Data.Int.Basic

/-!
# Configuration documents

`Yaml` is a document as it is on the disk, `Val` a value of the tree that the migrations work on.  The tree has
values that no document has: durations, upstream modes, slices of strings, and maps and slices that are nil.  They
become plain when the tree is encoded.
-/

namespace AdGuardHome.Configmigrate

open AdGuardHome.Lib

/-- A YAML document. -/
inductive Yaml
  | null
  | bool (b : Bool)
  | int (i : ℤ)
  | str (s : String)
  | list (l : List Yaml)
  | map (m : List (String × Yaml))

/-- `proxy.UpstreamMode` -/
inductive UpstreamMode
  | loadBalance
  | parallel
  | fastestAddr

/-- A value in memory. -/
inductive Val
  | null
  | bool (b : Bool)
  | int (i : ℤ)
  | str (s : String)
  | list (l : List Val)
  | map (m : List (String × Val))
  /-- A nil `yobj`. -/
  | nilMap
  /-- A nil `yarr`. -/
  | nilList
  /-- A `timeutil.Duration` in nanoseconds. -/
  | dur (d : ℤ)
  | mode (m : UpstreamMode)
  /-- A `[]string`. -/
  | strs (l : List String)

/-- The fields of an object. -/
abbrev Fields := List (String × Val)

/-- A `yobj`, which may be nil. -/
abbrev Obj := Option Fields

/-- A parsed URL: its scheme, its host, and its text with another host. -/
structure URL where
  scheme : String
  host : String
  withHost : String → String

/-- What the migrations use of other packages and of the system. -/
structure Env where
  /-- `timeutil.Duration.String` -/
  durationString : ℤ → String
  /-- The text of an upstream mode. -/
  modeString : UpstreamMode → String
  /-- `bcrypt.GenerateFromPassword`, which fails on long passwords. -/
  generateFromPassword : String → Option String
  /-- `url.Parse` -/
  parseURL : String → Option URL
  /-- `netutil.SplitHost` -/
  splitHost : String → Option String
  /-- `netip.ParseAddr`, and the text of the address with a port. -/
  parseAddr : String → Option (ℕ → String)
  /-- `filepath.Join` -/
  join : List String → String
  /-- `filepath.IsAbs` -/
  isAbs : String → Bool
  dataDir : String

/-! ## Encoding and decoding -/

section codec

variable (env : Env)

mutual

/-- The document of a value. -/
def Val.encode : Val → Yaml
  | .null => .null
  | .bool b => .bool b
  | .int i => .int i
  | .str s => .str s
  | .list l => .list (encodeList l)
  | .map m => .map (encodeFields m)
  | .nilMap => .map []
  | .nilList => .list []
  | .dur d => .str (env.durationString d)
  | .mode m => .str (env.modeString m)
  | .strs l => .list (l.map .str)

def encodeList : List Val → List Yaml
  | [] => []
  | v :: l => v.encode :: encodeList l

def encodeFields : List (String × Val) → List (String × Yaml)
  | [] => []
  | (k, v) :: m => (k, v.encode) :: encodeFields m

end

end codec

mutual

/-- The value of a document. -/
def Yaml.decode : Yaml → Val
  | .null => .null
  | .bool b => .bool b
  | .int i => .int i
  | .str s => .str s
  | .list l => .list (decodeList l)
  | .map m => .map (decodeFields m)

def decodeList : List Yaml → List Val
  | [] => []
  | v :: l => v.decode :: decodeList l

def decodeFields : List (String × Yaml) → List (String × Val)
  | [] => []
  | (k, v) :: m => (k, v.decode) :: decodeFields m

end

/-! ## Fields -/

/-- The value of a key. -/
def Fields.get (m : Fields) (k : String) : Option Val := m.lookup k

/-- The fields with another value of a key. -/
def Fields.set (m : Fields) (k : String) (v : Val) : Fields :=
  match m with
  | [] => [(k, v)]
  | (k', v') :: m => if k' = k then (k, v) :: m else (k', v') :: Fields.set m k v

/-- The fields without a key. -/
def Fields.del (m : Fields) (k : String) : Fields := m.filter fun p => p.1 ≠ k

/-! ## Errors -/

/-- The errors of the migrations, and the one panic. -/
inductive Err
  /-- "unexpected type of %q: %T" -/
  | unexpectedType (key got : String)
  /-- `errors.Join` -/
  | joined (errs : List Err)
  /-- "generating password hash: %w" -/
  | passwordHash
  /-- "unexpected type of client at index %d: %T" -/
  | clientType (i : ℕ) (got : String)
  /-- "client at index %d: %w" -/
  | client (i : ℕ) (err : Err)
  /-- "unexpected type of upstream field: %T" -/
  | upstreamType (got : String)
  /-- "persistent client at index %d: unexpected type %T" -/
  | persistentType (i : ℕ) (got : String)
  /-- "persistent client at index %d: %w" -/
  | persistent (i : ℕ) (err : Err)
  /-- "invalid bind_host value: %s" -/
  | bindHost (value : String)
  /-- "filters: at index %d: expected object, got %T" -/
  | filterType (i : ℕ) (got : String)
  /-- "migrating schema %d to %d: %w" -/
  | migrating (cur next : ℕ) (err : Err)
  /-- "unknown current schema version %d" -/
  | unknownCurrent (version : ℕ)
  /-- "unknown target schema version %d" -/
  | unknownTarget (version : ℕ)
  /-- Not an error value: the panic of an assignment to an entry in a nil map. -/
  | nilMap

/-- `%T` -/
def Val.goType : Val → String
  | .null => "<nil>"
  | .bool _ => "bool"
  | .int _ => "int"
  | .str _ => "string"
  | .list _ | .nilList => "[]interface \x7b\x7d"
  | .map _ | .nilMap => "map[string]interface \x7b\x7d"
  | .dur _ => "timeutil.Duration"
  | .mode _ => "proxy.UpstreamMode"
  | .strs _ => "[]string"

/-! ## Typed access -/

/-- The types that the migrations ask for. -/
inductive Ty
  | any
  | bool
  | int
  | str
  | arr
  | obj

/-- The zero value of a type. -/
def Ty.zero : Ty → Val
  | any => .null
  | bool => .bool false
  | int => .int 0
  | str => .str ""
  | arr => .nilList
  | obj => .nilMap

/-- The type assertion of a value that is not null. -/
def Ty.has : Ty → Val → Bool
  | any, _ => true
  | bool, .bool _ => true
  | int, .int _ => true
  | str, .str _ => true
  | arr, .list _ | arr, .nilList => true
  | obj, .map _ | obj, .nilMap => true
  | _, _ => false

/-- The value of a key, if it is there and has the type; null is the zero value of the type. -/
def fieldVal (T : Ty) (o : Obj) (k : String) : Except Err (Option Val) :=
  match o.bind fun m => Fields.get m k with
  | none => .ok none
  | some .null => .ok (some T.zero)
  | some v => if T.has v then .ok (some v) else .error (.unexpectedType k v.goType)

def Val.toBool : Val → Bool
  | .bool b => b
  | _ => false

def Val.toInt : Val → ℤ
  | .int i => i
  | _ => 0

def Val.toStr : Val → String
  | .str s => s
  | _ => ""

/-- The elements of a `yarr`. -/
def Val.toList : Val → List Val
  | .list l => l
  | _ => []

/-- The object of a `yobj`. -/
def Val.toObj : Val → Obj
  | .map m => some m
  | _ => none

/-- `fieldVal[bool]`, and likewise for the other types. -/
def boolVal (o : Obj) (k : String) : Except Err (Option Bool) := (fieldVal .bool o k).map (·.map Val.toBool)

def intVal (o : Obj) (k : String) : Except Err (Option ℤ) := (fieldVal .int o k).map (·.map Val.toInt)

def strVal (o : Obj) (k : String) : Except Err (Option String) := (fieldVal .str o k).map (·.map Val.toStr)

def objVal (o : Obj) (k : String) : Except Err (Option Obj) := (fieldVal .obj o k).map (·.map Val.toObj)

/-- The type assertion `v.(yobj)`. -/
def Val.assertObj : Val → Option Obj
  | .map m => some (some m)
  | .nilMap => some none
  | _ => none

/-- An assignment to an entry, which panics on a nil map. -/
def put (o : Obj) (k : String) (v : Val) : Except Err Obj :=
  match o with
  | none => .error .nilMap
  | some m => .ok (some (Fields.set m k v))

/-- `delete`, which does nothing on a nil map. -/
def drop (o : Obj) (k : String) : Obj := o.map fun m => Fields.del m k

/-- Moves the value of a key from an object to another one, which is not nil. -/
def moveVal (T : Ty) (src : Obj) (dst : Fields) (srcKey dstKey : String) : Except Err (Obj × Fields) := do
  match ← fieldVal T src srcKey with
  | none => .ok (src, dst)
  | some v => .ok (drop src srcKey, Fields.set dst dstKey v)

/-- Moves the value of a key to another key of the same object. -/
def renameVal (T : Ty) (o : Obj) (srcKey dstKey : String) : Except Err Obj := do
  match ← fieldVal T o srcKey with
  | none => .ok o
  | some v => do
    let o ← put o dstKey v
    .ok (drop o srcKey)

/-- A value to move: its type, its key and its new key. -/
structure Move where
  ty : Ty
  srcKey : String
  dstKey : String

/-- Moves the values one by one; the errors are joined. -/
def moveAll : List Move → Obj → Fields → Except Err (Obj × Fields)
  | [], src, dst => .ok (src, dst)
  | mv :: mvs, src, dst =>
    match moveVal mv.ty src dst mv.srcKey mv.dstKey with
    | .ok (src, dst) => moveAll mvs src dst
    | .error err =>
      match moveAll mvs src dst with
      | .error (.joined errs) => .error (.joined (err :: errs))
      | _ => .error (.joined [err])

/-- The object after a change in place of the object under a key. -/
def store (m : Fields) (k : String) (o : Obj) : Fields := o.elim m fun m' => Fields.set m k (.map m')

/-- A change in place of the object under a key, if it is there. -/
def onObj (k : String) (f : Obj → Except Err Obj) (m : Fields) : Except Err Fields := do
  match ← objVal (some m) k with
  | none => .ok m
  | some o => do
    let o ← f o
    .ok (store m k o)

/-- A change of the elements of a `yarr`. -/
def onElems (f : ℕ → Val → Except Err Val) : Val → Except Err Val
  | .list l => do
    let l ← mapIdxM f 0 l
    .ok (.list l)
  | v => .ok v

/-- A change in place of an element that is a `yobj`; `other` is for the others. -/
def onElemObj (f : Obj → Except Err Obj) (other : Val → Except Err Val) (v : Val) : Except Err Val :=
  match v.assertObj with
  | none => other v
  | some o => do
    let o ← f o
    .ok (o.elim v .map)

/-- The object after a change in place of the elements under a key; without elements there is no change. -/
def onArrElems (k : String) (f : ℕ → Val → Except Err Val) (o : Obj) : List Val → Except Err Obj
  | [] => .ok o
  | v :: l => do
    let l ← mapIdxM f 0 (v :: l)
    put o k (.list l)

/-- The elements of a `yarr` that may be missing. -/
def elems (v : Option Val) : List Val := v.elim [] Val.toList

/-- A change in place of the elements of the `yarr` under a key, if it is there. -/
def onArr (k : String) (f : ℕ → Val → Except Err Val) (o : Obj) : Except Err Obj := do
  let v ← fieldVal .arr o k
  onArrElems k f o (elems v)

/-- The same, with a value of another type left as it is. -/
def onArrAnyway (k : String) (f : ℕ → Val → Except Err Val) (o : Obj) : Except Err Obj :=
  match fieldVal .arr o k with
  | .ok v => onArrElems k f o (elems v)
  | .error _ => .ok o

/-- A change of the document as an object. -/
def onDoc (f : Obj → Except Err Obj) (m : Fields) : Except Err Fields := do
  let o ← f (some m)
  .ok (o.getD m)

end AdGuardHome.Configmigrate
