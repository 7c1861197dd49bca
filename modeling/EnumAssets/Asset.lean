/-
# Enum assets

An enum asset is a document that describes one enum.  Its `kind` says what its values are: plain
names, names with a colour, names with any value, or paths of objects.  `Asset.ofTable?` reads the
document; what is missing but optional gets its default, keys without a meaning are passed over,
and nothing is converted from one type to another, so a number is never taken for a string.
-/
import EnumAssets.Declaration.Basic
import EnumAssets.Toml.Document

namespace EnumAssets

/-! ## 1. Assets -/

/-- The ending of the file names of enum assets. -/
def assetSuffix : String := ".enum.toml"

/-- Whether a path names an enum asset: its file name is text and has the ending. -/
def Path.isAsset (p : Path) : Bool :=
  p.fileName.any fun n => (Utf8.decode n).isSome && (Utf8.encode assetSuffix).isSuffixOf n

/-- The values of an asset, by its kind. -/
inductive AssetValues where
  | simple (names : List String)
  | color (pairs : List (String × Color))
  | pair (pairs : List (String × Toml.Value))
  | objects (kind : ObjectKind) (paths : List String)
deriving Repr

/-- An enum asset: the declaration without its values, and the values by their kind. -/
structure Asset where
  header : Declaration Entry
  values : AssetValues
deriving Repr

namespace AssetValues

/-- The name of the kind. -/
def kind : AssetValues → String
  | simple _ => "simple"
  | color _ => "color"
  | pair _ => "pair"
  | objects k _ => k.label

/-- The values as entries of a declaration. -/
def entries : AssetValues → List Entry
  | simple names => names.map .plain
  | color pairs => pairs.map fun (n, c) => .pair n (.color c)
  | pair pairs => pairs.map fun (n, v) => .pair n (.value v)
  | objects k paths => paths.map fun p => .reference ⟨k, Path.ofText p⟩

end AssetValues

/-- The declaration of an asset. -/
def Asset.declaration (a : Asset) : Declaration Entry :=
  a.header.withValues a.values.entries

/-! ## 2. Shapes of values -/

namespace Asset

open Toml

/-- What reads a value of a document, if it has the expected shape. -/
abbrev Shape (α : Type) := Value → Option α

/-- The value of a key that has to be there. -/
def required {α : Type} (shape : Shape α) (t : Table) (key : String) : Option α :=
  (t.get? key).bind shape

/-- The value of a key, or a default when the key is not there. -/
def optional {α : Type} (shape : Shape α) (default : α) (t : Table) (key : String) : Option α :=
  match t.get? key with
  | none => some default
  | some v => shape v

/-- A list of values of one shape. -/
def listOf {α : Type} (shape : Shape α) : Shape (List α)
  | .array items => items.mapM shape
  | _ => none

/-- An access: its name, or a table of that one key with an empty table or array for a value. -/
def access : Shape Access
  | .string s => Access.ofName? s
  | .table [(key, .table [])] | .table [(key, .array [])] => Access.ofName? key
  | _ => none

/-- A channel of a colour: any number, rounded to 32 bits. -/
def channel : Shape Single
  | .integer n => some (Single.ofInt n)
  | .float x => some (Single.ofDouble x)
  | _ => none

/-- A colour: a table with its channels, or an array of them; the opacity may be left out. -/
def color : Shape Color
  | .table t => do
    let red ← required channel t "r"
    let green ← required channel t "g"
    let blue ← required channel t "b"
    let alpha ← optional channel Single.one t "a"
    return ⟨red, green, blue, alpha⟩
  | .array [r, g, b] => do
    return ⟨← channel r, ← channel g, ← channel b, Single.one⟩
  | .array [r, g, b, a] => do
    return ⟨← channel r, ← channel g, ← channel b, ← channel a⟩
  | _ => none

/-- A name with a value: a table with both, or an array of exactly these two. -/
def pairOf {α : Type} (shape : Shape α) : Shape (String × α)
  | .table t => do
    return (← required Value.string? t "name", ← required shape t "value")
  | .array [n, v] => do
    return (← n.string?, ← shape v)
  | _ => none

/-! ## 3. Reading an asset -/

/-- The values of an asset of a kind. -/
def valuesOf (kind : String) (t : Table) : Option AssetValues :=
  if kind = "simple" then
    (optional (listOf Value.string?) [] t "values").map .simple
  else if kind = "color" then
    (optional (listOf (pairOf color)) [] t "values").map .color
  else if kind = "pair" then
    (optional (listOf (pairOf some)) [] t "values").map .pair
  else
    match ObjectKind.ofLabel? kind with
    | some k => (optional (listOf Value.string?) [] t "values").map (.objects k)
    | none => none

/-- The asset that a document describes; none when the document has another shape. -/
def ofTable? (t : Table) : Option Asset := do
  let fileName ← required Value.string? t "file_name"
  let namespaceName ← optional Value.string? "" t "namespace_name"
  let className ← optional Value.string? "" t "class_name"
  let isPartial ← optional Value.boolean? false t "is_partial"
  let classAccess ← optional access .unspecified t "class_access_type"
  let enumName ← required Value.string? t "enumerator_name"
  let enumAccess ← optional access .unspecified t "enum_access_type"
  let kind ← required Value.string? t "kind"
  let values ← valuesOf kind t
  return {
    header := { fileName, namespaceName, className, isPartial, classAccess, enumName, enumAccess }
    values }

/-- The asset that a text describes. -/
def ofText? (text : String) : Option Asset :=
  (Toml.parse text).bind ofTable?

end Asset
end EnumAssets
