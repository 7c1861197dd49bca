/-
# Values of an enum

A value of an enum is listed as a plain name, as a name with a payload, or as a reference to an
object of the project.  Whatever its form, all that shows in the generated text is its name; the
name of a referenced object is the name of its file without the extension and without white space.
-/
import EnumAssets.Path.Basic
import EnumAssets.Text.Choice
import EnumAssets.Toml.Value
import EnumAssets.Unicode.Blank

namespace EnumAssets

/-! ## 1. Names -/

/-- What resolves to the name of an enum value. -/
class Named (α : Type) where
  name : α → String

export Named (name)

instance : Named String :=
  ⟨id⟩

/-! ## 2. References to objects -/

/-- The kinds of objects whose names become enum values. -/
inductive ObjectKind where
  | audioClip
  | prefab
  | sprite
deriving DecidableEq, Repr

namespace ObjectKind

/-- Every kind once. -/
def all : List ObjectKind :=
  [audioClip, prefab, sprite]

/-- The name of a kind in an asset. -/
def label : ObjectKind → String
  | audioClip => "audio_clip"
  | prefab => "prefab"
  | sprite => "sprite"

/-- The kind of a name, which has to be spelled exactly. -/
def ofLabel? (s : String) : Option ObjectKind :=
  all.find? fun k => k.label == s

/-- The kind of a name, or the answer to a name that is none. -/
def read (s : String) : Except String ObjectKind :=
  match ofLabel? s with
  | some k => .ok k
  | none => .error (unknownChoice s (all.map label))

theorem ofLabel?_label (k : ObjectKind) : ofLabel? k.label = some k := by
  cases k <;> decide

end ObjectKind

/-- A text without its white space. -/
def withoutSpace (s : String) : String :=
  String.ofList (s.toList.filter fun c => !Unicode.whiteSpace.has c)

/-- An object of the project that an enum value is named after. -/
structure ObjectRef where
  kind : ObjectKind
  path : Path
deriving DecidableEq, Repr

/-- The name of an object as it is shown: that of its file, without the extension. -/
def ObjectRef.displayName (o : ObjectRef) : String :=
  match o.path.fileStem with
  | some stem => Utf8.decodeLossy stem
  | none => ""

instance : Named ObjectRef :=
  ⟨fun o => withoutSpace o.displayName⟩

/-! ## 3. Entries -/

/-- A colour with an opacity. -/
structure Color where
  red : Single
  green : Single
  blue : Single
  alpha : Single
deriving DecidableEq, Repr

/-- What an enum value may carry beside its name; it never shows in the generated text. -/
inductive Payload where
  | color (c : Color)
  | value (v : Toml.Value)
deriving Repr

/-- A value of an enum as an asset lists it. -/
inductive Entry where
  | plain (name : String)
  | pair (name : String) (payload : Payload)
  | reference (object : ObjectRef)
deriving Repr

instance : Named Entry where
  name
    | .plain n => n
    | .pair n _ => n
    | .reference o => Named.name o

end EnumAssets
