/-
# Generated files

The file that is generated from an asset lies in the directory of the asset; its name is the one the
declaration gives, with the extension of the configuration.  Only a checked declaration is written.

An `Amount` sums up a selection of assets by whether their files are there already.
-/
import EnumAssets.Config
import EnumAssets.Declaration.Code
import EnumAssets.Tree.Write
import EnumAssets.Failure

namespace EnumAssets

/-! ## 1. Destinations -/

/-- Where the file of an asset goes. -/
structure Destination where
  asset : Path
  extension : String := defaultExtension
deriving DecidableEq, Repr

namespace Destination

/-- The path of the generated file; none when the asset has no directory. -/
def path? (d : Destination) (fileName : String) : Option Path :=
  d.asset.parent.map fun directory => directory.join (.ofText (fileName ++ "." ++ d.extension))

/-- Whether something is in the place of the generated file. -/
def willOverwrite (d : Destination) (t : Tree) (fileName : String) : Bool :=
  (d.path? fileName).any fun p => t.exists? p

/-- Writes the file of a checked declaration. -/
def write {α : Type} [Named α] (d : Destination) (t : Tree) (c : Checked α) :
    Tree × Except Failure Path :=
  match d.path? c.declaration.fileName with
  | none => (t, .error (.noOutputPath c.declaration.fileName))
  | some p =>
    match t.persist p (Utf8.encode c.code) with
    | (t', true) => (t', .ok p)
    | (t', false) => (t', .error (.persist p))

end Destination

/-! ## 2. Amounts -/

/-- How many files of a selection are there already: all, some, or none of them. -/
inductive Amount where
  | update
  | updateAndGenerate
  | generate
deriving DecidableEq, Repr

namespace Amount

/-- The amount of a selection, from whether the file of each asset is there. -/
def ofFlags (there : List Bool) : Amount :=
  if there.count true = there.length then .update
  else if there.count true = 0 then .generate
  else .updateAndGenerate

/-- The text of an amount. -/
def label : Amount → String
  | .update => "Update"
  | .updateAndGenerate => "Update and Generate"
  | .generate => "Generate"

end Amount

/-! ## 3. Loading -/

/-- Reads the asset that a path leads to. -/
def Asset.load (t : Tree) (p : Path) : Except Failure Asset :=
  match t.text? p with
  | none => .error (.readAsset p)
  | some text =>
    match Asset.ofText? text with
    | some a => .ok a
    | none => .error (.parseAsset p)

/-- Reads the configuration that a path leads to. -/
def Config.load (t : Tree) (p : Path) : Except Failure Config :=
  match t.text? p with
  | none => .error (.readConfig p)
  | some text =>
    match Config.ofText? text with
    | some c => .ok c
    | none => .error (.parseConfig p)

end EnumAssets
