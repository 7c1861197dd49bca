/-
# Configuration

A configuration names the sources of the assets, which are directories, single files and glob
patterns, and the extension of the generated files.  Everything in it is optional.
-/
import EnumAssets.Asset

namespace EnumAssets

/-- Where assets come from. -/
inductive Source where
  | directory (path : Path)
  | file (path : Path)
  | glob (pattern : String)
deriving DecidableEq, Repr

/-- The extension of generated files, if nothing else is said. -/
def defaultExtension : String := "cs"

/-- The settings of a run. -/
structure Config where
  extension : String := defaultExtension
  sources : List Source := []
deriving DecidableEq, Repr

namespace Config

open Toml Asset

/-- The file of the configuration, if nothing else is said. -/
def defaultFile : String := "enum-gen.toml"

/-- The source of a kind. -/
def sourceOf? (kind text : String) : Option Source :=
  if kind = "directory" then some (.directory (Path.ofText text))
  else if kind = "file" then some (.file (Path.ofText text))
  else if kind = "glob" then some (.glob text)
  else none

/-- The key of the text of a source: a glob has a pattern, the others have a path. -/
def textKey (kind : String) : String :=
  if kind = "glob" then "pattern" else "path"

/-- A source: a table with its kind and its text, or an array of exactly these two. -/
def source : Shape Source
  | .table t => do
    let kind ← required Value.string? t "type"
    sourceOf? kind (← required Value.string? t (textKey kind))
  | .array [k, s] => do
    sourceOf? (← k.string?) (← s.string?)
  | _ => none

/-- The extension in the settings of the output: a table with it, or an array that begins with it;
it may be left out in both.  A moment is taken for settings without an extension. -/
def output : Shape String
  | .table t => optional Value.string? defaultExtension t "extension"
  | .array [] | .moment _ => some defaultExtension
  | .array (v :: _) => v.string?
  | _ => none

/-- The configuration that a document spells; none when the document has another shape. -/
def ofTable? (t : Table) : Option Config := do
  let extension ← optional output defaultExtension t "output"
  let sources ← optional (listOf source) [] t "sources"
  return { extension, sources }

/-- The configuration that a text spells. -/
def ofText? (text : String) : Option Config :=
  (Toml.parse text).bind ofTable?

end Config
end EnumAssets
