/-
# Failures

A run can fail for reasons that are no defect of a declaration: a file cannot be read or written,
its text is no document of the expected shape, or a source is missing.  Each reason names the path
or the pattern it is about.
-/
import EnumAssets.Path.Basic

namespace EnumAssets

/-- Why reading or writing failed. -/
inductive Failure where
  | readAsset (path : Path)
  | parseAsset (path : Path)
  | readConfig (path : Path)
  | parseConfig (path : Path)
  | sourceNotFound (path : Path)
  | pattern (text : String)
  | noOutputPath (fileName : String)
  | persist (path : Path)
deriving DecidableEq, Repr

/-- The text of a failure, as the user sees it. -/
def Failure.message : Failure → String
  | .readAsset p => "failed to read enum asset " ++ p.quoted
  | .parseAsset p => "failed to parse enum asset " ++ p.quoted
  | .readConfig p => "failed to read config " ++ p.quoted
  | .parseConfig p => "failed to parse config " ++ p.quoted
  | .sourceNotFound p => "source not found: " ++ p.quoted
  | .pattern text => "invalid glob pattern " ++ Quoted.text text
  | .noOutputPath f => "no output path for \"" ++ f ++ "\": the asset has no parent directory"
  | .persist p => "failed to write " ++ p.quoted

end EnumAssets
