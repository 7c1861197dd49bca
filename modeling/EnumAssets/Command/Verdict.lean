/-
# Verdicts

The verdict on one asset: it has defects, or it is sound and was only checked, or its file was
written.  The same verdict is shown as log records and, if asked for, as one object of JSON on a
line of its own.
-/
import EnumAssets.Command.Log
import EnumAssets.Path.Basic
import EnumAssets.Text.Json

namespace EnumAssets.Command

/-! ## 1. Verdicts -/

/-- What came out for one asset. -/
inductive Outcome where
  | invalid (messages : List String)
  | valid
  | written (output : Path)
deriving DecidableEq, Repr

/-- What came out for the asset of a path. -/
structure Verdict where
  asset : Path
  outcome : Outcome
deriving DecidableEq, Repr

/-! ## 2. What a verdict shows -/

namespace Verdict

/-- The messages about the defects. -/
def messages (v : Verdict) : List String :=
  match v.outcome with
  | .invalid ms => ms
  | _ => []

/-- Whether there are no defects. -/
def isOk (v : Verdict) : Bool :=
  match v.outcome with
  | .invalid _ => false
  | _ => true

/-- The path of the file that was written. -/
def output? (v : Verdict) : Option Path :=
  match v.outcome with
  | .written p => some p
  | _ => none

/-- The verdict as an object, with the keys in alphabetical order. -/
def object (v : Verdict) : Json.Object :=
  [("errors", .texts v.messages),
    ("ok", .boolean v.isOk),
    ("output", match v.output? with
      | some p => .text p.display
      | none => .null),
    ("path", .text v.asset.display)]

/-- The verdict as a line of JSON. -/
def json (v : Verdict) : String :=
  String.ofList v.object.chars

/-- The records about the verdict. -/
def records (v : Verdict) : List Record :=
  match v.outcome with
  | .invalid ms => ms.map fun m => ⟨.error, m, [("asset", v.asset.display)]⟩
  | .valid => [⟨.info, v.asset.display ++ " is valid", []⟩]
  | .written p => [⟨.info, "Wrote file " ++ p.display, []⟩]

end Verdict
end EnumAssets.Command
