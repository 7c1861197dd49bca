/-
# Values of a document

A document is a table: keys with values, in the order in which they were written.  A value is a
string, a number, a truth value, a moment, a list of values or again a table.
-/
import EnumAssets.Number.Binary
import EnumAssets.Toml.Moment

namespace EnumAssets.Toml

/-- A value of a document. -/
inductive Value where
  | string (s : String)
  | integer (n : Int)
  | float (x : Double)
  | boolean (b : Bool)
  | moment (m : Moment)
  | array (items : List Value)
  | table (entries : List (String × Value))
deriving Repr

/-- Keys with their values, in the order of the document. -/
abbrev Table := List (String × Value)

namespace Table

/-- The value of a key. -/
def get? (t : Table) (key : String) : Option Value :=
  t.lookup key

end Table

namespace Value

/-- The text of a string. -/
def string? : Value → Option String
  | .string s => some s
  | _ => none

/-- The truth value of a boolean. -/
def boolean? : Value → Option Bool
  | .boolean b => some b
  | _ => none

end Value
end EnumAssets.Toml
