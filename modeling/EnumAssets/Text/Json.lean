/-
# Objects of JSON

Results for other programs are objects of JSON, without any space and so without a line end.  The
values in them are texts, lists of texts, truth values, and `null` for what there is none of.  The
quote, the backslash and the control characters of a text are escaped; all others stand for
themselves, those above U+007F too.
-/
namespace EnumAssets.Json

/-! ## 1. Objects -/

/-- A value of JSON, as far as results need one. -/
inductive Value where
  | null
  | boolean (b : Bool)
  | text (s : String)
  | texts (items : List String)
deriving DecidableEq, Repr

/-- An object: its fields in the order they are written in. -/
abbrev Object := List (String × Value)

/-! ## 2. How they are written -/

/-- How a character is written in a string. -/
def escape (c : Char) : List Char :=
  match c with
  | '"' => ['\\', '"']
  | '\\' => ['\\', '\\']
  | '\x08' => ['\\', 'b']
  | '\x0c' => ['\\', 'f']
  | '\n' => ['\\', 'n']
  | '\r' => ['\\', 'r']
  | '\t' => ['\\', 't']
  | c =>
    if c < ' ' then
      ['\\', 'u', '0', '0', Nat.digitChar (c.toNat / 16), Nat.digitChar (c.toNat % 16)]
    else [c]

/-- A string. -/
def quoted (s : String) : List Char :=
  '"' :: s.toList.flatMap escape ++ ['"']

/-- Parts with a comma between any two of them. -/
def separated (parts : List (List Char)) : List Char :=
  [','].intercalate parts

/-- A value. -/
def Value.chars : Value → List Char
  | null => ['n', 'u', 'l', 'l']
  | boolean true => ['t', 'r', 'u', 'e']
  | boolean false => ['f', 'a', 'l', 's', 'e']
  | text s => quoted s
  | texts items => '[' :: separated (items.map quoted) ++ [']']

/-- A field: its name and its value. -/
def field (f : String × Value) : List Char :=
  quoted f.1 ++ ':' :: f.2.chars

/-- An object. -/
def Object.chars (o : Object) : List Char :=
  '\x7b' :: separated (o.map field) ++ ['\x7d']

end EnumAssets.Json
