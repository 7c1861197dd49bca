/-
# The generated text

The text of a declaration is written from the top: the lines that open the namespace and the class,
if there are any, and the enum, then one line for each value, and at last the scopes are closed, the
innermost first.  The depth is counted along: each open scope is one more tab in front of a line.
Each line ends with a line feed, and all values but the last have a comma behind them.
-/
import EnumAssets.Declaration.Defect

namespace EnumAssets

/-- The line that opens a scope, as far as the brace. -/
abbrev Opening := List Char

namespace Declaration

variable {α : Type}

/-! ## 1. The parts of the text -/

/-- The openings of the scopes of a declaration, the outermost first. -/
def openings (d : Declaration α) : List Opening :=
  (if d.hasNamespace then ["namespace ".toList ++ d.namespaceName.toList] else []) ++
    (if d.hasClass then
      [d.classAccess.modifier.toList ++ (if d.isPartial then "partial ".toList else []) ++
        "class ".toList ++ d.className.toList]
    else []) ++
    [d.enumAccess.modifier.toList ++ "enum ".toList ++ d.enumName.toList]

/-- The lines of the values, a comma behind all but the last. -/
def valueLines : List String → List (List Char)
  | [] => []
  | [n] => [n.toList]
  | n :: rest => (n.toList ++ [',']) :: valueLines rest

/-- A line with a number of tabs in front of it. -/
def indented (depth : Nat) (line : List Char) : List Char :=
  List.replicate depth '\t' ++ line

/-! ## 2. Writing -/

/-- What has been written so far: some lines, and the depth of the next one. -/
structure Draft where
  lines : List (List Char) := []
  depth : Nat := 0

namespace Draft

/-- Writes a line. -/
def line (w : Draft) (text : List Char) : Draft :=
  { w with lines := w.lines ++ [indented w.depth text] }

/-- Writes the line that opens a scope; all that follows is one tab deeper. -/
def enter (w : Draft) (opening : Opening) : Draft :=
  { w.line (opening ++ ['\x7b']) with depth := w.depth + 1 }

/-- All lines when the open scopes are closed, the innermost first. -/
def close (w : Draft) : List (List Char) :=
  w.lines ++ (List.range w.depth).reverse.map fun level => indented level ['\x7d']

end Draft

/-- The lines of a declaration. -/
def lines [Named α] (d : Declaration α) : List (List Char) :=
  ((valueLines d.names).foldl Draft.line (d.openings.foldl Draft.enter {})).close

/-! ## 3. The text -/

/-- The text of a declaration, whether or not it is sound. -/
def code [Named α] (d : Declaration α) : String :=
  String.ofList (d.lines.flatMap (· ++ ['\n']))

end Declaration

/-- The text of a checked declaration. -/
def Checked.code {α : Type} [Named α] (c : Checked α) : String :=
  c.declaration.code

end EnumAssets
