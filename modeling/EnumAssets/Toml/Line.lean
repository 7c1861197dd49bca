/-
# Lines of a document

A document is a sequence of lines: a key with its value, the header of a table, or the header of
one more table of an array; blank lines and comments say nothing.  `readLines` reads them all and
leaves their meaning for each other to the next stage.

A key is written bare or as a string, and several keys with dots between them name a place inside
of inner tables.  Arrays may spread over lines and hold comments, tables in braces may not.  At
most 79 arrays and tables in braces may be nested, and at most 79 keys joined by dots.

The readers take a number that bounds their steps; it is the length of the text, which each step
makes shorter.
-/
import EnumAssets.Toml.Bare

namespace EnumAssets.Toml

/-! ## 1. Lines and what is written on them -/

/-- The greatest number of nested values and of joined keys. -/
def depthLimit : Nat := 79

/-- A value as it is written: the entries of a table in braces are not yet put in their places. -/
inductive Written where
  | plain (v : Value)
  | array (items : List Written)
  | table (entries : List (List String × Written))
deriving Repr

/-- A line that says something. -/
inductive Line where
  | entry (keys : List String) (value : Written)
  | table (keys : List String)
  | arrayItem (keys : List String)
deriving Repr

/-! ## 2. Keys -/

/-- The text behind its first blanks. -/
def skipBlanks (cs : List Char) : List Char :=
  cs.dropWhile isBlank

/-- Whether a character may stand in a bare key. -/
def isKeyChar (c : Char) : Bool :=
  c.isAlphanum || c == '_' || c == '-'

/-- The single key that begins a text. -/
def readKey (cs : List Char) : Option (String × List Char) :=
  match cs.takeWhile isKeyChar with
  | [] => readShortString cs
  | word => some (String.ofList word, cs.drop word.length)

/-- The keys joined by dots that begin a text, blanks around each of them included. -/
def readKeys : Nat → List Char → Option (List String × List Char)
  | 0, _ => none
  | steps + 1, cs => do
    let (key, rest) ← readKey (skipBlanks cs)
    match skipBlanks rest with
    | '.' :: more =>
      let (keys, after) ← readKeys steps more
      return (key :: keys, after)
    | after => return ([key], after)

/-- The keys that begin a text, if they are not too many. -/
def readPlace (cs : List Char) : Option (List String × List Char) :=
  (readKeys cs.length cs).filter fun r => decide (r.1.length ≤ depthLimit)

/-! ## 3. Values -/

/-- A comment without its end of line. -/
def skipComment : List Char → List Char
  | '#' :: rest => rest.dropWhile isPlain
  | cs => cs

/-- The text behind blanks, line ends and comments. -/
def skipSpace : Nat → List Char → List Char
  | 0, cs => cs
  | steps + 1, cs =>
    match skipComment (skipBlanks cs) with
    | '\n' :: rest => skipSpace steps rest
    | '\r' :: '\n' :: rest => skipSpace steps rest
    | rest => rest

mutual

/-- The value that begins a text; `depth` more values may be nested in it. -/
def readValue : Nat → Nat → List Char → Option (Written × List Char)
  | 0, _, _ => none
  | steps + 1, depth, cs =>
    match cs with
    | '"' :: _ | '\'' :: _ => (readString cs).map fun (s, rest) => (.plain (.string s), rest)
    | '[' :: rest =>
      match depth with
      | 0 => none
      | inner + 1 => (readItems steps inner rest).map fun (items, after) => (.array items, after)
    | '\x7b' :: rest =>
      match depth with
      | 0 => none
      | inner + 1 =>
        match skipBlanks rest with
        | '\x7d' :: after => some (.table [], after)
        | _ =>
          (readEntries steps inner rest).map fun (entries, after) => (.table entries, after)
    | _ => (readBare cs).map fun (v, rest) => (.plain v, rest)

/-- The items of an array and its closing bracket; a comma may stand behind the last item. -/
def readItems : Nat → Nat → List Char → Option (List Written × List Char)
  | 0, _, _ => none
  | steps + 1, depth, cs =>
    match skipSpace cs.length cs with
    | ']' :: rest => some ([], rest)
    | start => do
      let (item, rest) ← readValue steps depth start
      match skipSpace rest.length rest with
      | ',' :: more =>
        let (items, after) ← readItems steps depth more
        return (item :: items, after)
      | ']' :: after => return ([item], after)
      | _ => none

/-- The entries of a table in braces and its closing brace. -/
def readEntries : Nat → Nat → List Char → Option (List (List String × Written) × List Char)
  | 0, _, _ => none
  | steps + 1, depth, cs => do
    let (keys, rest) ← readPlace cs
    match rest with
    | '=' :: more =>
      let (value, rest) ← readValue steps depth (skipBlanks more)
      match skipBlanks rest with
      | ',' :: more =>
        let (entries, after) ← readEntries steps depth more
        return ((keys, value) :: entries, after)
      | '\x7d' :: after => return ([(keys, value)], after)
      | _ => none
    | _ => none

end

/-! ## 4. Lines -/

/-- What follows the end of a line, behind blanks and a comment; the text may end there too. -/
def endOfLine? (cs : List Char) : Option (List Char) :=
  match skipComment (skipBlanks cs) with
  | [] => some []
  | rest => afterLineEnd? rest

/-- The line that begins a text, behind its blanks. -/
def readLine (cs : List Char) : Option (Line × List Char) :=
  match cs with
  | '[' :: '[' :: rest => do
    match ← readPlace rest with
    | (keys, ']' :: ']' :: after) => return (.arrayItem keys, after)
    | _ => none
  | '[' :: rest => do
    match ← readPlace rest with
    | (keys, ']' :: after) => return (.table keys, after)
    | _ => none
  | _ => do
    match ← readPlace cs with
    | (keys, '=' :: more) =>
      let start := skipBlanks more
      let (value, after) ← readValue (2 * start.length + 2) depthLimit start
      return (.entry keys value, after)
    | _ => none

/-- The lines of a text. -/
def readLines : Nat → List Char → Option (List Line)
  | 0, _ => none
  | steps + 1, cs =>
    match skipBlanks cs with
    | [] => some []
    | '#' :: rest => (endOfLine? ('#' :: rest)).bind (readLines steps)
    | '\n' :: rest => readLines steps rest
    | '\r' :: '\n' :: rest => readLines steps rest
    | start => do
      let (line, rest) ← readLine start
      let lines ← readLines steps (← endOfLine? rest)
      return line :: lines

/-- The lines of a document; a byte order mark in front of it says nothing. -/
def linesOf (text : String) : Option (List Line) :=
  match text.toList with
  | '\uFEFF' :: cs => readLines (cs.length + 1) cs
  | cs => readLines (cs.length + 1) cs

end EnumAssets.Toml
