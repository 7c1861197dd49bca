/-
# Strings of a document

A string stands between double quotes, where a backslash begins an escape, or between apostrophes,
where every character stands for itself.  One of each on either side makes a string of one line,
three make one of several lines.  Of control characters only the tab may stand in a string; a line
end is read as a line feed, whichever way it is written.

Each reader takes the text behind the opening quotes and returns the characters of the string and
what follows its closing quotes; none when the string is not well formed.
-/
namespace EnumAssets.Toml

/-! ## 1. Characters and escapes -/

/-- Space or tab. -/
def isBlank (c : Char) : Bool :=
  c == ' ' || c == '\t'

/-- Whether a character may stand in a string or a comment as itself. -/
def isPlain (c : Char) : Bool :=
  c == '\t' || (decide (' ' ≤ c) && c != '\x7f')

/-- The value of a hexadecimal digit. -/
def hexDigit? (c : Char) : Option Nat :=
  if '0' ≤ c ∧ c ≤ '9' then some (c.toNat - '0'.toNat)
  else if 'a' ≤ c ∧ c ≤ 'f' then some (c.toNat - 'a'.toNat + 10)
  else if 'A' ≤ c ∧ c ≤ 'F' then some (c.toNat - 'A'.toNat + 10)
  else none

/-- The character whose number the hexadecimal digits write, unless it is a surrogate or too
large. -/
def charOfHex? (ds : List Char) : Option Char := do
  let n := (← ds.mapM hexDigit?).foldl (fun n d => n * 16 + d) 0
  if n.isValidChar then some (Char.ofNat n) else none

/-- The character of an escape of one letter. -/
def escape? : Char → Option Char
  | 'b' => some '\x08'
  | 't' => some '\t'
  | 'n' => some '\n'
  | 'f' => some '\x0c'
  | 'r' => some '\r'
  | '"' => some '"'
  | '\\' => some '\\'
  | _ => none

/-- Puts a character in front of a string that has been read. -/
def withChar (c : Char) (r : Option (List Char × List Char)) : Option (List Char × List Char) :=
  r.map fun (cs, rest) => (c :: cs, rest)

/-! ## 2. Strings of one line -/

/-- A string of one line between double quotes. -/
def readBasic : List Char → Option (List Char × List Char)
  | [] => none
  | '"' :: rest => some ([], rest)
  | '\\' :: 'u' :: a :: b :: c :: d :: rest =>
    (charOfHex? [a, b, c, d]).bind fun x => withChar x (readBasic rest)
  | '\\' :: 'U' :: a :: b :: c :: d :: e :: f :: g :: h :: rest =>
    (charOfHex? [a, b, c, d, e, f, g, h]).bind fun x => withChar x (readBasic rest)
  | '\\' :: c :: rest => (escape? c).bind fun x => withChar x (readBasic rest)
  | c :: rest => if isPlain c && c != '\\' then withChar c (readBasic rest) else none

/-- A string of one line between apostrophes. -/
def readLiteral : List Char → Option (List Char × List Char)
  | [] => none
  | '\'' :: rest => some ([], rest)
  | c :: rest => if isPlain c then withChar c (readLiteral rest) else none

/-! ## 3. Strings of several lines -/

/-- What follows a line end at the very beginning of a text. -/
def afterLineEnd? : List Char → Option (List Char)
  | '\n' :: rest => some rest
  | '\r' :: '\n' :: rest => some rest
  | _ => none

/-- The text without a line end at its very beginning. -/
def skipLineEnd (cs : List Char) : List Char :=
  (afterLineEnd? cs).getD cs

/-- Whether only blanks stand before the end of the line. -/
def restIsBlank (cs : List Char) : Bool :=
  (afterLineEnd? (cs.dropWhile isBlank)).isSome

/-- A string of several lines between double quotes.  After a backslash at the end of a line
(`joining`) all blanks and line ends are left out.  Up to two quotes may stand right before the
closing three. -/
def readLongBasic (joining : Bool) : List Char → Option (List Char × List Char)
  | [] => none
  | '"' :: '"' :: '"' :: '"' :: '"' :: rest => some (['"', '"'], rest)
  | '"' :: '"' :: '"' :: '"' :: rest => some (['"'], rest)
  | '"' :: '"' :: '"' :: rest => some ([], rest)
  | '\r' :: '\n' :: rest =>
    if joining then readLongBasic true rest else withChar '\n' (readLongBasic false rest)
  | '\\' :: 'u' :: a :: b :: c :: d :: rest =>
    (charOfHex? [a, b, c, d]).bind fun x => withChar x (readLongBasic false rest)
  | '\\' :: 'U' :: a :: b :: c :: d :: e :: f :: g :: h :: rest =>
    (charOfHex? [a, b, c, d, e, f, g, h]).bind fun x => withChar x (readLongBasic false rest)
  | '\\' :: c :: rest =>
    if restIsBlank (c :: rest) then readLongBasic true (c :: rest)
    else (escape? c).bind fun x => withChar x (readLongBasic false rest)
  | c :: rest =>
    if joining && (isBlank c || c == '\n') then readLongBasic true rest
    else if c == '\n' || (isPlain c && c != '\\') then withChar c (readLongBasic false rest)
    else none

/-- A string of several lines between apostrophes.  Up to two of them may stand right before the
closing three. -/
def readLongLiteral : List Char → Option (List Char × List Char)
  | [] => none
  | '\'' :: '\'' :: '\'' :: '\'' :: '\'' :: rest => some (['\'', '\''], rest)
  | '\'' :: '\'' :: '\'' :: '\'' :: rest => some (['\''], rest)
  | '\'' :: '\'' :: '\'' :: rest => some ([], rest)
  | '\r' :: '\n' :: rest => withChar '\n' (readLongLiteral rest)
  | c :: rest => if c == '\n' || isPlain c then withChar c (readLongLiteral rest) else none

/-! ## 4. Any string -/

/-- The string of one line that begins a text, quotes included. -/
def readShortString : List Char → Option (String × List Char)
  | '"' :: rest => (readBasic rest).map fun (cs, r) => (String.ofList cs, r)
  | '\'' :: rest => (readLiteral rest).map fun (cs, r) => (String.ofList cs, r)
  | _ => none

/-- The string of any form that begins a text, quotes included. -/
def readString : List Char → Option (String × List Char)
  | '"' :: '"' :: '"' :: rest =>
    (readLongBasic false (skipLineEnd rest)).map fun (cs, r) => (String.ofList cs, r)
  | '\'' :: '\'' :: '\'' :: rest =>
    (readLongLiteral (skipLineEnd rest)).map fun (cs, r) => (String.ofList cs, r)
  | cs => readShortString cs

end EnumAssets.Toml
