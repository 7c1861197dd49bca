/-
# Quoted text

Messages show paths and patterns between double quotes, so that a reader sees where the text
begins and ends and which characters it holds.  A quote and a backslash get a backslash; line
ends, tabs and NUL are written with their letter; a character without a form of its own (see
`Unicode.hidden`) is written as its number between braces; all others stand for themselves.  The
bytes of a malformed part are written one by one with two hexadecimal digits.
-/
import EnumAssets.Text.Utf8
import EnumAssets.Unicode.Hidden

namespace EnumAssets.Quoted

/-- The hexadecimal digits of a number, in lower case and without leading zeros. -/
def hexDigits (n : Nat) : List Char :=
  Nat.toDigits 16 n

/-- How one character is written between quotes. -/
def escape (c : Char) : List Char :=
  match c with
  | '\x00' => ['\\', '0']
  | '\t' => ['\\', 't']
  | '\r' => ['\\', 'r']
  | '\n' => ['\\', 'n']
  | '\\' => ['\\', '\\']
  | '"' => ['\\', '"']
  | c =>
    if Unicode.hidden.has c then ['\\', 'u', '\x7b'] ++ hexDigits c.toNat ++ ['\x7d'] else [c]

/-- The two upper-case hexadecimal digits of a byte, after a backslash and an x. -/
def escapeByte (b : UInt8) : List Char :=
  let digit (n : Nat) := (Nat.digitChar n).toUpper
  ['\\', 'x', digit (b.toNat / 16), digit (b.toNat % 16)]

/-- A text between quotes. -/
def text (s : String) : String :=
  String.ofList (['"'] ++ s.toList.flatMap escape ++ ['"'])

/-- How one piece of a byte sequence is written between quotes. -/
def piece : Utf8.Piece → List Char
  | .char c => escape c
  | .junk part => part.flatMap escapeByte

/-- A byte sequence between quotes. -/
def bytes (bs : Bytes) : String :=
  String.ofList (['"'] ++ (Utf8.pieces bs).flatMap piece ++ ['"'])

end EnumAssets.Quoted
