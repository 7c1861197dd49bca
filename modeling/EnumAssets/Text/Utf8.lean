/-
# Text as bytes

File names and file contents are byte sequences that need not be text.  `pieces` reads a byte
sequence from left to right as UTF-8 and yields what it finds: characters, and between them the
parts that are no character.  A malformed part is as long as possible: it is the longest stretch
that could still have become a character when the next byte (or the end) ruled that out, and one
byte where no character can start.

Two readings come out of the pieces.  `decode` is the strict one and refuses any malformed part;
`decodeLossy` is the one for display, with U+FFFD in the place of each malformed part.  In the
other direction `encode` writes the bytes of a text.
-/
namespace EnumAssets

/-! ## 1. Bytes and pieces -/

/-- A sequence of bytes, such as a file name or the content of a file. -/
abbrev Bytes := List UInt8

namespace Utf8

/-- The bytes of a text. -/
def encode (s : String) : Bytes :=
  s.toList.flatMap String.utf8EncodeChar

/-- What is found in a byte sequence: a character, or a part that is none. -/
inductive Piece where
  | char (c : Char)
  | junk (part : Bytes)
deriving DecidableEq, Repr

/-! ## 2. Characters of several bytes -/

/-- A character that has begun: the bytes read so far, how many are missing, the bounds of the
next byte, and the number formed by the bits read so far. -/
structure Pending where
  read : Bytes
  missing : Nat
  low : UInt8
  high : UInt8
  code : Nat
deriving DecidableEq, Repr

/-- What a byte says that stands where a character should begin: a whole character, the beginning
of a longer one, or neither.  The bounds of the second byte leave out the overlong forms, the
surrogates and the numbers above U+10FFFF. -/
def lead (b : UInt8) : Piece ⊕ Pending :=
  if b < 0x80 then .inl (.char (Char.ofNat b.toNat))
  else if b < 0xC2 then .inl (.junk [b])
  else if b < 0xE0 then .inr ⟨[b], 1, 0x80, 0xBF, b.toNat % 32⟩
  else if b = 0xE0 then .inr ⟨[b], 2, 0xA0, 0xBF, 0⟩
  else if b = 0xED then .inr ⟨[b], 2, 0x80, 0x9F, 13⟩
  else if b < 0xF0 then .inr ⟨[b], 2, 0x80, 0xBF, b.toNat % 16⟩
  else if b = 0xF0 then .inr ⟨[b], 3, 0x90, 0xBF, 0⟩
  else if b < 0xF4 then .inr ⟨[b], 3, 0x80, 0xBF, b.toNat % 8⟩
  else if b = 0xF4 then .inr ⟨[b], 3, 0x80, 0x8F, 4⟩
  else .inl (.junk [b])

namespace Pending

/-- Whether a byte may come next. -/
def accepts (p : Pending) (b : UInt8) : Bool :=
  decide (p.low ≤ b) && decide (b ≤ p.high)

/-- The number after one more byte. -/
def codeAfter (p : Pending) (b : UInt8) : Nat :=
  p.code * 64 + b.toNat % 64

/-- The state after one more byte: the bounds beyond the second byte are the plain ones. -/
def after (p : Pending) (b : UInt8) : Pending :=
  ⟨p.read ++ [b], p.missing - 1, 0x80, 0xBF, p.codeAfter b⟩

end Pending

/-! ## 3. Reading -/

/-- Goes on after a byte that stands where a character should begin. -/
def startWith (b : UInt8) (next : Option Pending → List Piece) : List Piece :=
  match lead b with
  | .inl piece => piece :: next none
  | .inr p => next (some p)

/-- The pieces of a byte sequence, from a state in which a character may have begun. -/
def piecesFrom : Option Pending → Bytes → List Piece
  | none, [] => []
  | some p, [] => [.junk p.read]
  | none, b :: rest => startWith b fun state => piecesFrom state rest
  | some p, b :: rest =>
    if p.accepts b then
      if p.missing ≤ 1 then .char (Char.ofNat (p.codeAfter b)) :: piecesFrom none rest
      else piecesFrom (some (p.after b)) rest
    else .junk p.read :: startWith b fun state => piecesFrom state rest

/-- The characters and the malformed parts of a byte sequence, from left to right. -/
def pieces (bs : Bytes) : List Piece :=
  piecesFrom none bs

/-! ## 4. The two readings as text -/

/-- The character of a piece, if it is one. -/
def Piece.char? : Piece → Option Char
  | .char c => some c
  | .junk _ => none

/-- The character that stands for a malformed part when text is shown. -/
def replacement : Char := '\uFFFD'

/-- The text of a byte sequence; none when some part of it is malformed. -/
def decode (bs : Bytes) : Option String :=
  ((pieces bs).mapM Piece.char?).map String.ofList

/-- The text of a byte sequence for display: U+FFFD stands for each malformed part. -/
def decodeLossy (bs : Bytes) : String :=
  String.ofList ((pieces bs).map fun p => p.char?.getD replacement)

end Utf8
end EnumAssets
