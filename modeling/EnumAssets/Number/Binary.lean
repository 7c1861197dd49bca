/-
# Binary floating-point numbers

A binary format fixes how many significant binary digits a number has, how small the last of them
may be, and where infinity begins.  Its numbers are numbered in ascending order from zero on: the
code of a number is its place, and also its bit pattern without the sign.  `Format.round` finds the
code nearest to a fraction in exact arithmetic; of two equally near ones it takes the even code,
and beyond the largest number it is infinity.

Two formats are used: `Double` for the numbers of a document and `Single` for colour channels.
-/
namespace EnumAssets

/-! ## 1. Rounding to a format -/

/-- A binary format: the significant digits of a number, the negated exponent of the least positive
number, and the code of infinity. -/
structure Format where
  digits : Nat
  depth : Nat
  infinity : Nat
deriving DecidableEq, Repr

namespace Format

/-- The format of 64 bits. -/
def double : Format :=
  ⟨53, 1074, 0x7FF0000000000000⟩

/-- The format of 32 bits. -/
def single : Format :=
  ⟨24, 149, 0x7F800000⟩

/-- The integer nearest to a fraction, and of two the even one. -/
def nearest (num den : Nat) : Nat :=
  let whole := num / den
  let rest := 2 * (num % den)
  if den < rest || (rest == den && whole % 2 == 1) then whole + 1 else whole

/-- The exponent of the leading binary digit of a positive fraction. -/
def leading (num den : Nat) : Int :=
  let guess : Int := (num.log2 : Int) - (den.log2 : Int)
  let reached : Bool :=
    if 0 ≤ guess then decide (den * Nat.pow 2 guess.toNat ≤ num)
    else decide (den ≤ num * Nat.pow 2 (-guess).toNat)
  if reached then guess else guess - 1

/-- The code of the number nearest to a fraction with a positive denominator. -/
def round (f : Format) (num den : Nat) : Nat :=
  if num = 0 then 0
  else
    let last : Int := max (-(f.depth : Int)) (leading num den - ((f.digits : Int) - 1))
    let whole :=
      if 0 ≤ last then nearest num (den * Nat.pow 2 last.toNat)
      else nearest (num * Nat.pow 2 (-last).toNat) den
    min f.infinity ((last + f.depth).toNat * Nat.pow 2 (f.digits - 1) + whole)

end Format

/-! ## 2. Numbers of 64 and 32 bits -/

/-- A floating-point number of 64 bits. -/
structure Double where
  bits : UInt64
deriving DecidableEq, Repr

/-- A floating-point number of 32 bits. -/
structure Single where
  bits : UInt32
deriving DecidableEq, Repr

/-! ## 3. The long format -/

namespace Double

/-- The number with a sign and a code. -/
def ofCode (negative : Bool) (code : Nat) : Double :=
  ⟨UInt64.ofNat ((if negative then Nat.pow 2 63 else 0) + code)⟩

/-- Whether the sign is set. -/
def isNegative (x : Double) : Bool :=
  decide (Nat.pow 2 63 ≤ x.bits.toNat)

/-- The bit pattern without the sign. -/
def code (x : Double) : Nat :=
  x.bits.toNat % Nat.pow 2 63

/-- Infinity with a sign. -/
def infinity (negative : Bool) : Double :=
  ofCode negative Format.double.infinity

/-- The number that is none. -/
def nan : Double :=
  ofCode false (Format.double.infinity + Nat.pow 2 51)

/-- Whether the value is no number. -/
def isNaN (x : Double) : Bool :=
  decide (Format.double.infinity < x.code)

/-- The number nearest to a decimal, given by its digits and the exponent of the last of them.
Decimals far outside the range of the format are settled by their size alone. -/
def ofDecimal (negative : Bool) (digits : Nat) (exponent : Int) : Double :=
  let size : Int := (Nat.toDigits 10 digits).length + exponent
  let code :=
    if digits = 0 ∨ size < -400 then 0
    else if 400 < size then Format.double.infinity
    else if 0 ≤ exponent then Format.double.round (digits * Nat.pow 10 exponent.toNat) 1
    else Format.double.round digits (Nat.pow 10 (-exponent).toNat)
  ofCode negative code

end Double

/-! ## 4. The short format -/

namespace Single

/-- The number with a sign and a code. -/
def ofCode (negative : Bool) (code : Nat) : Single :=
  ⟨UInt32.ofNat ((if negative then Nat.pow 2 31 else 0) + code)⟩

/-- The bit pattern without the sign. -/
def code (x : Single) : Nat :=
  x.bits.toNat % Nat.pow 2 31

/-- Whether the value is no number. -/
def isNaN (x : Single) : Bool :=
  decide (Format.single.infinity < x.code)

/-- The number one. -/
def one : Single :=
  ⟨0x3F800000⟩

/-- The number nearest to an integer. -/
def ofInt (n : Int) : Single :=
  ofCode (decide (n < 0)) (Format.single.round n.natAbs 1)

/-- The number nearest to a longer one. -/
def ofDouble (x : Double) : Single :=
  let exponent := x.code / Nat.pow 2 52
  let fraction := x.code % Nat.pow 2 52
  let code :=
    if x.isNaN then Format.single.infinity + Nat.pow 2 22
    else if exponent = 0x7FF then Format.single.infinity
    else if exponent = 0 then Format.single.round fraction (Nat.pow 2 Format.double.depth)
    else
      Format.single.round ((Nat.pow 2 52 + fraction) * Nat.pow 2 (exponent - 1))
        (Nat.pow 2 Format.double.depth)
  ofCode x.isNegative code

end Single
end EnumAssets
