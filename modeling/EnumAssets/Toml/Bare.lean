/-
# Values without quotes or brackets

Truth values, numbers and moments are written without any mark around them.  `ofBare?` reads a
whole stretch of such characters.  Underscores may stand between two digits of a number and mean
nothing.  Integers fit into 64 bits with a sign; a float that is too large is refused when it is
positive and read as infinity when it is negative.
-/
import EnumAssets.Toml.Value
import EnumAssets.Toml.Quote

namespace EnumAssets.Toml

/-! ## 1. Digits and signs -/

/-- The characters of values without quotes or brackets. -/
def isBare (c : Char) : Bool :=
  c.isAlphanum || c == '+' || c == '-' || c == '_' || c == '.' || c == ':'

/-- Digits with single underscores between them, without the underscores. -/
def plainDigits? (isDigit : Char → Bool) : List Char → Option (List Char)
  | [] => none
  | [c] => if isDigit c then some [c] else none
  | c :: '_' :: rest =>
    if isDigit c then (plainDigits? isDigit rest).map (c :: ·) else none
  | c :: rest => if isDigit c then (plainDigits? isDigit rest).map (c :: ·) else none

/-- A sign in front of a number, if there is one, and the rest; true stands for minus. -/
def splitSign : List Char → Option Bool × List Char
  | '+' :: rest => (some false, rest)
  | '-' :: rest => (some true, rest)
  | cs => (none, cs)

/-- The digits of a whole decimal number; only zero itself begins with a zero. -/
def wholeDigits? (cs : List Char) : Option (List Char) :=
  match cs with
  | '0' :: _ :: _ => none
  | _ => plainDigits? Char.isDigit cs

/-- The number that digits write in a base. -/
def ofDigits (base : Nat) (ds : List Char) : Nat :=
  ds.foldl (fun n c => n * base + (hexDigit? c).getD 0) 0

/-! ## 2. Integers -/

/-- An integer, if it fits into 64 bits with a sign. -/
def integer? (negative : Bool) (n : Nat) : Option Value :=
  if negative then
    if n ≤ Nat.pow 2 63 then some (.integer (-(n : Int))) else none
  else if n < Nat.pow 2 63 then some (.integer n) else none

/-- An integer whose base stands in front of it. -/
def based? (base : Nat) (cs : List Char) : Option Value := do
  let isDigit (c : Char) := (hexDigit? c).any fun d => decide (d < base)
  integer? false (ofDigits base (← plainDigits? isDigit cs))

/-! ## 3. Floats -/

/-- The exponent of a float, behind its `e`. -/
def exponent? (cs : List Char) : Option Int := do
  let (sign, ds) := splitSign cs
  let n := ofDigits 10 (← plainDigits? Char.isDigit ds)
  return if sign = some true then -(n : Int) else (n : Int)

/-- A float with a finite spelling. -/
def finite? (negative : Bool) (digits : Nat) (exponent : Int) : Option Value :=
  let x := Double.ofDecimal negative digits exponent
  if x = Double.infinity false then none else some (.float x)

/-- A float, from the text behind its sign. -/
def float? (negative : Bool) (cs : List Char) : Option Value := do
  let mantissa := cs.takeWhile fun c => c != 'e' && c != 'E'
  let exponent ←
    match cs.drop mantissa.length with
    | [] => some 0
    | _ :: more => exponent? more
  let whole := mantissa.takeWhile (· != '.')
  let wholeDs ← wholeDigits? whole
  match mantissa.drop whole.length with
  | [] => finite? negative (ofDigits 10 wholeDs) exponent
  | _ :: fraction =>
    let fractionDs ← plainDigits? Char.isDigit fraction
    finite? negative (ofDigits 10 (wholeDs ++ fractionDs)) (exponent - fractionDs.length)

/-! ## 4. Any bare value -/

/-- A number that a whole text spells. -/
def number? (cs : List Char) : Option Value :=
  match cs with
  | '0' :: 'x' :: ds => based? 16 ds
  | '0' :: 'o' :: ds => based? 8 ds
  | '0' :: 'b' :: ds => based? 2 ds
  | _ =>
    let (sign, rest) := splitSign cs
    let negative := sign == some true
    if rest = ['i', 'n', 'f'] then some (.float (Double.infinity negative))
    else if rest = ['n', 'a', 'n'] then some (.float Double.nan)
    else
      match wholeDigits? rest with
      | some ds => integer? negative (ofDigits 10 ds)
      | none => float? negative rest

/-- The value that a whole text without quotes or brackets spells. -/
def ofBare? (cs : List Char) : Option Value :=
  if cs = ['t', 'r', 'u', 'e'] then some (.boolean true)
  else if cs = ['f', 'a', 'l', 's', 'e'] then some (.boolean false)
  else
    match Moment.ofText? cs with
    | some m => some (.moment m)
    | none => number? cs

/-- The value without quotes or brackets that begins a text, and what follows.  One space may stand
between a date and a time of day. -/
def readBare (cs : List Char) : Option (Value × List Char) :=
  let word := cs.takeWhile isBare
  let rest := cs.drop word.length
  match Moment.ofText? word, rest with
  | some (.date _), ' ' :: c :: more =>
    if c.isDigit then
      let clock := (c :: more).takeWhile isBare
      (Moment.ofText? (word ++ 'T' :: clock)).map fun m =>
        (.moment m, (c :: more).drop clock.length)
    else (ofBare? word).map fun v => (v, rest)
  | _, _ => (ofBare? word).map fun v => (v, rest)

end EnumAssets.Toml
