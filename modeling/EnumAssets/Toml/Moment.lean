/-
# Dates and times

A moment is a date, a time of day, or both, and with both an offset from universal time may be
given.  `Moment.ofText?` reads the spelling of a document; the parts have to be in range, so the
day has to exist in its month, and a second may be the sixtieth.  `Moment.text` writes it back: of
the fraction of a second only nine digits are kept, and zeros at its end are left out.
-/
namespace EnumAssets.Toml

/-! ## 1. Dates, times and offsets -/

/-- A day of the calendar. -/
structure Date where
  year : Nat
  month : Nat
  day : Nat
deriving DecidableEq, Repr

/-- A time of day, with the fraction of the second in billionths. -/
structure Time where
  hour : Nat
  minute : Nat
  second : Nat
  billionths : Nat
deriving DecidableEq, Repr

/-- The distance from universal time: none at all, or a number of minutes. -/
inductive Offset where
  | universal
  | minutes (m : Int)
deriving DecidableEq, Repr

/-- A date, a time of day, or both. -/
inductive Moment where
  | date (d : Date)
  | time (t : Time)
  | unzoned (d : Date) (t : Time)
  | zoned (d : Date) (t : Time) (o : Offset)
deriving DecidableEq, Repr

/-! ## 2. Reading -/

/-- The value of a decimal digit. -/
def digit? (c : Char) : Option Nat :=
  if '0' ≤ c ∧ c ≤ '9' then some (c.toNat - '0'.toNat) else none

/-- The number written by decimal digits. -/
def decimal? (cs : List Char) : Option Nat :=
  (cs.mapM digit?).map fun ds => ds.foldl (fun n d => n * 10 + d) 0

/-- A number of two digits that lies between two bounds. -/
def twoDigits? (low high : Nat) (a b : Char) : Option Nat :=
  (decimal? [a, b]).filter fun n => decide (low ≤ n) && decide (n ≤ high)

/-- Whether February has a twenty-ninth day. -/
def isLeapYear (year : Nat) : Bool :=
  year % 4 == 0 && (year % 100 != 0 || year % 400 == 0)

/-- The number of days of a month. -/
def daysOfMonth (year month : Nat) : Nat :=
  if month = 2 then (if isLeapYear year then 29 else 28)
  else if month = 4 ∨ month = 6 ∨ month = 9 ∨ month = 11 then 30
  else 31

/-- The date that begins a text, and what follows. -/
def Date.read : List Char → Option (Date × List Char)
  | y₁ :: y₂ :: y₃ :: y₄ :: '-' :: m₁ :: m₂ :: '-' :: d₁ :: d₂ :: rest => do
    let year ← decimal? [y₁, y₂, y₃, y₄]
    let month ← twoDigits? 1 12 m₁ m₂
    let day ← twoDigits? 1 (daysOfMonth year month) d₁ d₂
    return (⟨year, month, day⟩, rest)
  | _ => none

/-- The billionths that the digits behind the point of a second stand for. -/
def billionths? (ds : List Char) : Option Nat := do
  let kept := ds.take 9
  let n ← decimal? kept
  if ds.isEmpty then none else some (n * Nat.pow 10 (9 - kept.length))

/-- The time of day that begins a text, and what follows. -/
def Time.read : List Char → Option (Time × List Char)
  | h₁ :: h₂ :: ':' :: m₁ :: m₂ :: ':' :: s₁ :: s₂ :: rest => do
    let hour ← twoDigits? 0 23 h₁ h₂
    let minute ← twoDigits? 0 59 m₁ m₂
    let second ← twoDigits? 0 60 s₁ s₂
    match rest with
    | '.' :: more =>
      let ds := more.takeWhile fun c => (digit? c).isSome
      let part ← billionths? ds
      return (⟨hour, minute, second, part⟩, more.drop ds.length)
    | _ => return (⟨hour, minute, second, 0⟩, rest)
  | _ => none

/-- The offset that a whole text spells. -/
def Offset.ofText? : List Char → Option Offset
  | ['Z'] | ['z'] => some .universal
  | [sign, h₁, h₂, ':', m₁, m₂] => do
    let hour ← twoDigits? 0 23 h₁ h₂
    let minute ← twoDigits? 0 59 m₁ m₂
    let total : Int := (hour * 60 + minute : Nat)
    if sign = '+' then some (.minutes total)
    else if sign = '-' then some (.minutes (-total))
    else none
  | _ => none

/-- The moment that a whole text spells; `T` or `t` stands between date and time. -/
def Moment.ofText? (cs : List Char) : Option Moment :=
  match Date.read cs with
  | some (d, []) => some (.date d)
  | some (d, sep :: rest) =>
    if sep = 'T' ∨ sep = 't' then
      match Time.read rest with
      | some (t, []) => some (.unzoned d t)
      | some (t, offset) => (Offset.ofText? offset).map (.zoned d t)
      | none => none
    else none
  | none =>
    match Time.read cs with
    | some (t, []) => some (.time t)
    | _ => none

/-! ## 3. Writing -/

/-- The decimal digits of a number, with zeros in front up to a width. -/
def padded (width n : Nat) : List Char :=
  let ds := Nat.toDigits 10 n
  List.replicate (width - ds.length) '0' ++ ds

/-- A date as it is written. -/
def Date.text (d : Date) : List Char :=
  padded 4 d.year ++ ['-'] ++ padded 2 d.month ++ ['-'] ++ padded 2 d.day

/-- A time of day as it is written. -/
def Time.text (t : Time) : List Char :=
  let whole := padded 2 t.hour ++ [':'] ++ padded 2 t.minute ++ [':'] ++ padded 2 t.second
  if t.billionths = 0 then whole
  else whole ++ ['.'] ++ ((padded 9 t.billionths).reverse.dropWhile (· == '0')).reverse

/-- An offset as it is written. -/
def Offset.text : Offset → List Char
  | .universal => ['Z']
  | .minutes m =>
    [if m < 0 then '-' else '+'] ++ padded 2 (m.natAbs / 60) ++ [':'] ++ padded 2 (m.natAbs % 60)

/-- A moment as it is written. -/
def Moment.text : Moment → String
  | .date d => String.ofList d.text
  | .time t => String.ofList t.text
  | .unzoned d t => String.ofList (d.text ++ ['T'] ++ t.text)
  | .zoned d t o => String.ofList (d.text ++ ['T'] ++ t.text ++ o.text)

end EnumAssets.Toml
