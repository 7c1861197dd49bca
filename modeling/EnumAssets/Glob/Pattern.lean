/-
# Glob patterns

A pattern is a path whose segments may hold wildcards: `?` is any character, `*` any run of
characters, and brackets hold a set of characters, with ranges, that a character has to be in or,
after an exclamation mark, out of.  A segment of exactly two stars is any number of directories.
More than two stars, two stars beside anything else, and brackets that are empty or not closed are
no pattern.

A pattern is checked as a whole first and segment by segment afterwards, so a set must not reach
across a slash.
-/
import EnumAssets.Path.Basic

namespace EnumAssets.Glob

/-! ## 1. Tokens -/

/-- A part of a set: one character, or all from one to another. -/
inductive Member where
  | one (c : Char)
  | range (first last : Char)
deriving DecidableEq, Repr

/-- A piece of a pattern. -/
inductive Token where
  | char (c : Char)
  | anyChar
  | anyRun
  | anyDirectories
  | inside (members : List Member)
  | outside (members : List Member)
deriving DecidableEq, Repr

/-- Whether a part of a set holds a character. -/
def Member.holds (c : Char) : Member → Bool
  | .one x => x == c
  | .range first last => decide (first ≤ c) && decide (c ≤ last)

/-- The parts of a set: three characters with a hyphen in the middle are a range. -/
def members : List Char → List Member
  | a :: '-' :: b :: rest => .range a b :: members rest
  | a :: rest => .one a :: members rest
  | [] => []

/-- The members of a set up to its closing bracket, and what follows; the first character of the set
is given, so it may be a bracket itself. -/
def closeSet? (first : Char) (rest : List Char) : Option (List Member × List Char) :=
  let inner := rest.takeWhile (· != ']')
  match rest.drop inner.length with
  | _ :: after => some (members (first :: inner), after)
  | [] => none

theorem closeSet?_length {first : Char} {rest after : List Char} {ms : List Member}
    (h : closeSet? first rest = some (ms, after)) : after.length < rest.length := by
  simp only [closeSet?] at h
  split at h
  · next x more hd =>
    cases h
    have := congrArg List.length hd
    simp only [List.length_drop, List.length_cons] at this
    omega
  · cases h

/-- The pieces of a pattern; none when it is no pattern.  `atStart` says that a segment begins. -/
def tokens? (atStart : Bool) : List Char → Option (List Token)
  | [] => some []
  | '?' :: rest => (tokens? false rest).map (.anyChar :: ·)
  | '*' :: '*' :: '*' :: _ => none
  | ['*', '*'] => if atStart then some [.anyDirectories] else none
  | '*' :: '*' :: '/' :: rest =>
    if atStart then (tokens? true rest).map (.anyDirectories :: ·) else none
  | '*' :: '*' :: _ => none
  | '*' :: rest => (tokens? false rest).map (.anyRun :: ·)
  | '[' :: '!' :: c :: rest =>
    match _h : closeSet? c rest with
    | some (ms, after) => (tokens? false after).map (.outside ms :: ·)
    | none => none
  | ['[', '!'] => none
  | '[' :: c :: rest =>
    match _h : closeSet? c rest with
    | some (ms, after) => (tokens? false after).map (.inside ms :: ·)
    | none => none
  | ['['] => none
  | c :: rest => (tokens? (c == '/') rest).map (.char c :: ·)
termination_by cs => cs.length
decreasing_by
  all_goals simp_wf
  all_goals try have := closeSet?_length _h
  all_goals omega

/-! ## 2. Names that fit -/

/-- Whether a token that stands for one character stands for this one. -/
def Token.admits (c : Char) : Token → Bool
  | .char x => x == c
  | .anyChar => true
  | .inside ms => ms.any (·.holds c)
  | .outside ms => !ms.any (·.holds c)
  | .anyRun | .anyDirectories => false

/-- Whether a whole name fits the tokens of a segment. -/
def fits : List Token → List Char → Bool
  | [], cs => cs.isEmpty
  | .anyRun :: ts, [] => fits ts []
  | .anyRun :: ts, c :: cs => fits ts (c :: cs) || fits (.anyRun :: ts) cs
  | _ :: _, [] => false
  | t :: ts, c :: cs => t.admits c && fits ts cs
termination_by ts cs => ts.length + cs.length

/-! ## 3. Segments -/

/-- A segment of a pattern: plain text, any number of directories, or a shape of names. -/
inductive Segment where
  | text (name : List Char)
  | directories
  | shape (tokens : List Token)
deriving DecidableEq, Repr

/-- The character of a token that stands for itself. -/
def Token.char? : Token → Option Char
  | .char c => some c
  | _ => none

/-- The segment of tokens. -/
def Segment.ofTokens (ts : List Token) : Segment :=
  if ts = [.anyDirectories] then .directories
  else
    match ts.mapM Token.char? with
    | some cs => .text cs
    | none => .shape ts

/-- The tokens of a segment; those of plain text stand for themselves. -/
def Segment.tokens : Segment → List Token
  | .text cs => cs.map .char
  | .directories => [.anyDirectories]
  | .shape ts => ts

/-- Whether a segment begins with a literal dot. -/
def Segment.startsWithDot (s : Segment) : Bool :=
  s.tokens.head? == some (.char '.')

/-! ## 4. Patterns -/

/-- A pattern: whether it begins at the root, its segments, and whether it asks for directories. -/
structure Pattern where
  absolute : Bool
  segments : List Segment
  directoriesOnly : Bool
deriving DecidableEq, Repr

/-- The stretches between the slashes; what follows a slash at the very end is none. -/
def stretches (cs : List Char) : List (List Char) :=
  let parts := cs.splitOn '/'
  if parts.getLast? = some [] then parts.dropLast else parts

/-- The segments, any number of directories at most once in a row: twice means the same. -/
def collapse : List Segment → List Segment
  | .directories :: .directories :: rest => collapse (.directories :: rest)
  | seg :: rest => seg :: collapse rest
  | [] => []

/-- The pattern that a text spells; none when the text is no pattern. -/
def Pattern.ofText? (text : String) : Option Pattern := do
  let cs := text.toList
  let _ ← tokens? true cs
  let absolute := cs.head? == some '/'
  let relative := if absolute then cs.drop 1 else cs
  let segments ← (stretches relative).mapM fun part => (tokens? true part).map Segment.ofTokens
  return {
    absolute
    segments := if relative.isEmpty then [.text []] else collapse segments
    directoriesOnly := cs.getLast? == some '/' }

end EnumAssets.Glob
