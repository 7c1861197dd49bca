/-
# Sets of characters

A property of characters, such as "letter" or "white space", is data: the ranges of code points
that have it.  A `CharSet` is such a list of ranges, and membership asks whether some range holds
the code point.  The order of the ranges is of no consequence.
-/
namespace EnumAssets

/-- A set of characters, given by ranges of code points; both ends of a range belong to it. -/
structure CharSet where
  ranges : List (Nat × Nat)
deriving DecidableEq, Repr

namespace CharSet

/-- Whether a code point lies in one of the ranges. -/
def hasCode (s : CharSet) (n : Nat) : Bool :=
  s.ranges.any fun r => decide (r.1 ≤ n) && decide (n ≤ r.2)

/-- Whether a character lies in one of the ranges. -/
def has (s : CharSet) (c : Char) : Bool :=
  s.hasCode c.toNat

theorem hasCode_iff {s : CharSet} {n : Nat} :
    s.hasCode n = true ↔ ∃ r ∈ s.ranges, r.1 ≤ n ∧ n ≤ r.2 := by
  simp [hasCode]

theorem has_iff {s : CharSet} {c : Char} :
    s.has c = true ↔ ∃ r ∈ s.ranges, r.1 ≤ c.toNat ∧ c.toNat ≤ r.2 :=
  hasCode_iff

end CharSet
end EnumAssets
