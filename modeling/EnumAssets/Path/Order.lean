/-
# The order of paths

Paths are compared by their components, one after the other, and not as whole texts: the root comes
first, then a leading dot, then `..`, then the names by their bytes.  So `a/z` comes before
`a-b/y`, and two spellings of the same components are equal in this order.

The order is that of a key, a list of lists of numbers, so its laws are those of lists.
-/
import EnumAssets.Path.Basic

namespace EnumAssets.Path

/-! ## 1. The key of a path -/

/-- The place of a component among the components. -/
def Component.key : Component → List Nat
  | .root => [0]
  | .here => [1]
  | .up => [2]
  | .name n => 3 :: n.map UInt8.toNat

/-- The place of a path among the paths. -/
def key (p : Path) : List (List Nat) :=
  p.components.map Component.key

/-- Whether a list of numbers comes before another one, as in a dictionary. -/
def before (a b : List Nat) : Bool :=
  a.lex b fun m n => decide (m < n)

/-- Whether one path is not behind the other. -/
def le (p q : Path) : Bool :=
  !q.key.lex p.key before

/-- Whether two paths have the same components. -/
def same (p q : Path) : Bool :=
  p.components == q.components

/-! ## 2. Sorted paths -/

/-- The paths in ascending order; paths with the same components keep their order. -/
def sort (ps : List Path) : List Path :=
  ps.mergeSort le

/-- Of neighbours with the same components only the first is kept. -/
def dropRepeats : List Path → List Path
  | [] => []
  | [p] => [p]
  | p :: q :: rest =>
    if p.same q then dropRepeats (p :: rest) else p :: dropRepeats (q :: rest)
termination_by ps => ps.length

/-- The paths in strictly ascending order, each in the spelling that comes first in the list. -/
def arrange (ps : List Path) : List Path :=
  dropRepeats (sort ps)

/-! ## 3. The key is faithful -/

theorem Component.key_injective {a b : Component} (h : a.key = b.key) : a = b := by
  cases a <;> cases b <;> simp_all [Component.key]
  exact (List.map_inj_right fun _ _ => UInt8.toNat_inj.1).1 h

theorem same_iff_key {p q : Path} : p.same q = true ↔ p.key = q.key := by
  simp only [same, beq_iff_eq, key]
  exact ⟨fun h => by rw [h], (List.map_inj_right fun _ _ => Component.key_injective).1⟩

end EnumAssets.Path
