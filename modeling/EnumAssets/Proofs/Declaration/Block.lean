/-
# The lines of a declaration are a block

The lines are written from the top, with one count of the depth.  The openings make it grow, the
values leave it as it is, and the closings are counted down from where it got to
(`lines_eq_by_depth`).

For a proof about scopes it is better to see each scope whole: its opening, what is inside of it one
tab deeper, and its closing.  `block` is this reading, a recursion on the openings, and
`lines_eq_block` proves that both give the same lines.  It is enough that a block, too, can be read
by depth (`block_eq_by_depth`).
-/
import EnumAssets.Declaration.Code
import Mathlib.Data.List.Basic

namespace EnumAssets.Declaration

variable {α : Type}

/-! ## 1. What is written -/

namespace Draft

/-- Openings are written one tab deeper each. -/
theorem foldl_enter : ∀ (os : List Opening) (w : Draft), os.foldl enter w =
    ⟨w.lines ++ os.mapIdx fun i o => indented (w.depth + i) (o ++ ['\x7b']), w.depth + os.length⟩
  | [], w => by simp
  | o :: os, w => by
    have hdeeper : ∀ i, w.depth + 1 + i = w.depth + (i + 1) := fun i => by omega
    rw [List.foldl_cons, foldl_enter os, List.mapIdx_cons, List.length_cons]
    simp [enter, line, hdeeper]

/-- Lines are written at the depth that has been reached. -/
theorem foldl_line : ∀ (ls : List (List Char)) (w : Draft),
    ls.foldl line w = { w with lines := w.lines ++ ls.map (indented w.depth) }
  | [], w => by simp
  | l :: ls, w => by
    rw [List.foldl_cons, foldl_line ls]
    simp [line]

end Draft

/-- **The lines by depth**: the openings go in, and the closings come out again in reverse order. -/
theorem lines_eq_by_depth [Named α] (d : Declaration α) :
    d.lines = (d.openings.mapIdx fun i o => indented i (o ++ ['\x7b'])) ++
      (valueLines d.names).map (indented d.openings.length) ++
      (List.range d.openings.length).reverse.map fun i => indented i ['\x7d'] := by
  rw [lines, Draft.foldl_enter, Draft.foldl_line, Draft.close]
  simp

/-! ## 2. Blocks -/

/-- The lines of scopes around a body, from a depth on. -/
def block (depth : Nat) (body : List (List Char)) : List Opening → List (List Char)
  | [] => body.map (indented depth)
  | opening :: inner =>
    indented depth (opening ++ ['\x7b']) :: block (depth + 1) body inner ++
      [indented depth ['\x7d']]

/-- **A block by depth.** -/
theorem block_eq_by_depth (body : List (List Char)) : ∀ (os : List Opening) (depth : Nat),
    block depth body os =
      (os.mapIdx fun i o => indented (depth + i) (o ++ ['\x7b'])) ++
        body.map (indented (depth + os.length)) ++
        (List.range os.length).reverse.map fun i => indented (depth + i) ['\x7d']
  | [], depth => by simp [block]
  | o :: os, depth => by
    have hdeeper : ∀ i, depth + 1 + i = depth + (i + 1) := fun i => by omega
    rw [block, block_eq_by_depth body os (depth + 1), List.mapIdx_cons, List.length_cons,
      List.range_succ_eq_map, List.reverse_cons, List.map_append]
    simp [hdeeper, List.map_reverse, Function.comp_def]

/-- **The lines of a declaration are a block**, with the values as its body. -/
theorem lines_eq_block [Named α] (d : Declaration α) :
    d.lines = block 0 (valueLines d.names) d.openings := by
  rw [lines_eq_by_depth, block_eq_by_depth]
  simp

end EnumAssets.Declaration
