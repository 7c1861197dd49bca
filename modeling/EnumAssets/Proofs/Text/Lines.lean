/-
# The lines of a text

A line ends with the line end behind it, so a text is its lines exactly if it ends with a line end
or is empty.  Lines that hold no line end are got back from the text they make up
(`linesOf_ofList`).
-/

namespace EnumAssets

/-- Pieces that hold no separator are got back by splitting at the separators between them. -/
theorem splitOn_flatMap {sep : Char} {last : List Char} (hlast : sep ∉ last) :
    ∀ {ws : List (List Char)}, (∀ w ∈ ws, sep ∉ w) →
      (ws.flatMap (· ++ [sep]) ++ last).splitOn sep = ws ++ [last]
  | [], _ => by simpa using List.splitOn_eq_singleton hlast
  | w :: ws, h => by
    have ih := splitOn_flatMap hlast fun v hv => h v (List.mem_cons_of_mem _ hv)
    rw [List.flatMap_cons, List.append_assoc, List.append_assoc, List.singleton_append,
      List.splitOn_append_cons_self_of_not_mem (h w List.mem_cons_self), ih, List.cons_append]

/-- The lines of a text, each without the line end behind it. -/
def linesOf (text : String) : List (List Char) :=
  (text.toList.splitOn '\n').dropLast

theorem linesOf_ofList {ls : List (List Char)} (h : ∀ l ∈ ls, '\n' ∉ l) :
    linesOf (String.ofList (ls.flatMap (· ++ ['\n']))) = ls := by
  have hsplit : (ls.flatMap (· ++ ['\n']) ++ []).splitOn '\n' = ls ++ [[]] :=
    splitOn_flatMap List.not_mem_nil h
  rw [List.append_nil] at hsplit
  rw [linesOf, String.toList_ofList, hsplit, List.dropLast_concat]

end EnumAssets
