/-
# Ascending paths

The order of paths is that of their keys, which are lists of lists of numbers, so it is total and
transitive (`le_total`, `le_trans`), and only paths with the same components are not told apart by
it (`key_eq_of_le_of_le`).  Sorting therefore leaves no path behind a greater one, and once
neighbours with the same components are dropped every path comes strictly before all that follow it
(`ascending_arrange`).
-/
import EnumAssets.Path.Order
import Mathlib.Data.List.Lex

namespace EnumAssets.Path

variable {p q r : Path}

/-! ## 1. The order of keys -/

/-- Whether a path comes strictly before another one. -/
def Precedes (p q : Path) : Prop :=
  p.key < q.key

theorem before_iff {a b : List Nat} : before a b = true ↔ a < b :=
  List.lex_eq_true_iff_lt

/-- One path is not behind another one if its key is not greater. -/
theorem le_iff : p.le q = true ↔ p.key ≤ q.key := by
  have hbefore : before = fun a b => decide (a < b) := by
    funext a b
    rw [Bool.eq_iff_iff, before_iff, decide_eq_true_iff]
  rw [le, hbefore, Bool.not_eq_true', ← not_lt, ← Bool.not_eq_true]
  exact not_congr List.lex_eq_true_iff_lt

theorem le_trans (h : p.le q = true) (h' : q.le r = true) : p.le r = true := by
  rw [le_iff] at h h' ⊢
  exact h.trans h'

theorem le_total (p q : Path) : (p.le q || q.le p) = true := by
  rw [Bool.or_eq_true, le_iff, le_iff]
  exact Std.le_total

theorem precedes_iff : p.Precedes q ↔ q.le p = false := by
  rw [← Bool.not_eq_true, le_iff, Precedes]
  exact not_le.symm

/-- Paths that are not behind one another have the same components. -/
theorem key_eq_of_le_of_le (h : p.le q = true) (h' : q.le p = true) : p.key = q.key := by
  rw [le_iff] at h h'
  exact le_antisymm h h'

/-- A path that is not behind one with other components comes before it. -/
theorem precedes_of_le_of_not_same (h : p.le q = true) (hsame : p.same q = false) :
    p.Precedes q := by
  rw [precedes_iff, ← Bool.not_eq_true]
  intro h'
  rw [same_iff_key.mpr (key_eq_of_le_of_le h h')] at hsame
  cases hsame

theorem Precedes.trans_le (h : p.Precedes q) (h' : q.le r = true) : p.Precedes r := by
  rw [precedes_iff, ← Bool.not_eq_true] at h ⊢
  exact fun hback => h (le_trans h' hback)

/-! ## 2. Sorted paths -/

/-- Paths of which every one comes strictly before all that follow it. -/
def Ascending (ps : List Path) : Prop :=
  ps.Pairwise Precedes

theorem pairwise_sort (ps : List Path) : (sort ps).Pairwise fun p q => p.le q = true :=
  @List.pairwise_mergeSort Path le (fun _ _ _ => le_trans) le_total ps

theorem dropRepeats_sublist (ps : List Path) : (dropRepeats ps).Sublist ps := by
  fun_induction dropRepeats ps with
  | case1 => exact List.Sublist.refl _
  | case2 p => exact List.Sublist.refl _
  | case3 p q rest hsame ih =>
    exact ih.trans (List.Sublist.cons_cons p (List.sublist_cons_self q rest))
  | case4 p q rest hsame ih => exact ih.cons_cons p

/-- A path that differs from its neighbour in a sorted list comes before all that follow it. -/
theorem precedes_of_mem_tail {rest : List Path}
    (h : (p :: q :: rest).Pairwise fun p q => p.le q = true)
    (hsame : p.same q = false) (hr : r ∈ q :: rest) : p.Precedes r := by
  obtain ⟨hfirst, hrest⟩ := List.pairwise_cons.mp h
  have hpq : p.Precedes q := precedes_of_le_of_not_same (hfirst q List.mem_cons_self) hsame
  rcases List.mem_cons.mp hr with rfl | hmem
  · exact hpq
  · exact hpq.trans_le ((List.pairwise_cons.mp hrest).1 r hmem)

/-- **Sorted paths without repeats** ascend. -/
theorem ascending_dropRepeats {ps : List Path} (h : ps.Pairwise fun p q => p.le q = true) :
    Ascending (dropRepeats ps) := by
  fun_induction dropRepeats ps with
  | case1 => exact List.Pairwise.nil
  | case2 p => exact List.pairwise_singleton _ _
  | case3 p q rest hsame ih =>
    exact ih (h.sublist (List.Sublist.cons_cons p (List.sublist_cons_self q rest)))
  | case4 p q rest hsame ih =>
    -- all that is kept behind `p` is `q` or behind `q`
    exact List.pairwise_cons.mpr ⟨fun r hr => precedes_of_mem_tail h (Bool.eq_false_iff.mpr hsame)
      ((dropRepeats_sublist (q :: rest)).subset hr), ih (List.pairwise_cons.mp h).2⟩

theorem ascending_arrange (ps : List Path) : Ascending (arrange ps) :=
  ascending_dropRepeats (pairwise_sort ps)

end EnumAssets.Path
