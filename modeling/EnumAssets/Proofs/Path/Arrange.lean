/-
# Arranged paths

Arranging paths sorts them and then keeps one of neighbours with the same components.  Sorting is
stable, so paths with the same components stay in the order in which the list has them
(`filter_sort`), and since the sorted list has them beside one another, exactly the first of them is
kept (`mem_arrange_iff`).

So arranged paths ascend and are known by what they hold; two ascending lists that hold paths with
the same components agree place by place (`Ascending.forall₂_same`).
-/
import EnumAssets.Proofs.Path.Order
import Mathlib.Data.List.Forall2

namespace EnumAssets.Path

variable {p q r : Path} {ps qs : List Path}

/-! ## 1. The same components -/

theorem same_refl (p : Path) : p.same p = true :=
  BEq.rfl

theorem same_comm (p q : Path) : p.same q = q.same p := by
  rw [Bool.eq_iff_iff, same_iff_key, same_iff_key]
  exact eq_comm

theorem same_trans (h : p.same q = true) (h' : q.same r = true) : p.same r = true := by
  rw [same_iff_key] at h h' ⊢
  exact h.trans h'

/-- Paths with the same components are the same to every other path. -/
theorem same_congr (h : p.same q = true) (r : Path) : p.same r = q.same r := by
  rw [Bool.eq_iff_iff]
  exact ⟨same_trans (same_comm p q ▸ h), same_trans h⟩

theorem Precedes.same_eq_false (h : p.Precedes q) : p.same q = false := by
  rw [← Bool.not_eq_true, same_iff_key]
  exact ne_of_lt h

theorem le_of_same (h : p.same q = true) : p.le q = true := by
  rw [same_iff_key] at h
  rw [le_iff, h]

/-! ## 2. Sorting is stable -/

/-- **Paths with the same components keep their order** when the list is sorted. -/
theorem filter_sort (ps : List Path) (q : Path) :
    (sort ps).filter (fun p => p.same q) = ps.filter fun p => p.same q := by
  have hsorted : (ps.filter fun p => p.same q).Pairwise fun a b => a.le b = true := by
    refine List.pairwise_of_forall_mem_list fun a ha b hb => le_of_same ?_
    exact same_trans (List.mem_filter.mp ha).2 (same_comm b q ▸ (List.mem_filter.mp hb).2)
  have hsub : (ps.filter fun p => p.same q).Sublist (sort ps) :=
    @List.sublist_mergeSort Path le ps (fun _ _ _ => le_trans) le_total _ hsorted
      List.filter_sublist
  have hkept := hsub.filter fun p => p.same q
  rw [List.filter_filter, List.filter_congr fun p _ => Bool.and_self (p.same q)] at hkept
  exact (hkept.eq_of_length ((List.mergeSort_perm ps le).filter _).length_eq.symm).symm

theorem find?_sort (ps : List Path) (q : Path) :
    ((sort ps).find? fun p => p.same q) = ps.find? fun p => p.same q := by
  rw [← List.head?_filter, filter_sort, List.head?_filter]

/-! ## 3. The paths that are kept -/

/-- Of a sorted list the paths are kept that are the first ones with their components. -/
theorem mem_dropRepeats_iff (h : ps.Pairwise fun p q => p.le q = true) :
    q ∈ dropRepeats ps ↔ (ps.find? fun p => p.same q) = some q := by
  fun_induction dropRepeats ps with
  | case1 =>
    rw [List.find?_nil]
    exact iff_of_false List.not_mem_nil (Option.some_ne_none q).symm
  | case2 p =>
    rw [List.mem_singleton, List.find?_singleton]
    constructor
    · rintro rfl
      rw [if_pos (same_refl q)]
    · intro hfirst
      split at hfirst
      · exact (Option.some.inj hfirst).symm
      · cases hfirst
  | case3 p p' rest hsame ih =>
    have hrest := h.sublist (List.Sublist.cons_cons p (List.sublist_cons_self p' rest))
    rw [ih hrest, List.find?_cons, List.find?_cons, List.find?_cons, same_congr hsame]
    cases p'.same q <;> rfl
  | case4 p p' rest hsame ih =>
    have hlater : ∀ r ∈ p' :: rest, p.Precedes r := fun r =>
      precedes_of_mem_tail h (Bool.eq_false_iff.mpr hsame)
    rw [List.mem_cons, List.find?_cons, ih (List.pairwise_cons.mp h).2]
    cases hpq : p.same q with
    | false =>
      refine or_iff_right ?_
      rintro rfl
      rw [same_refl] at hpq
      cases hpq
    | true =>
      -- nothing behind `p` has its components, so nothing behind it is kept for `q`
      rw [or_iff_left fun hfound => by
        have hmem := hlater q (List.mem_of_find?_eq_some hfound)
        rw [hmem.same_eq_false] at hpq
        cases hpq]
      exact ⟨fun heq => congrArg some heq.symm, fun heq => (Option.some.inj heq).symm⟩

/-- **Arranged paths** are those that come first in the list among the paths with their
components. -/
theorem mem_arrange_iff : q ∈ arrange ps ↔ (ps.find? fun p => p.same q) = some q := by
  rw [arrange, mem_dropRepeats_iff (pairwise_sort ps), find?_sort]

/-- Arranging keeps the components of each path. -/
theorem exists_mem_arrange_iff :
    (∃ q ∈ arrange ps, p.same q = true) ↔ ∃ q ∈ ps, p.same q = true := by
  constructor
  · rintro ⟨q, hq, hpq⟩
    exact ⟨q, List.mem_of_find?_eq_some (mem_arrange_iff.mp hq), hpq⟩
  · rintro ⟨q, hq, hpq⟩
    rw [same_comm] at hpq
    obtain ⟨r, hr⟩ := Option.isSome_iff_exists.mp
      ((List.find?_isSome (p := fun a : Path => a.same p)).mpr ⟨q, hq, hpq⟩)
    have hrp : r.same p = true := List.find?_some (p := fun a : Path => a.same p) hr
    refine ⟨r, mem_arrange_iff.mpr ?_, same_comm r p ▸ hrp⟩
    rw [← hr]
    refine congrArg (List.find? · ps) (funext fun a => ?_)
    rw [same_comm a r, same_comm a p, same_congr hrp]

/-! ## 4. Ascending lists -/

theorem Ascending.pairwise_keys (h : Ascending ps) : (ps.map key).Pairwise (· < ·) :=
  List.pairwise_map.mpr h

theorem Ascending.nodup_keys (h : Ascending ps) : (ps.map key).Nodup :=
  h.pairwise_keys.imp ne_of_lt

/-- **Two ascending lists agree place by place** if they hold paths with the same components. -/
theorem Ascending.forall₂_same (h : Ascending ps) (h' : Ascending qs)
    (hsame : ∀ p : Path, (∃ q ∈ ps, p.same q = true) ↔ ∃ q ∈ qs, p.same q = true) :
    List.Forall₂ (fun p q => p.same q = true) ps qs := by
  have hincl : ∀ {as bs : List Path},
      (∀ p : Path, (∃ q ∈ as, p.same q = true) → ∃ q ∈ bs, p.same q = true) →
        as.map key ⊆ bs.map key := by
    intro as bs hall k hk
    obtain ⟨a, ha, rfl⟩ := List.mem_map.mp hk
    obtain ⟨b, hb, hab⟩ := hall a ⟨a, ha, same_refl a⟩
    exact List.mem_map.mpr ⟨b, hb, (same_iff_key.mp hab).symm⟩
  have hperm : (ps.map key).Perm (qs.map key) :=
    (List.perm_ext_iff_of_nodup h.nodup_keys h'.nodup_keys).mpr fun k =>
      ⟨fun hk => hincl (fun p => (hsame p).mp) hk, fun hk => hincl (fun p => (hsame p).mpr) hk⟩
  have hkeys : ps.map key = qs.map key :=
    hperm.eq_of_pairwise (fun a b _ _ hab hba => absurd hab (lt_asymm hba)) h.pairwise_keys
      h'.pairwise_keys
  have hall : List.Forall₂ (fun p q : Path => p.key = q.key) ps qs := by
    rw [← List.forall₂_eq_eq_eq, List.forall₂_map_left_iff, List.forall₂_map_right_iff] at hkeys
    exact hkeys
  exact hall.imp fun p q => same_iff_key.mpr

end EnumAssets.Path
