/-
# Values in another order, and fewer of them

The checks of the names walk along the positions, and their finds name positions.  How many defects
of each sort there are does not depend on them: an invalid name counts once wherever it stands, and
of a name that occurs `m` times every two occurrences are a pair, which are `m(m-1)/2`
(`countLike_duplicate`).  So values in another order have a report of another wording and the same
counts (`countLike_eq_of_perm`), and they are accepted or refused together.

A declaration that is accepted stays so when values are left out, as long as one remains: the names
that are left are among the names before, and no two of them are equal
(`defects_eq_nil_of_subperm`).
-/
import EnumAssets.Proofs.Declaration.Editing
import Mathlib.Algebra.BigOperators.Group.Finset.Piecewise
import Mathlib.Data.Nat.Choose.Basic

namespace EnumAssets.Declaration

/-! ## 1. The finds of a check, counted -/

theorem length_report (b : Bool) (x : Defect) : (report b x).length = if b then 1 else 0 := by
  cases b <;> rfl

theorem length_invalidNames : ∀ (ns : List String) (k : Nat),
    (invalidNames k ns).length = ns.countP fun n => !Identifier.isIdentifier n
  | [], _ => rfl
  | n :: rest, k => by
    rw [invalidNames, List.length_append, length_report, length_invalidNames rest, List.countP_cons,
      Nat.add_comm]

/-- Each later position of a name is found once. -/
theorem length_repeatsOf (first : Nat) (n : String) : ∀ (ms : List String) (k : Nat),
    (repeatsOf first n k ms).length = ms.count n
  | [], _ => rfl
  | m :: rest, k => by
    rw [repeatsOf, List.length_append, length_report, length_repeatsOf first n rest,
      List.count_cons,
      Nat.add_comm, Bool.beq_comm]

/-- One more name makes a pair with each of its later occurrences, and with nothing else. -/
theorem choose_count_cons (n m : String) (rest : List String) :
    ((n :: rest).count m).choose 2 =
      (if n = m then rest.count m else 0) + (rest.count m).choose 2 := by
  rw [List.count_cons]
  by_cases h : n = m
  · simp [h, Nat.choose_succ_succ']
  · simp [h]

/-- **The pairs of equal names**, counted by names.  The induction takes the names from the front,
and the sum is over any set that has them all, so that it stays the same. -/
theorem length_duplicates {s : Finset String} : ∀ {ns : List String} (k : Nat), (∀ n ∈ ns, n ∈ s) →
    (duplicates k ns).length = ∑ m ∈ s, (ns.count m).choose 2
  | [], _, _ => by simp [duplicates]
  | n :: rest, k, h => by
    have hn : n ∈ s := h n List.mem_cons_self
    have hrest : ∀ m ∈ rest, m ∈ s := fun m hm => h m (List.mem_cons_of_mem n hm)
    have ih := length_duplicates (k + 1) hrest
    rw [duplicates, List.length_append, length_repeatsOf, ih,
      Finset.sum_congr rfl fun m _ => choose_count_cons n m rest, Finset.sum_add_distrib,
      Finset.sum_ite_eq, if_pos hn]

/-! ## 2. The defects of each sort -/

variable {α : Type} [Named α] {d e : Declaration α} {x : Defect}

/-- How many defects of the sort of `y` are reported; a sort is known by its check. -/
def countLike (d : Declaration α) (y : Defect) : Nat :=
  d.defects.countP fun x => x.stage == y.stage

/-- Finds of one check are of one sort. -/
theorem countP_of_stage {xs : List Defect} {k s : Nat} (h : ∀ x ∈ xs, x.stage = k) :
    (xs.countP fun x => x.stage == s) = if k = s then xs.length else 0 := by
  split
  · next hk => exact List.countP_eq_length.mpr fun x hx => by simp [h x hx, hk]
  · next hk => exact List.countP_eq_zero.mpr fun x hx => by simp [h x hx, hk]

theorem stage_of_mem_invalidNames {ns : List String} {k : Nat} (h : x ∈ invalidNames k ns) :
    x.stage = 8 := by
  obtain ⟨i, n, -, -, rfl⟩ := mem_invalidNames.mp h
  rfl

theorem stage_of_mem_duplicates {ns : List String} {k : Nat} (h : x ∈ duplicates k ns) :
    x.stage = 9 := by
  obtain ⟨i, n, -, j, m, -, -, -, rfl⟩ := mem_duplicates.mp h
  rfl

/-- **Names in another order** leave the number of defects of each sort as it was. -/
theorem countLike_eq_of_perm (hheader : d.header = e.header) (hnames : d.names.Perm e.names)
    (y : Defect) : d.countLike y = e.countLike y := by
  have hinvalid : (invalidNames 0 d.names).length = (invalidNames 0 e.names).length := by
    rw [length_invalidNames, length_invalidNames, hnames.countP_eq]
  have hpairs : (duplicates 0 d.names).length = (duplicates 0 e.names).length := by
    rw [length_duplicates (s := d.names.toFinset) 0 fun n hn => List.mem_toFinset.mpr hn,
      length_duplicates (s := d.names.toFinset) 0 fun n hn =>
        List.mem_toFinset.mpr (hnames.mem_iff.mpr hn)]
    exact Finset.sum_congr rfl fun n _ => by rw [hnames.count_eq]
  rw [countLike, countLike, defects_eq_header, defects_eq_header, hheader, hnames.isEmpty_eq]
  simp only [List.countP_append]
  rw [countP_of_stage fun _ => stage_of_mem_invalidNames,
    countP_of_stage fun _ => stage_of_mem_invalidNames,
    countP_of_stage fun _ => stage_of_mem_duplicates,
    countP_of_stage fun _ => stage_of_mem_duplicates, hinvalid, hpairs]

/-- **Equal names are reported in pairs**: `m(m-1)/2` of them for a name that occurs `m` times. -/
theorem countLike_duplicate (d : Declaration α) (i j : Nat) (n : String) :
    d.countLike (.duplicateValue i j n) =
      ∑ m ∈ d.names.toFinset, d.names.count m * (d.names.count m - 1) / 2 := by
  have hstage : Defect.stage (.duplicateValue i j n) = 9 := rfl
  have hothers : ∀ x ∈ d.fileNameDefects ++ d.namespaceDefects ++ d.classDefects ++ d.enumDefects ++
      invalidNames 0 d.names, ¬ (x.stage == 9) = true := by
    intro x hx
    simp only [List.mem_append, mem_fileNameDefects, mem_namespaceDefects, mem_classDefects,
      mem_enumDefects, mem_invalidNames_iff] at hx
    rw [beq_iff_eq]
    omega
  rw [countLike, hstage, defects, List.countP_append, List.countP_eq_zero.mpr hothers,
    countP_of_stage fun _ => stage_of_mem_duplicates, if_pos rfl, Nat.zero_add,
    length_duplicates (s := d.names.toFinset) 0 fun n hn => List.mem_toFinset.mpr hn]
  exact Finset.sum_congr rfl fun m _ => Nat.choose_two_right _

theorem defects_eq_nil_iff_countLike : d.defects = [] ↔ ∀ y, d.countLike y = 0 := by
  constructor
  · intro h y
    rw [countLike, h, List.countP_nil]
  · intro h
    refine List.eq_nil_iff_forall_not_mem.mpr fun x hx => ?_
    exact List.countP_eq_zero.mp (h x) x hx (beq_self_eq_true _)

/-! ## 3. Fewer values -/

/-- A declaration without defects names every value once. -/
theorem nodup_names (h : d.defects = []) : d.names.Nodup := by
  rw [List.nodup_iff_getElem?_ne_getElem?]
  intro i j hij hj heq
  have hlater : d.names[j]? = some d.names[j] := List.getElem?_eq_getElem hj
  exact defects_eq_nil_iff.mp h (.duplicateValue i j d.names[j]) ⟨hij, heq.trans hlater, hlater⟩

/-- **What is left of sound values is sound**, in any order, as long as something is left. -/
theorem defects_eq_nil_of_subperm {vs : List α} (hne : vs ≠ []) (hsub : vs.Subperm d.values)
    (h : d.defects = []) : (d.withValues vs).defects = [] := by
  obtain ⟨us, hperm, hsublist⟩ := hsub
  have hnames : (d.withValues vs).names.Perm (us.map name) := (hperm.map name).symm
  have hless : (us.map name).Sublist d.names := hsublist.map name
  have hnone := defects_eq_nil_iff.mp h
  refine defects_eq_nil_iff.mpr fun x hx => ?_
  have hnot := hnone x
  cases x with
  | noValues =>
    have hlength : vs.length = 0 := (List.length_map name).symm.trans hx
    exact hne (List.eq_nil_of_length_eq_zero hlength)
  | invalidValueName i n =>
    have hmem : n ∈ d.names := hless.subset (hnames.subset (List.mem_of_getElem? hx.1))
    obtain ⟨j, hj⟩ := List.getElem?_of_mem hmem
    exact hnone (.invalidValueName j n) ⟨hj, hx.2⟩
  | duplicateValue i j n =>
    obtain ⟨hij, hi, hj⟩ := hx
    have hnodup : (d.withValues vs).names.Nodup :=
      hnames.nodup_iff.mpr (hless.nodup (nodup_names h))
    obtain ⟨hlt, -⟩ := List.getElem?_eq_some_iff.mp hj
    exact List.nodup_iff_getElem?_ne_getElem?.mp hnodup i j hij hlt (hi.trans hj.symm)
  | _ => exact hnot hx

/-! ## 4. Acceptance -/

/-- **The order of the values does not matter, and accepted values may be left out.** -/
theorem order_and_selection (d : Declaration α) :
    (∀ vs : List α, vs.Perm d.values →
      (∀ y, (d.withValues vs).countLike y = d.countLike y) ∧
        ((∃ c, (d.withValues vs).check = .ok c) ↔ ∃ c, d.check = .ok c)) ∧
      (∀ i j n, d.countLike (.duplicateValue i j n) =
        ∑ m ∈ d.names.toFinset, d.names.count m * (d.names.count m - 1) / 2) ∧
      ∀ vs : List α, vs ≠ [] → vs.Subperm d.values → (∃ c, d.check = .ok c) →
        ∃ c, (d.withValues vs).check = .ok c := by
  refine ⟨fun vs hperm => ?_, d.countLike_duplicate, fun vs hne hsub => ?_⟩
  · have hcount := countLike_eq_of_perm (d := d.withValues vs) (e := d) rfl (hperm.map name)
    refine ⟨hcount, ?_⟩
    simp only [exists_check_eq_ok_iff, defects_eq_nil_iff_countLike, hcount]
  · rw [exists_check_eq_ok_iff, exists_check_eq_ok_iff]
    exact defects_eq_nil_of_subperm hne hsub

namespace Colors

/-- One name three times, and one that is none. -/
def repeated : Declaration String :=
  { fileName := "Colors", enumName := "Color", values := ["Red", "dark red", "Red", "Red", "red"] }

def sound : Declaration String :=
  { fileName := "Colors", enumName := "Color", values := ["Red", "@null", "größer"] }

theorem selection_of_colors :
    (["red", "Red", "dark red", "Red", "Red"].Perm repeated.values ∧
        ["größer", "Red"].Subperm sound.values ∧ ∃ c, sound.check = .ok c) ∧
      (repeated.withValues ["red", "Red", "dark red", "Red", "Red"]).countLike
          (.invalidValueName 1 "dark red") = repeated.countLike (.invalidValueName 1 "dark red") ∧
      repeated.countLike (.duplicateValue 0 2 "Red") = 3 ∧
      ∃ c, (sound.withValues ["größer", "Red"]).check = .ok c := by
  have hperm : ["red", "Red", "dark red", "Red", "Red"].Perm repeated.values := by decide
  have hsub : ["größer", "Red"].Subperm sound.values :=
    ⟨["Red", "größer"], by decide, by decide⟩
  have hsound : ∃ c, sound.check = .ok c := exists_check_eq_ok_iff.mpr (by decide +kernel)
  obtain ⟨horder, hpairs, -⟩ := order_and_selection repeated
  refine ⟨⟨hperm, hsub, hsound⟩, (horder _ hperm).1 _, ?_, ?_⟩
  · exact (hpairs 0 2 "Red").trans (by decide +kernel)
  · exact (order_and_selection sound).2.2 _ (List.cons_ne_nil _ _) hsub hsound

end Colors

end EnumAssets.Declaration
