/-
# What the report of a declaration says

`Declaration.defects` is a concatenation of checks, each written as a computation.  This module
says what the report means: `Declaration.Has` states for each sort of defect when a declaration has
it, without any reference to the checks, and `mem_defects_iff` proves that the report lists exactly
those defects.

The order of the report is that of `Defect.rank`, the number of the check followed by the positions
that the defect names.  The checks come in ascending order, so a report is strictly ascending as
soon as the two checks that can find several defects are: the invalid names ascend by their
position, and the pairs of equal names ascend by their first position and then by the second one
(`ascending_duplicates`).  A strictly ascending list has no repetition, so no defect is listed
twice.
-/
import EnumAssets.Declaration.Code
import Mathlib.Data.List.Basic

namespace EnumAssets

/-! ## 1. The meaning and the place of a defect -/

namespace Declaration

variable {α : Type} [Named α]

/-- Whether a declaration has a defect.  A defect carries what the user is shown, so this says also
which text or position that is. -/
def Has (d : Declaration α) : Defect → Prop
  | .emptyFileName => d.fileName = ""
  | .invalidFileName n => n = d.fileName ∧ n ≠ "" ∧
      ∃ c ∈ n.toList, Unicode.control.has c = true ∨ c ∈ forbiddenInFileName
  | .invalidNamespace n => n = d.namespaceName ∧ n ≠ "" ∧
      ∃ part ∈ n.toList.splitOn '.', Identifier.isIdentifier (String.ofList part) = false
  | .invalidClassName n => n = d.className ∧ n ≠ "" ∧ Identifier.isIdentifier n = false
  | .classAccess a => a = d.classAccess ∧ d.className ≠ "" ∧
      a ∉ [Access.unspecified, .publicAccess, .internalAccess]
  | .invalidEnumName n => n = d.enumName ∧ Identifier.isIdentifier n = false
  | .enumAccess a => a = d.enumAccess ∧ d.className = "" ∧
      a ∉ [Access.unspecified, .publicAccess, .internalAccess]
  | .noValues => d.names.length = 0
  | .invalidValueName i n => d.names[i]? = some n ∧ Identifier.isIdentifier n = false
  | .duplicateValue i j n => i < j ∧ d.names[i]? = some n ∧ d.names[j]? = some n

end Declaration

namespace Defect

/-- The number of the check that finds a defect. -/
def stage : Defect → Nat
  | .emptyFileName => 0
  | .invalidFileName _ => 1
  | .invalidNamespace _ => 2
  | .invalidClassName _ => 3
  | .classAccess _ => 4
  | .invalidEnumName _ => 5
  | .enumAccess _ => 6
  | .noValues => 7
  | .invalidValueName .. => 8
  | .duplicateValue .. => 9

/-- The positions that a defect names. -/
def positions : Defect → List Nat
  | .invalidValueName i _ => [i]
  | .duplicateValue i j _ => [i, j]
  | _ => []

/-- The place of a defect in a report: the number of its check, then its positions, compared one
after the other. -/
def rank (x : Defect) : List Nat :=
  x.stage :: x.positions

/-- A defect of an earlier check stands before one of a later check. -/
theorem rank_lt_of_stage_lt {x y : Defect} (h : x.stage < y.stage) : x.rank < y.rank :=
  List.cons_lt_cons_iff.mpr (Or.inl h)

end Defect

/-! ## 2. The checks of the names

Both walk down the list of names and count the position, so each statement is about a list that
begins at a position `k`. -/

namespace Declaration

variable {α : Type}

@[simp] theorem mem_report {b : Bool} {x y : Defect} : x ∈ report b y ↔ b = true ∧ x = y := by
  cases b <;> simp [report]

/-- An entry of a list is its first one, or one of the rest and then one position later. -/
theorem exists_getElem?_cons {β : Type} {m : β} {rest : List β} {p : Nat → β → Prop} :
    (∃ i n, (m :: rest)[i]? = some n ∧ p i n) ↔
      p 0 m ∨ ∃ i n, rest[i]? = some n ∧ p (i + 1) n := by
  constructor
  · rintro ⟨i, n, hi, hp⟩
    cases i with
    | zero =>
      obtain rfl : m = n := by simpa using hi
      exact Or.inl hp
    | succ i => exact Or.inr ⟨i, n, by simpa using hi, hp⟩
  · rintro (hp | ⟨i, n, hi, hp⟩)
    · exact ⟨0, m, rfl, hp⟩
    · exact ⟨i + 1, n, by simpa using hi, hp⟩

theorem mem_invalidNames {x : Defect} : ∀ {ns : List String} {k : Nat},
    x ∈ invalidNames k ns ↔ ∃ i n, ns[i]? = some n ∧
      Identifier.isIdentifier n = false ∧ x = .invalidValueName (k + i) n
  | [], k => by simp [invalidNames]
  | m :: rest, k => by
    rw [invalidNames, List.mem_append, mem_report, mem_invalidNames, exists_getElem?_cons,
      Bool.not_eq_true']
    simp only [Nat.add_zero, Nat.add_assoc, Nat.add_comm 1]

theorem mem_repeatsOf {x : Defect} {first : Nat} {n : String} : ∀ {ms : List String} {k : Nat},
    x ∈ repeatsOf first n k ms ↔ ∃ j m, ms[j]? = some m ∧
      n = m ∧ x = .duplicateValue first (k + j) n
  | [], k => by simp [repeatsOf]
  | m :: rest, k => by
    rw [repeatsOf, List.mem_append, mem_report, mem_repeatsOf, exists_getElem?_cons, beq_iff_eq]
    simp only [Nat.add_zero, Nat.add_assoc, Nat.add_comm 1]

/-- The pairs that are found are those of an earlier and a later position, so no name is compared
with itself and no pair is met from both of its ends. -/
theorem mem_duplicates {x : Defect} : ∀ {ns : List String} {k : Nat},
    x ∈ duplicates k ns ↔ ∃ i n, ns[i]? = some n ∧ ∃ j m, ns[j]? = some m ∧
      i < j ∧ n = m ∧ x = .duplicateValue (k + i) (k + j) n
  | [], k => by simp [duplicates]
  | m :: rest, k => by
    rw [duplicates, List.mem_append, mem_repeatsOf, mem_duplicates, exists_getElem?_cons]
    simp only [@exists_getElem?_cons _ m rest, Nat.lt_irrefl, Nat.not_lt_zero,
      false_and, false_or, Nat.zero_lt_succ, true_and, Nat.add_lt_add_iff_right, Nat.add_zero,
      Nat.add_assoc, Nat.add_comm 1]

/-! ## 3. The order within a check -/

/-- A list of defects whose places ascend strictly. -/
def Ascending (xs : List Defect) : Prop :=
  xs.Pairwise fun x y => x.rank < y.rank

/-- Two ascending lists, one behind the other, ascend if the first is from earlier checks. -/
theorem Ascending.append {xs ys : List Defect} (hx : Ascending xs) (hy : Ascending ys)
    (h : ∀ x ∈ xs, ∀ y ∈ ys, x.stage < y.stage) : Ascending (xs ++ ys) :=
  List.pairwise_append.mpr ⟨hx, hy, fun x hmx y hmy =>
    Defect.rank_lt_of_stage_lt (h x hmx y hmy)⟩

theorem ascending_report (b : Bool) (y : Defect) : Ascending (report b y) := by
  cases b <;> simp [report, Ascending]

theorem ascending_invalidNames : ∀ (ns : List String) (k : Nat), Ascending (invalidNames k ns)
  | [], _ => List.Pairwise.nil
  | m :: rest, k => by
    refine List.pairwise_append.mpr
      ⟨ascending_report _ _, ascending_invalidNames rest (k + 1), ?_⟩
    intro x hx y hy
    obtain ⟨-, rfl⟩ := mem_report.mp hx
    obtain ⟨i, n, -, -, rfl⟩ := mem_invalidNames.mp hy
    have hlt : k < k + 1 + i := by omega
    simp [Defect.rank, Defect.stage, Defect.positions, List.cons_lt_cons_iff, hlt]

theorem ascending_repeatsOf (first : Nat) (n : String) : ∀ (ms : List String) (k : Nat),
    Ascending (repeatsOf first n k ms)
  | [], _ => List.Pairwise.nil
  | m :: rest, k => by
    refine List.pairwise_append.mpr
      ⟨ascending_report _ _, ascending_repeatsOf first n rest (k + 1), ?_⟩
    intro x hx y hy
    obtain ⟨-, rfl⟩ := mem_report.mp hx
    obtain ⟨j, -, -, -, rfl⟩ := mem_repeatsOf.mp hy
    have hlt : k < k + 1 + j := by omega
    simp [Defect.rank, Defect.stage, Defect.positions, List.cons_lt_cons_iff, hlt]

/-- **The pairs ascend**, by the first position and then by the second one. -/
theorem ascending_duplicates : ∀ (ns : List String) (k : Nat), Ascending (duplicates k ns)
  | [], _ => List.Pairwise.nil
  | m :: rest, k => by
    refine List.pairwise_append.mpr
      ⟨ascending_repeatsOf k m rest (k + 1), ascending_duplicates rest (k + 1), ?_⟩
    intro x hx y hy
    obtain ⟨j, -, -, -, rfl⟩ := mem_repeatsOf.mp hx
    obtain ⟨i, n, -, j', -, -, -, -, rfl⟩ := mem_duplicates.mp hy
    have hlt : k < k + 1 + i := by omega
    simp [Defect.rank, Defect.stage, Defect.positions, List.cons_lt_cons_iff, hlt]

theorem ascending_fileNameDefects (d : Declaration α) : Ascending d.fileNameDefects := by
  unfold fileNameDefects
  split
  · exact List.pairwise_singleton _ _
  · exact ascending_report _ _

theorem ascending_namespaceDefects (d : Declaration α) : Ascending d.namespaceDefects :=
  ascending_report _ _

theorem ascending_classDefects (d : Declaration α) : Ascending d.classDefects := by
  refine (ascending_report _ _).append (ascending_report _ _) ?_
  simp only [mem_report]
  rintro x ⟨-, rfl⟩ y ⟨-, rfl⟩
  simp [Defect.stage]

theorem ascending_enumDefects (d : Declaration α) : Ascending d.enumDefects := by
  refine ((ascending_report _ _).append (ascending_report _ _) ?_).append (ascending_report _ _) ?_
  · simp only [mem_report]
    rintro x ⟨-, rfl⟩ y ⟨-, rfl⟩
    simp [Defect.stage]
  · simp only [List.mem_append, mem_report]
    rintro x (⟨-, rfl⟩ | ⟨-, rfl⟩) y ⟨-, rfl⟩ <;> simp [Defect.stage]

/-! ## 4. What each check finds -/

theorem isOpen_eq_false_iff {a : Access} :
    a.isOpen = false ↔ a ∉ [Access.unspecified, .publicAccess, .internalAccess] := by
  cases a <;> decide

theorem hasClass_iff {d : Declaration α} : d.hasClass = true ↔ d.className ≠ "" := by
  simp [hasClass]

theorem hasClass_eq_false_iff {d : Declaration α} : d.hasClass = false ↔ d.className = "" := by
  simp [hasClass]

theorem hasNamespace_iff {d : Declaration α} : d.hasNamespace = true ↔ d.namespaceName ≠ "" := by
  simp [hasNamespace]

theorem allowedInFileName_eq_false_iff {c : Char} :
    allowedInFileName c = false ↔ Unicode.control.has c = true ∨ c ∈ forbiddenInFileName := by
  cases h : Unicode.control.has c <;> simp [allowedInFileName, h]

variable [Named α] {d : Declaration α}

theorem mem_fileNameDefects {x : Defect} :
    x ∈ d.fileNameDefects ↔ d.Has x ∧ x.stage ≤ 1 := by
  unfold fileNameDefects
  split
  · next h =>
    cases x <;> simp [Has, Defect.stage, h]
    grind
  · next h =>
    cases x <;> simp [Has, Defect.stage, h, allowedInFileName_eq_false_iff]
    grind

theorem mem_namespaceDefects {x : Defect} :
    x ∈ d.namespaceDefects ↔ d.Has x ∧ x.stage = 2 := by
  unfold namespaceDefects
  rw [mem_report, Bool.and_eq_true, hasNamespace_iff, Bool.not_eq_true', Identifier.isNamespace,
    List.all_eq_false]
  cases x <;> simp [Has, Defect.stage]
  grind

theorem mem_classDefects {x : Defect} :
    x ∈ d.classDefects ↔ d.Has x ∧ (x.stage = 3 ∨ x.stage = 4) := by
  unfold classDefects
  simp only [List.mem_append, mem_report, Bool.and_eq_true, hasClass_iff, Bool.not_eq_true',
    isOpen_eq_false_iff]
  cases x <;> simp [Has, Defect.stage] <;> grind

theorem mem_enumDefects {x : Defect} :
    x ∈ d.enumDefects ↔ d.Has x ∧ 5 ≤ x.stage ∧ x.stage ≤ 7 := by
  unfold enumDefects
  simp only [List.mem_append, mem_report, Bool.and_eq_true, Bool.not_eq_true',
    hasClass_eq_false_iff, isOpen_eq_false_iff]
  cases x <;> simp [Has, Defect.stage, names] <;> grind

theorem mem_invalidNames_iff {x : Defect} :
    x ∈ invalidNames 0 d.names ↔ d.Has x ∧ x.stage = 8 := by
  rw [mem_invalidNames]
  cases x <;> simp [Has, Defect.stage]

theorem mem_duplicates_iff {x : Defect} :
    x ∈ duplicates 0 d.names ↔ d.Has x ∧ x.stage = 9 := by
  rw [mem_duplicates]
  cases x <;> simp [Has, Defect.stage]
  grind

/-! ## 5. The report -/

/-- **The report lists what a declaration has**, and nothing else. -/
theorem mem_defects_iff {x : Defect} : x ∈ d.defects ↔ d.Has x := by
  have hstage : x.stage ≤ 9 := by cases x <;> simp [Defect.stage]
  simp only [defects, List.mem_append, mem_fileNameDefects, mem_namespaceDefects,
    mem_classDefects, mem_enumDefects, mem_invalidNames_iff, mem_duplicates_iff, ← and_or_left]
  exact ⟨fun h => h.1, fun h => ⟨h, by omega⟩⟩

/-- **The report ascends**: what a check finds stands behind the finds of all earlier checks. -/
theorem ascending_defects (d : Declaration α) : Ascending d.defects := by
  refine (((((ascending_fileNameDefects d).append (ascending_namespaceDefects d) ?_).append
    (ascending_classDefects d) ?_).append (ascending_enumDefects d) ?_).append
      (ascending_invalidNames d.names 0) ?_).append (ascending_duplicates d.names 0) ?_
  all_goals
    intro x hx y hy
    simp only [List.mem_append, mem_fileNameDefects, mem_namespaceDefects, mem_classDefects,
      mem_enumDefects, mem_invalidNames_iff, mem_duplicates_iff] at hx hy
    omega

/-- A declaration has no defect exactly if its report is empty. -/
theorem defects_eq_nil_iff : d.defects = [] ↔ ∀ x, ¬ d.Has x := by
  simp only [List.eq_nil_iff_forall_not_mem, mem_defects_iff]

/-- **The report is exact.**  It lists the defects that a declaration has, each once and in the
order of their places; and a declaration is accepted, and its text written, exactly if it has
none. -/
theorem report_exact_and_ascending {α : Type} [Named α] (d : Declaration α) :
    (∀ x, x ∈ d.defects ↔ d.Has x) ∧
      d.defects.Pairwise (fun x y => x.rank < y.rank) ∧
      ((∃ c, d.check = .ok c ∧ c.code = d.code) ↔ ∀ x, ¬ d.Has x) ∧
      (d.check = .error d.defects ↔ ∃ x, d.Has x) := by
  refine ⟨fun x => mem_defects_iff, ascending_defects d, ?_, ?_⟩
  · rw [← defects_eq_nil_iff]
    constructor
    · rintro ⟨c, hc, -⟩
      by_contra h
      simp [check, h] at hc
    · intro h
      exact ⟨⟨d, h⟩, by simp [check, h], rfl⟩
  · have hall : (∃ x, d.Has x) ↔ d.defects ≠ [] := by
      rw [Ne, defects_eq_nil_iff]
      simp
    rw [hall]
    by_cases h : d.defects = [] <;> simp [check, h]

end Declaration

/-! ## 6. Checked declarations -/

namespace Declaration

variable {α : Type} [Named α] {d : Declaration α}

/-- A declaration is accepted if its report is empty. -/
theorem exists_check_eq_ok_iff : (∃ c, d.check = .ok c) ↔ d.defects = [] := by
  rw [check]
  split
  · next h => exact ⟨fun _ => h, fun _ => ⟨_, rfl⟩⟩
  · next h =>
    refine ⟨?_, fun hnil => absurd hnil h⟩
    rintro ⟨c, hc⟩
    cases hc

/-- It is refused with its report otherwise. -/
theorem check_eq_error_iff {ds : List Defect} :
    d.check = .error ds ↔ ds = d.defects ∧ d.defects ≠ [] := by
  rw [check]
  split
  · next h => exact ⟨nofun, fun hds => absurd h hds.2⟩
  · next h =>
    constructor
    · intro heq
      cases heq
      exact ⟨rfl, h⟩
    · rintro ⟨rfl, -⟩
      rfl

end Declaration

namespace Checked

variable {α : Type} [Named α] (c : Checked α)

/-- A check changes nothing about what it accepts. -/
theorem declaration_eq_of_check {d : Declaration α} (h : d.check = .ok c) : c.declaration = d := by
  rw [Declaration.check] at h
  split at h
  · obtain rfl := Except.ok.inj h
    rfl
  · cases h

/-- A checked declaration has no defect of any sort. -/
theorem not_has (x : Defect) : ¬ c.declaration.Has x :=
  Declaration.defects_eq_nil_iff.mp c.sound x

theorem fileName_ne_empty : c.declaration.fileName ≠ "" :=
  c.not_has .emptyFileName

theorem allowed_of_mem_fileName {ch : Char} (h : ch ∈ c.declaration.fileName.toList) :
    Unicode.control.has ch = false ∧ ch ∉ forbiddenInFileName := by
  have hnot := c.not_has (.invalidFileName c.declaration.fileName)
  rw [Declaration.Has] at hnot
  rw [← Bool.not_eq_true, ← not_or]
  exact fun hbad => hnot ⟨rfl, c.fileName_ne_empty, ch, h, hbad⟩

theorem isNamespace_namespaceName (h : c.declaration.namespaceName ≠ "") :
    Identifier.isNamespace c.declaration.namespaceName = true := by
  have hnot := c.not_has (.invalidNamespace c.declaration.namespaceName)
  rw [Declaration.Has] at hnot
  rw [Identifier.isNamespace, List.all_eq_true]
  intro part hpart
  rw [← Bool.not_eq_false]
  exact fun hbad => hnot ⟨rfl, h, part, hpart, hbad⟩

theorem isIdentifier_className (h : c.declaration.className ≠ "") :
    Identifier.isIdentifier c.declaration.className = true := by
  have hnot := c.not_has (.invalidClassName c.declaration.className)
  rw [Declaration.Has] at hnot
  rw [← Bool.not_eq_false]
  exact fun hbad => hnot ⟨rfl, h, hbad⟩

theorem isIdentifier_enumName : Identifier.isIdentifier c.declaration.enumName = true := by
  have hnot := c.not_has (.invalidEnumName c.declaration.enumName)
  rw [Declaration.Has] at hnot
  rw [← Bool.not_eq_false]
  exact fun hbad => hnot ⟨rfl, hbad⟩

theorem names_ne_nil : c.declaration.names ≠ [] :=
  fun h => c.not_has .noValues (List.length_eq_zero_iff.mpr h)

theorem isIdentifier_of_mem_names {n : String} (h : n ∈ c.declaration.names) :
    Identifier.isIdentifier n = true := by
  obtain ⟨i, hi⟩ := List.getElem?_of_mem h
  have hnot := c.not_has (.invalidValueName i n)
  rw [Declaration.Has] at hnot
  rw [← Bool.not_eq_false]
  exact fun hbad => hnot ⟨hi, hbad⟩

end Checked
end EnumAssets
