/-
# Scopes wrap what is inside of them

The lines of a declaration can be read in two ways.  By depth they are the openings, each one tab
deeper than the one before, then the values, then the closings in reverse order.  By scopes they are
an opening, what is inside of it, one tab deeper, and a closing.  The second reading makes the text
of a scope out of the text of what it holds: `pushIn` puts a tab in front of every line of a text,
and the text of a declaration is the pushed in text of the same declaration without its outermost
scope, between two lines (`code_wraps`).

No check of the declaration is needed.  All that matters is that a text has no more lines than were
put there, which is that no name holds a line end.
-/
import EnumAssets.Proofs.Declaration.Decoding

namespace EnumAssets

/-! ## 1. Pushing in a text -/

/-- Characters with a tab in front of each line, if it is known whether a line begins with the first
one. -/
def pushInFrom : Bool → List Char → List Char
  | _, [] => []
  | begins, c :: rest => (if begins then ['\t'] else []) ++ c :: pushInFrom (c == '\n') rest

/-- A text with a tab in front of each line. -/
def pushIn (text : String) : String :=
  String.ofList (pushInFrom true text.toList)

example : pushIn "a\n\nb" = "\ta\n\t\n\tb" := by decide

/-- **A line is pushed in once**, at its first character or in front of its end. -/
theorem pushInFrom_line {l : List Char} (h : '\n' ∉ l) (begins : Bool) (rest : List Char) :
    pushInFrom begins (l ++ '\n' :: rest) =
      (if begins then ['\t'] else []) ++ l ++ '\n' :: pushInFrom true rest := by
  induction l generalizing begins with
  | nil =>
    rw [List.append_nil]
    rfl
  | cons c l ih =>
    rw [List.mem_cons, not_or] at h
    have hmore : (c == '\n') = false := beq_eq_false_iff_ne.mpr (Ne.symm h.1)
    rw [List.cons_append, pushInFrom, hmore, ih h.2]
    simp

/-- Lines, each ended, are pushed in one by one. -/
theorem pushInFrom_lines : ∀ {ls : List (List Char)}, (∀ l ∈ ls, '\n' ∉ l) →
    pushInFrom true (ls.flatMap (· ++ ['\n'])) =
      (ls.map fun l => '\t' :: l).flatMap (· ++ ['\n'])
  | [], _ => rfl
  | l :: ls, h => by
    have ih := pushInFrom_lines fun k hk => h k (List.mem_cons_of_mem _ hk)
    rw [List.flatMap_cons, List.append_assoc, List.singleton_append,
      pushInFrom_line (h l List.mem_cons_self), ih]
    simp

/-! ## 2. Pushing in a block -/

namespace Declaration

variable {α : Type}

/-- **One tab deeper** the lines of a block are the same with one more tab. -/
theorem block_succ (body : List (List Char)) (os : List Opening) (depth : Nat) :
    block (depth + 1) body os = (block depth body os).map fun l => '\t' :: l := by
  have hline : ∀ i l, indented (depth + 1 + i) l = '\t' :: indented (depth + i) l := fun i l => by
    rw [indented, indented, Nat.add_right_comm, List.replicate_succ, List.cons_append]
  have hbody := funext (hline os.length)
  rw [block_eq_by_depth, block_eq_by_depth, hbody]
  simp [hline, List.mapIdx_eq_zipIdx_map, Function.comp_def]

/-! ## 3. Lines without line ends -/

/-- No keyword holds a line end, so an opening holds one only if its name does. -/
theorem newline_not_mem_opening {s : Scope} (h : '\n' ∉ s.name.toList) : '\n' ∉ s.opening := by
  intro hmem
  rcases Scope.mem_opening hmem with hpart | hspace | hname
  · exact absurd (Identifier.barred_of_isPart hpart) (by decide)
  · exact absurd hspace (by decide)
  · exact h hname

/-- Neither does the line of a value. -/
theorem newline_not_mem_valueLines {ns : List String} (h : ∀ n ∈ ns, '\n' ∉ n.toList) :
    ∀ l ∈ valueLines ns, '\n' ∉ l := by
  intro l hl hmem
  rcases mem_of_mem_valueLines hl hmem with ⟨n, hn, hname⟩ | hcomma
  · exact h n hn hname
  · exact absurd hcomma (by decide)

/-! ## 4. Wrapping -/

/-- The text of lines, each ended. -/
def textOf (ls : List (List Char)) : String :=
  String.ofList (ls.flatMap (· ++ ['\n']))

/-- **A block wraps what is inside of its outermost scope.** -/
theorem textOf_block_cons {body : List (List Char)} {os : List Opening}
    (hbody : ∀ l ∈ body, '\n' ∉ l) (hopenings : ∀ o ∈ os, '\n' ∉ o) (o : Opening) :
    textOf (block 0 body (o :: os)) =
      String.ofList o ++ "\x7b\n" ++ pushIn (textOf (block 0 body os)) ++ "\x7d\n" := by
  have hlines := not_mem_block (by decide) (by decide) (by decide) hbody hopenings 0
  have hpushed := pushInFrom_lines hlines
  have hopen : "\x7b\n".toList = ['\x7b', '\n'] := by decide
  have hclose : "\x7d\n".toList = ['\x7d', '\n'] := by decide
  rw [← String.toList_inj, textOf, textOf, pushIn, block, block_succ]
  simp [hpushed, hopen, hclose, indented]

/-! ## 5. Declarations -/

section Openings

variable {d : Declaration α}

theorem openings_of_namespace (h : d.namespaceName ≠ "") :
    d.openings = ("namespace " ++ d.namespaceName).toList :: (d.withNamespace "").openings := by
  rw [openings, hasNamespace_iff.mpr h, String.toList_append]
  rfl

theorem openings_of_class (hnone : d.namespaceName = "") (h : d.className ≠ "") (access : Access)
    (isPartial : Bool) :
    d.openings = (d.classAccess.modifier ++ (if d.isPartial then "partial " else "") ++ "class " ++
      d.className).toList :: (d.withClass "" access isPartial).openings := by
  have hopening : d.classAccess.modifier.toList ++
      (if d.isPartial then "partial ".toList else []) ++ "class ".toList ++ d.className.toList =
        (d.classAccess.modifier ++ (if d.isPartial then "partial " else "") ++ "class " ++
          d.className).toList := by
    cases d.isPartial <;> simp
  have hspace : d.hasNamespace = false := by simp [hasNamespace, hnone]
  rw [openings, openings, hopening, hasClass_iff.mpr h, hspace]
  simp [withClass, hasNamespace, hasClass, hnone]

end Openings

variable [Named α] {d : Declaration α}

/-- Whether no name in a declaration holds a line end. -/
structure SingleLine (d : Declaration α) : Prop where
  namespaceName : '\n' ∉ d.namespaceName.toList
  className : '\n' ∉ d.className.toList
  enumName : '\n' ∉ d.enumName.toList
  names : ∀ n ∈ d.names, '\n' ∉ n.toList

theorem newline_not_mem_empty : '\n' ∉ "".toList := by decide

theorem SingleLine.withNamespace (h : d.SingleLine) : (d.withNamespace "").SingleLine :=
  ⟨newline_not_mem_empty, h.className, h.enumName, h.names⟩

theorem SingleLine.withClass (h : d.SingleLine) (access : Access) (isPartial : Bool) :
    (d.withClass "" access isPartial).SingleLine :=
  ⟨h.namespaceName, newline_not_mem_empty, h.enumName, h.names⟩

theorem SingleLine.newline_not_mem_openings (h : d.SingleLine) : ∀ o ∈ d.openings, '\n' ∉ o := by
  intro o ho
  rw [openings_eq_map] at ho
  obtain ⟨s, hs, rfl⟩ := List.mem_map.mp ho
  refine newline_not_mem_opening ?_
  simp only [scopes, List.mem_append, List.mem_ite_nil_right, List.mem_singleton] at hs
  rcases hs with (⟨-, rfl⟩ | ⟨-, rfl⟩) | rfl
  · exact h.namespaceName
  · exact h.className
  · exact h.enumName

theorem code_eq_textOf (d : Declaration α) :
    d.code = textOf (block 0 (valueLines d.names) d.openings) := by
  rw [code, lines_eq_block, textOf]

/-- The text of a declaration whose outermost opening is put in front of those of another one. -/
theorem SingleLine.code_eq {inner : Declaration α} (h : inner.SingleLine) {o : String}
    (hnames : d.names = inner.names) (hopenings : d.openings = o.toList :: inner.openings) :
    d.code = o ++ "\x7b\n" ++ pushIn inner.code ++ "\x7d\n" := by
  have hblock := textOf_block_cons (newline_not_mem_valueLines h.names) h.newline_not_mem_openings
    o.toList
  rw [code_eq_textOf, code_eq_textOf, hopenings, hnames, hblock, String.ofList_toList]

/-- **Scopes compose by wrapping**, whether or not the declaration is sound. -/
theorem code_wraps (d : Declaration α) (h : d.SingleLine) :
    (d.namespaceName ≠ "" → d.code = "namespace " ++ d.namespaceName ++ "\x7b\n" ++
        pushIn (d.withNamespace "").code ++ "\x7d\n") ∧
      (d.namespaceName = "" → d.className ≠ "" → ∀ access isPartial,
        d.code = d.classAccess.modifier ++ (if d.isPartial then "partial " else "") ++ "class " ++
          d.className ++ "\x7b\n" ++ pushIn (d.withClass "" access isPartial).code ++ "\x7d\n") :=
  ⟨fun hspace => h.withNamespace.code_eq rfl (openings_of_namespace hspace),
    fun hnone hclass access isPartial => (h.withClass access isPartial).code_eq rfl
      (openings_of_class hnone hclass access isPartial)⟩

namespace Unsound

/-- A declaration of which nothing is right, with tabs, commas and braces in its names. -/
def declaration : Declaration String :=
  { fileName := "", namespaceName := "a\t.\x7b", className := "\tc d", isPartial := true,
    classAccess := .privateAccess, enumName := "enum ", enumAccess := .protectedInternal,
    values := ["\tx,", "", "\x7d"] }

theorem singleLine_declaration : declaration.SingleLine := by
  constructor <;> decide

theorem wraps_declaration :
    (declaration.SingleLine ∧ declaration.namespaceName ≠ "" ∧
        (declaration.withNamespace "").SingleLine ∧
        (declaration.withNamespace "").namespaceName = "" ∧
        (declaration.withNamespace "").className ≠ "") ∧
      declaration.code = "namespace a\t.\x7b\x7b\n" ++ pushIn (declaration.withNamespace "").code ++
        "\x7d\n" ∧
      (declaration.withNamespace "").code = "private partial class \tc d\x7b\n" ++
        pushIn ((declaration.withNamespace "").withClass "" .unspecified false).code ++
        "\x7d\n" := by
  have hline := singleLine_declaration
  have hspace : declaration.namespaceName ≠ "" := by decide
  have hclass : (declaration.withNamespace "").className ≠ "" := by decide
  have houter : "namespace " ++ declaration.namespaceName ++ "\x7b\n" =
      "namespace a\t.\x7b\x7b\n" := by decide
  have hinner : (declaration.withNamespace "").classAccess.modifier ++
      (if (declaration.withNamespace "").isPartial then "partial " else "") ++ "class " ++
        (declaration.withNamespace "").className ++ "\x7b\n" =
      "private partial class \tc d\x7b\n" := by decide
  refine ⟨⟨hline, hspace, hline.withNamespace, rfl, hclass⟩, ?_, ?_⟩
  · rw [← houter]
    exact (code_wraps declaration hline).1 hspace
  · rw [← hinner]
    exact (code_wraps _ hline.withNamespace).2 rfl hclass .unspecified false

end Unsound

end Declaration
end EnumAssets
