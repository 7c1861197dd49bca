/-
# The generated text is one well-nested block

`Layout` lists what can be seen of a generated text by looking at its characters alone: how many
lines it has, where braces and commas stand, how deep each line is, and that there is one enum with
the values in it.  `code_layout` proves that the text of every checked declaration has this layout,
whatever the scripts of its names, with or without namespace and class, and for any number of
values.

The text is a list of lines, so each quantity that does not see the tabs in front of a line is the
sum over the openings, the values and the closings (`sum_block`); braces, commas and the keyword of
the enum are counted in this way.  The depth of the lines is not such a sum.  For it the lines are
read from the top (`Nested`), and a block read at the depth where it stands leaves the number of
open scopes as it was (`nested_block`).  Where the values stand follows from taking the block apart
at its innermost scope (`block_concat`).

What makes all of it true is one fact about the names: the characters that lay out the text are
barred from them.
-/
import EnumAssets.Proofs.Declaration.Decoding
import EnumAssets.Proofs.Text.Occurrence

namespace EnumAssets

/-! ## 1. What can be seen of a text -/

/-- The number of tabs in front of a line. -/
def leadingTabs (l : List Char) : Nat :=
  (l.takeWhile (· == '\t')).length

/-- Lines that are read from the top while a number of scopes is open: no more scopes are closed
than are open, each line has one tab for each open scope, those that it closes not counted, and at
the end all scopes are closed. -/
def Nested : Nat → List (List Char) → Prop
  | opened, [] => opened = 0
  | opened, l :: rest =>
    l.count '\x7d' ≤ opened ∧ leadingTabs l = opened - l.count '\x7d' ∧
      Nested (opened - l.count '\x7d' + l.count '\x7b') rest

/-- What an enum begins with, its access apart. -/
def enumKeyword : List Char := "enum ".toList

/-- Whether a scope is an enum. -/
def Scope.isEnum : Scope → Bool
  | .namespaceOf _ => false
  | .classOf _ _ _ => false
  | .enumOf _ _ => true

/-- The lines behind the first one that holds the keyword of an enum, up to the next closing
brace. -/
def valuePart (text : String) : List (List Char) :=
  ((linesOf text).dropWhile fun l => occurrences enumKeyword l == 0).tail.takeWhile
    fun l => !l.contains '\x7d'

/-- A text that consists of one block of nested scopes with names in the innermost one. -/
structure Layout (depth : Nat) (names : List String) (text : String) : Prop where
  /-- Each line is ended by a line end. -/
  ended : text.toList = (linesOf text).flatMap (· ++ ['\n'])
  length_lines : (linesOf text).length = 2 * depth + names.length
  count_open : text.toList.count '\x7b' = depth
  open_last : ∀ l ∈ linesOf text, '\x7b' ∉ l.dropLast
  count_close : text.toList.count '\x7d' = depth
  close_alone : ∀ l ∈ linesOf text, '\x7d' ∈ l → ∃ k, l = List.replicate k '\t' ++ ['\x7d']
  count_comma : text.toList.count ',' = names.length - 1
  comma_last : ∀ l ∈ linesOf text, ',' ∉ l.dropLast
  comma_value : ∀ l ∈ linesOf text, ',' ∈ l → l ∈ valuePart text
  nested : Nested 0 (linesOf text)
  one_enum : occurrences enumKeyword text.toList = 1
  /-- The values are the names in order, with a comma behind each but the last. -/
  values : (valuePart text).map (List.dropWhile (· == '\t')) =
    names.mapIdx fun i n => n.toList ++ if i + 1 < names.length then [','] else []
  controls : ∀ ch ∈ text.toList, Unicode.control.has ch = true → ch = '\t' ∨ ch = '\n'

/-! ## 2. Quantities that do not see the tabs -/

namespace Declaration

/-- **A quantity that does not see the tabs** is summed over openings, body and closings. -/
theorem sum_block {f : List Char → Nat} (hf : ∀ k l, f (indented k l) = f l)
    (body : List (List Char)) : ∀ (os : List Opening) (depth : Nat),
      ((block depth body os).map f).sum =
        (os.map fun o => f (o ++ ['\x7b'])).sum + (body.map f).sum + os.length * f ['\x7d']
  | [], depth => by
    have hbody : (body.map (indented depth)).map f = body.map f := by
      rw [List.map_map]
      exact List.map_congr_left fun l _ => hf depth l
    simp [block, hbody]
  | o :: os, depth => by
    have ih := sum_block hf body os (depth + 1)
    rw [block, List.cons_append, List.map_cons, List.map_append, List.sum_cons, List.sum_append,
      ih, hf, List.map_singleton, List.sum_singleton, hf, List.map_cons, List.sum_cons,
      List.length_cons, Nat.succ_mul]
    omega

theorem length_block (body : List (List Char)) : ∀ (os : List Opening) (depth : Nat),
    (block depth body os).length = 2 * os.length + body.length
  | [], depth => by simp [block]
  | o :: os, depth => by
    have ih := length_block body os (depth + 1)
    rw [block, List.length_append, List.length_cons, ih, List.length_singleton, List.length_cons]
    omega

theorem count_indented {ch : Char} (h : ch ≠ '\t') (k : Nat) (l : List Char) :
    (indented k l).count ch = l.count ch := by
  simp [indented, List.count_append, List.count_replicate, h.symm]

theorem sum_map_eq_mul {β : Type} {f : β → Nat} {n : Nat} : ∀ {xs : List β},
    (∀ x ∈ xs, f x = n) → (xs.map f).sum = xs.length * n
  | [], _ => by simp
  | x :: xs, h => by
    rw [List.map_cons, List.sum_cons, h x List.mem_cons_self,
      sum_map_eq_mul fun y hy => h y (List.mem_cons_of_mem _ hy), List.length_cons, Nat.succ_mul,
      Nat.add_comm]

/-- Line ends apart, a character is counted line by line. -/
theorem count_flatMap_lines {ch : Char} (h : ch ≠ '\n') (ls : List (List Char)) :
    (ls.flatMap (· ++ ['\n'])).count ch = (ls.map (List.count ch)).sum := by
  rw [List.count_flatMap]
  refine congrArg List.sum (List.map_congr_left fun l _ => ?_)
  simp [List.count_append, h.symm]

/-- There is one comma between any two neighbours. -/
theorem sum_count_comma : ∀ {ns : List String}, (∀ n ∈ ns, ',' ∉ n.toList) →
    ((valueLines ns).map (List.count ',')).sum = ns.length - 1
  | [], _ => rfl
  | [n], h => by
    simpa [valueLines] using List.count_eq_zero.mpr (h n List.mem_cons_self)
  | n :: m :: rest, h => by
    have hn := List.count_eq_zero.mpr (h n List.mem_cons_self)
    have ih : ((valueLines (m :: rest)).map (List.count ',')).sum = (m :: rest).length - 1 :=
      sum_count_comma fun k hk => h k (List.mem_cons_of_mem _ hk)
    simp [valueLines, List.count_append, hn, ih, Nat.add_comm]

/-- The lines of the values by their positions. -/
theorem valueLines_eq_mapIdx : ∀ ns : List String, valueLines ns =
    ns.mapIdx fun i n => n.toList ++ if i + 1 < ns.length then [','] else []
  | [] => rfl
  | [n] => by simp [valueLines]
  | n :: m :: rest => by
    rw [valueLines, valueLines_eq_mapIdx (m :: rest), List.mapIdx_cons]
    · simp
    · simp

/-! ## 3. The depth of the lines -/

theorem dropWhile_indented {l : List Char} (h : '\t' ∉ l) (k : Nat) :
    (indented k l).dropWhile (· == '\t') = l := by
  have hl : l.dropWhile (· == '\t') = l := by
    cases l with
    | nil => rfl
    | cons c l =>
      rw [List.mem_cons, not_or] at h
      exact List.dropWhile_cons_of_neg (by simpa using Ne.symm h.1)
  rw [indented, List.dropWhile_append_of_pos (by simp), hl]

theorem leadingTabs_indented {l : List Char} (h : '\t' ∉ l) (k : Nat) :
    leadingTabs (indented k l) = k := by
  have hl : l.takeWhile (· == '\t') = [] := by
    cases l with
    | nil => rfl
    | cons c l =>
      rw [List.mem_cons, not_or] at h
      simp [Ne.symm h.1]
  rw [leadingTabs, indented, List.takeWhile_append_of_pos (by simp), hl]
  simp

/-- A line as it is before its tabs and braces are set. -/
def Bare (l : List Char) : Prop :=
  '\t' ∉ l ∧ '\x7b' ∉ l ∧ '\x7d' ∉ l

/-- A bare line that stands at the depth of the open scopes changes nothing. -/
theorem nested_bare {depth : Nat} {l : List Char} (h : Bare l) (rest : List (List Char)) :
    Nested depth (indented depth l :: rest) ↔ Nested depth rest := by
  obtain ⟨htab, hopen, hclose⟩ := h
  rw [Nested, count_indented (by decide), count_indented (by decide),
    List.count_eq_zero.mpr hopen, List.count_eq_zero.mpr hclose, leadingTabs_indented htab]
  simp

/-- The line of an opening opens one scope. -/
theorem nested_opening {depth : Nat} {o : Opening} (h : Bare o) (rest : List (List Char)) :
    Nested depth (indented depth (o ++ ['\x7b']) :: rest) ↔ Nested (depth + 1) rest := by
  obtain ⟨htab, hopen, hclose⟩ := h
  have hline : '\t' ∉ o ++ ['\x7b'] := by simp [htab]
  rw [Nested, count_indented (by decide), count_indented (by decide), List.count_append,
    List.count_append, List.count_eq_zero.mpr hopen, List.count_eq_zero.mpr hclose,
    leadingTabs_indented hline]
  simp

/-- A closing line closes one scope, and stands as deep as it was opened. -/
theorem nested_closing {depth : Nat} (rest : List (List Char)) :
    Nested (depth + 1) (indented depth ['\x7d'] :: rest) ↔ Nested depth rest := by
  rw [Nested, count_indented (by decide), count_indented (by decide),
    leadingTabs_indented (by decide)]
  simp

theorem nested_body {depth : Nat} {rest : List (List Char)} : ∀ {body : List (List Char)},
    (∀ l ∈ body, Bare l) →
      (Nested depth (body.map (indented depth) ++ rest) ↔ Nested depth rest)
  | [], _ => Iff.rfl
  | l :: body, h => by
    rw [List.map_cons, List.cons_append, nested_bare (h l List.mem_cons_self),
      nested_body fun m hm => h m (List.mem_cons_of_mem _ hm)]

/-- **A block leaves the open scopes as they were.**  The induction is on the openings; a scope is
open while what is inside of it is read, one level deeper, and its last line closes it. -/
theorem nested_block {body : List (List Char)} (hbody : ∀ l ∈ body, Bare l) :
    ∀ {os : List Opening} {depth : Nat} {rest : List (List Char)}, (∀ o ∈ os, Bare o) →
      (Nested depth (block depth body os ++ rest) ↔ Nested depth rest)
  | [], _, _, _ => nested_body hbody
  | o :: os, depth, rest, h => by
    rw [block, List.cons_append, List.cons_append, List.append_assoc, List.singleton_append,
      nested_opening (h o List.mem_cons_self),
      nested_block hbody fun p hp => h p (List.mem_cons_of_mem _ hp), nested_closing]

/-! ## 4. The innermost scope -/

/-- **A block taken apart at its innermost scope.**  What is in front are openings, and what is
behind are closings. -/
theorem block_concat (body : List (List Char)) (e : Opening) :
    ∀ (outer : List Opening) (depth : Nat), ∃ k before after,
      block depth body (outer ++ [e]) = before ++ indented k (e ++ ['\x7b']) ::
        (body.map (indented (k + 1)) ++ indented k ['\x7d'] :: after) ∧
      (∀ l ∈ before, ∃ j, ∃ o ∈ outer, l = indented j (o ++ ['\x7b'])) ∧
      ∀ l ∈ after, ∃ j, l = indented j ['\x7d']
  | [], depth => ⟨depth, [], [], by simp [block], by simp, by simp⟩
  | o :: outer, depth => by
    obtain ⟨k, before, after, heq, hbefore, hafter⟩ := block_concat body e outer (depth + 1)
    refine ⟨k, indented depth (o ++ ['\x7b']) :: before, after ++ [indented depth ['\x7d']],
      ?_, ?_, ?_⟩
    · rw [List.cons_append, block, heq]
      simp
    · intro l hl
      rcases List.mem_cons.mp hl with rfl | hl
      · exact ⟨depth, o, List.mem_cons_self, rfl⟩
      · obtain ⟨j, p, hp, rfl⟩ := hbefore l hl
        exact ⟨j, p, List.mem_cons_of_mem _ hp, rfl⟩
    · intro l hl
      rcases List.mem_append.mp hl with hl | hl
      · exact hafter l hl
      · exact ⟨depth, List.mem_singleton.mp hl⟩

/-- The innermost scope is the enum, and those around it are none. -/
theorem exists_scopes_eq {α : Type} (d : Declaration α) : ∃ outer e, d.scopes = outer ++ [e] ∧
    (∀ s ∈ outer, s.isEnum = false) ∧ e.isEnum = true := by
  refine ⟨_, _, rfl, ?_, rfl⟩
  intro s hs
  simp only [List.mem_append, List.mem_ite_nil_right, List.mem_singleton] at hs
  rcases hs with ⟨-, rfl⟩ | ⟨-, rfl⟩ <;> rfl

end Declaration

/-! ## 5. The keyword of the enum -/

theorem enumKeyword_eq : enumKeyword = "enum".toList ++ [' '] := by decide

theorem occurrences_indented (k : Nat) (l : List Char) :
    occurrences enumKeyword (Declaration.indented k l) = occurrences enumKeyword l :=
  occurrences_replicate_append (by decide) (by decide) l k

/-- **An opening holds the keyword once if it opens an enum**, and else not at all: each keyword in
it has one space behind it, and behind the name there is none. -/
theorem Scope.Proper.occurrences_opening {s : Scope} (h : s.Proper) :
    occurrences enumKeyword (s.opening ++ ['\x7b']) = if s.isEnum then 1 else 0 := by
  have hname : ' ' ∉ s.name.toList ++ ['\x7b'] := by simp [h.space_not_mem_name]
  rw [enumKeyword_eq, opening, List.append_assoc,
    occurrences_flatMap_end (by decide) hname s.space_not_mem_keyword]
  cases s with
  | namespaceOf n =>
    rw [keywords, isEnum, if_neg Bool.false_ne_true]
    decide
  | classOf a isPartial n =>
    rw [keywords, isEnum, if_neg Bool.false_ne_true]
    cases a <;> cases isPartial <;> decide
  | enumOf a n =>
    rw [keywords, isEnum, if_pos rfl]
    cases a <;> decide

/-! ## 6. The text of a checked declaration -/

namespace Checked

open Declaration

variable {α : Type} [Named α]

theorem bare_of_mem_openings (c : Checked α) : ∀ o ∈ c.declaration.openings, Bare o := by
  intro o ho
  have hplain := c.plain_of_mem_openings o ho
  exact ⟨hplain.not_mem (by decide) (by decide) (by decide),
    hplain.not_mem (by decide) (by decide) (by decide),
    hplain.not_mem (by decide) (by decide) (by decide)⟩

theorem bare_of_mem_valueLines (c : Checked α) :
    ∀ l ∈ valueLines c.declaration.names, Bare l := fun l hl =>
  ⟨c.not_mem_valueLines (by decide) (by decide) l hl,
    c.not_mem_valueLines (by decide) (by decide) l hl,
    c.not_mem_valueLines (by decide) (by decide) l hl⟩

theorem toList_code (c : Checked α) :
    c.code.toList = c.declaration.lines.flatMap (· ++ ['\n']) :=
  String.toList_ofList

/-- How often a character occurs that is neither a tab nor a line end, and in no opening: in the
braces around the scopes, and in the lines of the values. -/
theorem count_code (c : Checked α) {ch : Char} (htab : ch ≠ '\t') (hend : ch ≠ '\n')
    (hno : ∀ o ∈ c.declaration.openings, ch ∉ o) :
    c.code.toList.count ch = c.declaration.depth * ['\x7b'].count ch +
      ((valueLines c.declaration.names).map (List.count ch)).sum +
        c.declaration.depth * ['\x7d'].count ch := by
  have hopenings : ∀ o ∈ c.declaration.openings,
      (o ++ ['\x7b']).count ch = ['\x7b'].count ch := fun o ho => by
    rw [List.count_append, List.count_eq_zero.mpr (hno o ho), Nat.zero_add]
  rw [c.toList_code, count_flatMap_lines hend, lines_eq_block,
    sum_block fun k l => count_indented htab k l, sum_map_eq_mul hopenings, length_openings]

theorem count_open_code (c : Checked α) : c.code.toList.count '\x7b' = c.declaration.depth := by
  have hvalues : ∀ l ∈ valueLines c.declaration.names, l.count '\x7b' = 0 := fun l hl =>
    List.count_eq_zero.mpr (c.bare_of_mem_valueLines l hl).2.1
  rw [c.count_code (by decide) (by decide) fun o ho => (c.bare_of_mem_openings o ho).2.1,
    sum_map_eq_mul hvalues]
  simp

theorem count_close_code (c : Checked α) : c.code.toList.count '\x7d' = c.declaration.depth := by
  have hvalues : ∀ l ∈ valueLines c.declaration.names, l.count '\x7d' = 0 := fun l hl =>
    List.count_eq_zero.mpr (c.bare_of_mem_valueLines l hl).2.2
  rw [c.count_code (by decide) (by decide) fun o ho => (c.bare_of_mem_openings o ho).2.2,
    sum_map_eq_mul hvalues]
  simp

theorem comma_not_mem_opening (c : Checked α) : ∀ o ∈ c.declaration.openings, ',' ∉ o :=
  fun o ho => (c.plain_of_mem_openings o ho).not_mem (by decide) (by decide) (by decide)

theorem count_comma_code (c : Checked α) :
    c.code.toList.count ',' = c.declaration.names.length - 1 := by
  rw [c.count_code (by decide) (by decide) c.comma_not_mem_opening,
    sum_count_comma c.comma_not_mem_name]
  simp

/-- The keyword of the enum does not occur in the lines of the values. -/
theorem occurrences_of_mem_valueLines (c : Checked α) :
    ∀ l ∈ valueLines c.declaration.names, occurrences enumKeyword l = 0 := by
  intro l hl
  have hspace : ' ' ∉ l := c.not_mem_valueLines (by decide) (by decide) l hl
  exact occurrences_eq_zero (by decide) hspace

/-- **The innermost opening, and no other, holds the keyword of the enum.** -/
theorem exists_openings_eq (c : Checked α) : ∃ outer e, c.declaration.openings = outer ++ [e] ∧
    (∀ o ∈ outer, occurrences enumKeyword (o ++ ['\x7b']) = 0) ∧
    occurrences enumKeyword (e ++ ['\x7b']) = 1 := by
  obtain ⟨outer, e, hscopes, houter, he⟩ := exists_scopes_eq c.declaration
  have hproper : ∀ s ∈ outer ++ [e], s.Proper := hscopes ▸ fun s hs => proper_of_mem_scopes c hs
  refine ⟨outer.map Scope.opening, e.opening, ?_, ?_, ?_⟩
  · rw [openings_eq_map, hscopes, List.map_append, List.map_singleton]
  · intro o ho
    obtain ⟨s, hs, rfl⟩ := List.mem_map.mp ho
    rw [(hproper s (List.mem_append_left _ hs)).occurrences_opening, houter s hs]
    rfl
  · rw [(hproper e (List.mem_append_right _ List.mem_cons_self)).occurrences_opening, he,
      if_pos rfl]

theorem occurrences_code (c : Checked α) : occurrences enumKeyword c.code.toList = 1 := by
  obtain ⟨outer, e, hopenings, houter, he⟩ := c.exists_openings_eq
  have hclosing : occurrences enumKeyword ['\x7d'] = 0 := by decide
  rw [c.toList_code, occurrences_flatMap (by decide) (by decide), lines_eq_block,
    sum_block occurrences_indented, sum_map_eq_mul c.occurrences_of_mem_valueLines, hopenings,
    List.map_append, List.sum_append, sum_map_eq_mul houter, hclosing, List.map_singleton,
    List.sum_singleton, he]
  simp

/-- **Where the values stand**: behind the openings and in front of the closings. -/
theorem exists_lines_eq (c : Checked α) : ∃ k before after,
    c.declaration.lines = before ++ valuePart c.code ++ after ∧
    valuePart c.code = (valueLines c.declaration.names).map (indented k) ∧
    (∀ l ∈ before, ∃ j, ∃ o ∈ c.declaration.openings, l = indented j (o ++ ['\x7b'])) ∧
    ∀ l ∈ after, ∃ j, l = indented j ['\x7d'] := by
  obtain ⟨outer, e, hopenings, houter, he⟩ := c.exists_openings_eq
  obtain ⟨k, before, after, hlines, hbefore, hafter⟩ :=
    block_concat (valueLines c.declaration.names) e outer 0
  rw [← hopenings] at hlines
  -- the lines in front of the enum do not hold its keyword, and that of the enum does
  have hfront : ∀ l ∈ before, (occurrences enumKeyword l == 0) = true := by
    intro l hl
    obtain ⟨j, o, ho, rfl⟩ := hbefore l hl
    rw [occurrences_indented, houter o ho]
    rfl
  have henum : ¬ (occurrences enumKeyword (indented k (e ++ ['\x7b'])) == 0) = true := by
    rw [occurrences_indented, he]
    decide
  -- and the first brace that closes stands behind the last value
  have hvalues : ∀ l ∈ (valueLines c.declaration.names).map (indented (k + 1)),
      (!l.contains '\x7d') = true := by
    intro l hl
    obtain ⟨b, hb, rfl⟩ := List.mem_map.mp hl
    have hno := (c.bare_of_mem_valueLines b hb).2.2
    simp [indented, hno]
  have hpart : valuePart c.code = (valueLines c.declaration.names).map (indented (k + 1)) := by
    rw [valuePart, c.linesOf_code, lines_eq_block, hlines, List.dropWhile_append_of_pos hfront,
      List.dropWhile_cons, if_neg henum, List.tail_cons, List.takeWhile_append_of_pos hvalues,
      List.takeWhile_cons_of_neg (by simp [indented]), List.append_nil]
  refine ⟨k + 1, before ++ [indented k (e ++ ['\x7b'])], indented k ['\x7d'] :: after,
    ?_, hpart, ?_, ?_⟩
  · rw [lines_eq_block, hlines, hpart]
    simp
  · intro l hl
    rw [hopenings]
    rcases List.mem_append.mp hl with hl | hl
    · obtain ⟨j, o, ho, rfl⟩ := hbefore l hl
      exact ⟨j, o, List.mem_append_left _ ho, rfl⟩
    · exact ⟨k, e, by simp, List.mem_singleton.mp hl⟩
  · intro l hl
    rcases List.mem_cons.mp hl with rfl | hl
    · exact ⟨k, rfl⟩
    · exact hafter l hl

/-- A line opens a scope, holds a value or closes a scope. -/
theorem mem_lines_cases (c : Checked α) {l : List Char} (h : l ∈ c.declaration.lines) :
    ∃ k, (∃ o ∈ c.declaration.openings, l = indented k (o ++ ['\x7b'])) ∨
      (l ∈ valuePart c.code ∧ ∃ b ∈ valueLines c.declaration.names, l = indented k b) ∨
      l = indented k ['\x7d'] := by
  obtain ⟨k, before, after, hlines, hpart, hbefore, hafter⟩ := c.exists_lines_eq
  rw [hlines, List.mem_append, List.mem_append] at h
  rcases h with (h | h) | h
  · obtain ⟨j, hj⟩ := hbefore l h
    exact ⟨j, Or.inl hj⟩
  · obtain ⟨b, hb, rfl⟩ := List.mem_map.mp (hpart ▸ h)
    exact ⟨k, Or.inr (Or.inl ⟨h, b, hb, rfl⟩)⟩
  · obtain ⟨j, hj⟩ := hafter l h
    exact ⟨j, Or.inr (Or.inr hj)⟩

theorem open_last_of_mem (c : Checked α) : ∀ l ∈ c.declaration.lines, '\x7b' ∉ l.dropLast := by
  intro l hl
  obtain ⟨k, ⟨o, ho, rfl⟩ | ⟨-, b, hb, rfl⟩ | rfl⟩ := c.mem_lines_cases hl
  · rw [indented, ← List.append_assoc, List.dropLast_concat]
    exact not_mem_indented (by decide) (c.bare_of_mem_openings o ho).2.1 k
  · have hno := not_mem_indented (by decide) (c.bare_of_mem_valueLines b hb).2.1 k
    exact fun hmem => hno (List.dropLast_subset _ hmem)
  · have hno : '\x7b' ∉ indented k ['\x7d'] := not_mem_indented (by decide) (by decide) k
    exact fun hmem => hno (List.dropLast_subset _ hmem)

theorem close_alone_of_mem (c : Checked α) : ∀ l ∈ c.declaration.lines, '\x7d' ∈ l →
    ∃ k, l = List.replicate k '\t' ++ ['\x7d'] := by
  intro l hl hmem
  obtain ⟨k, ⟨o, ho, rfl⟩ | ⟨-, b, hb, rfl⟩ | rfl⟩ := c.mem_lines_cases hl
  · have hno : '\x7d' ∉ o ++ ['\x7b'] := by simp [(c.bare_of_mem_openings o ho).2.2]
    exact absurd hmem (not_mem_indented (by decide) hno k)
  · exact absurd hmem (not_mem_indented (by decide) (c.bare_of_mem_valueLines b hb).2.2 k)
  · exact ⟨k, rfl⟩

/-- A comma is the last character of the line of a value. -/
theorem comma_last_of_mem (c : Checked α) : ∀ l ∈ c.declaration.lines,
    ',' ∉ l.dropLast ∧ (',' ∈ l → l ∈ valuePart c.code) := by
  intro l hl
  obtain ⟨k, ⟨o, ho, rfl⟩ | ⟨hpart, b, hb, rfl⟩ | rfl⟩ := c.mem_lines_cases hl
  · have hopening : ',' ∉ o ++ ['\x7b'] := by simp [c.comma_not_mem_opening o ho]
    have hno := not_mem_indented (by decide) hopening k
    exact ⟨fun hmem => hno (List.dropLast_subset _ hmem), fun hmem => absurd hmem hno⟩
  · refine ⟨?_, fun _ => hpart⟩
    obtain ⟨n, hn, rfl | rfl⟩ := mem_valueLines hb
    · have hno := not_mem_indented (by decide) (c.comma_not_mem_name n hn) k
      exact fun hmem => hno (List.dropLast_subset _ hmem)
    · rw [indented, ← List.append_assoc, List.dropLast_concat]
      exact not_mem_indented (by decide) (c.comma_not_mem_name n hn) k
  · have hno : ',' ∉ indented k ['\x7d'] := not_mem_indented (by decide) (by decide) k
    exact ⟨fun hmem => hno (List.dropLast_subset _ hmem), fun hmem => absurd hmem hno⟩

theorem nested_lines (c : Checked α) : Nested 0 c.declaration.lines := by
  have h : Nested 0 (c.declaration.lines ++ []) ↔ Nested 0 [] := by
    rw [lines_eq_block]
    exact nested_block c.bare_of_mem_valueLines c.bare_of_mem_openings
  rw [List.append_nil] at h
  exact h.mpr rfl

/-- The lines of the values are the names with their commas, the tabs apart. -/
theorem map_valuePart (c : Checked α) :
    (valuePart c.code).map (List.dropWhile (· == '\t')) = valueLines c.declaration.names := by
  obtain ⟨k, before, after, hlines, hpart, hbefore, hafter⟩ := c.exists_lines_eq
  rw [hpart, List.map_map]
  refine (List.map_congr_left fun l hl => ?_).trans (List.map_id _)
  exact dropWhile_indented (c.bare_of_mem_valueLines l hl).1 k

/-- Of the control characters only tabs and line ends occur. -/
theorem controls_code (c : Checked α) : ∀ ch ∈ c.code.toList,
    Unicode.control.has ch = true → ch = '\t' ∨ ch = '\n' := by
  intro ch hch hcontrol
  have hbarred := Identifier.barred_of_control hcontrol
  have hne : ∀ c', Unicode.control.has c' = false → ch ≠ c' := by
    rintro c' hc' rfl
    rw [hcontrol] at hc'
    cases hc'
  rw [c.toList_code] at hch
  obtain ⟨l, hl, hch⟩ := List.mem_flatMap.mp hch
  rcases List.mem_append.mp hch with hch | hch
  · refine Or.inl (by_contra fun htab => ?_)
    obtain ⟨k, ⟨o, ho, rfl⟩ | ⟨-, b, hb, rfl⟩ | rfl⟩ := c.mem_lines_cases hl
    · have hno : ch ∉ o := (c.plain_of_mem_openings o ho).not_mem hbarred (hne '.' (by decide))
        (hne ' ' (by decide))
      simp [indented, htab, hno, hne '\x7b' (by decide)] at hch
    · have hno : ch ∉ b := c.not_mem_valueLines hbarred (hne ',' (by decide)) b hb
      simp [indented, htab, hno] at hch
    · simp [indented, htab, hne '\x7d' (by decide)] at hch
  · exact Or.inr (List.mem_singleton.mp hch)

/-- **The text of a checked declaration is one well-nested block.** -/
theorem code_layout (c : Checked α) : Layout c.declaration.depth c.declaration.names c.code where
  ended := by rw [c.linesOf_code, c.toList_code]
  length_lines := by
    rw [c.linesOf_code, lines_eq_block, length_block, length_openings, length_valueLines]
  count_open := c.count_open_code
  open_last := by
    rw [c.linesOf_code]
    exact c.open_last_of_mem
  count_close := c.count_close_code
  close_alone := by
    rw [c.linesOf_code]
    exact c.close_alone_of_mem
  count_comma := c.count_comma_code
  comma_last := fun l hl => (c.comma_last_of_mem l (c.linesOf_code ▸ hl)).1
  comma_value := fun l hl => (c.comma_last_of_mem l (c.linesOf_code ▸ hl)).2
  nested := by
    rw [c.linesOf_code]
    exact c.nested_lines
  one_enum := c.occurrences_code
  values := by rw [c.map_valuePart, valueLines_eq_mapIdx]
  controls := c.controls_code

end Checked
end EnumAssets
