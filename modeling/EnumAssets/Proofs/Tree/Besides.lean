/-
# Trees that differ in files with an ending

Two trees agree `Besides` an ending if they list the same entries in the same order, the files apart
whose names end so.  Such files are no directories, so the directories are the same and every path
has the same place; only what is found at a place may differ, and only if it is `Spare`: a file with
the ending, or nothing.  So a path with another name leads to the same content
(`Besides.content?_eq`).

Writing such a file makes trees that agree besides its ending (`besides_of_writeFile`): a new one is
listed behind the others, and an old one keeps its position.
-/
import EnumAssets.Proofs.Tree.Name

namespace EnumAssets.Tree

variable {t t' t'' : Tree} {ending : Bytes} {loc : Location} {node : Node} {p : Path}

/-! ## 1. Files with an ending -/

/-- Whether an entry is a file whose name has an ending. -/
def endsIn (ending : Bytes) : Location × Node → Bool
  | (n :: _, .file _) => ending.isSuffixOf n
  | _ => false

/-- The entries of a tree that are no files with an ending. -/
def others (t : Tree) (ending : Bytes) : Nodes :=
  t.nodes.filter fun entry => !endsIn ending entry

/-- Whether two trees differ in no more than files with an ending. -/
structure Besides (ending : Bytes) (t t' : Tree) : Prop where
  workingDirectory_eq : t'.workingDirectory = t.workingDirectory
  others_eq : t'.others ending = t.others ending

theorem Besides.refl (ending : Bytes) (t : Tree) : t.Besides ending t :=
  ⟨rfl, rfl⟩

theorem Besides.trans (h : t.Besides ending t') (h' : t'.Besides ending t'') :
    t.Besides ending t'' :=
  ⟨h'.workingDirectory_eq.trans h.workingDirectory_eq, h'.others_eq.trans h.others_eq⟩

/-! ## 2. What is at a location -/

/-- **What is no file with the ending** is at the same location in both trees. -/
theorem Besides.at?_eq_some_iff (h : t.Besides ending t')
    (hother : endsIn ending (loc, node) = false) :
    t'.at? loc = some node ↔ t.at? loc = some node := by
  cases loc with
  | nil => exact Iff.rfl
  | cons n parent =>
    have hmem : ∀ t : Tree,
        (n :: parent, node) ∈ t.nodes ↔ (n :: parent, node) ∈ t.others ending := by
      intro t
      rw [others, List.mem_filter, hother]
      exact (and_iff_left rfl).symm
    rw [at?_cons_eq_some_iff, at?_cons_eq_some_iff, hmem, hmem, h.others_eq]

theorem Besides.isDirectoryAt_eq (h : t.Besides ending t') (loc : Location) :
    t'.isDirectoryAt loc = t.isDirectoryAt loc := by
  have hother : endsIn ending (loc, .directory) = false := by cases loc <;> rfl
  rw [Bool.eq_iff_iff, isDirectoryAt_iff, isDirectoryAt_iff, h.at?_eq_some_iff hother]

theorem Besides.sameDirectories (h : t.Besides ending t') : t.SameDirectories t' :=
  ⟨h.workingDirectory_eq, h.isDirectoryAt_eq⟩

theorem Besides.linkFree (h : t.Besides ending t') (hfree : t.LinkFree) : t'.LinkFree := by
  intro loc target hlink
  have hother : endsIn ending (loc, .link target) = false := by cases loc <;> rfl
  exact hfree loc target ((h.at?_eq_some_iff hother).mp hlink)

/-- Whether a location holds nothing, or a file with an ending. -/
def Spare (ending : Bytes) (t : Tree) (loc : Location) : Prop :=
  ∀ node, t.at? loc = some node → endsIn ending (loc, node) = true

/-- **A location holds the same in both trees, or is spare in both.** -/
theorem Besides.same_or_spare (h : t.Besides ending t') (loc : Location) :
    (t'.at? loc = t.at? loc ∧ t.at? loc ≠ none) ∨ (t.Spare ending loc ∧ t'.Spare ending loc) := by
  by_cases hspare : t.Spare ending loc
  · refine Or.inr ⟨hspare, fun node hat => ?_⟩
    rw [← Bool.not_eq_false]
    intro hother
    rw [hspare node ((h.at?_eq_some_iff hother).mp hat)] at hother
    cases hother
  · rw [Spare] at hspare
    push Not at hspare
    obtain ⟨node, hat, hother⟩ := hspare
    rw [Ne, Bool.not_eq_true] at hother
    refine Or.inl ⟨?_, by rw [hat]; exact Option.some_ne_none _⟩
    rw [hat, (h.at?_eq_some_iff hother).mpr hat]

/-- What is at a spare location is a file that is named with the ending. -/
theorem Spare.exists_file (h : t.Spare ending loc) (hat : t.at? loc = some node) :
    ∃ n parent content, loc = n :: parent ∧ ending <:+ n ∧ node = .file content := by
  have hends := h node hat
  unfold endsIn at hends
  split at hends
  · next n parent content heq =>
    cases heq
    exact ⟨n, parent, content, rfl, List.isSuffixOf_iff_suffix.mp hends, rfl⟩
  · cases hends

theorem Spare.isDirectoryAt_eq (h : t.Spare ending loc) : t.isDirectoryAt loc = false := by
  rw [← Bool.not_eq_true, isDirectoryAt_iff]
  intro hat
  obtain ⟨-, -, content, -, -, hfile⟩ := h.exists_file hat
  cases hfile

/-! ## 3. Children -/

/-- The children that are no files with the ending are among the entries that are none. -/
theorem filter_children (t : Tree) (ending : Bytes) (loc : Location) :
    ((t.children loc).filter fun child => !endsIn ending (child.1 :: loc, child.2)) =
      (t.others ending).filterMap fun entry =>
        match entry with
        | (n :: parent, node) => if parent = loc then some (n, node) else none
        | _ => none := by
  rw [children, others]
  induction t.nodes with
  | nil => rfl
  | cons entry rest ih =>
    obtain ⟨l, node⟩ := entry
    rw [List.filterMap_cons, List.filter_cons]
    cases l with
    | nil =>
      rw [ih]
      split <;> rfl
    | cons n parent =>
      by_cases hparent : parent = loc
      · subst hparent
        simp only [if_true]
        rw [List.filter_cons, ih]
        split
        · rw [List.filterMap_cons]
          simp only [if_true]
        · rfl
      · simp only [if_neg hparent]
        rw [ih]
        split
        · rw [List.filterMap_cons]
          simp only [if_neg hparent]
        · rfl

theorem Besides.filter_children_eq (h : t.Besides ending t') (loc : Location) :
    ((t'.children loc).filter fun child => !endsIn ending (child.1 :: loc, child.2)) =
      (t.children loc).filter fun child => !endsIn ending (child.1 :: loc, child.2) := by
  rw [filter_children, filter_children, h.others_eq]

/-! ## 4. Contents -/

/-- **A place that is no directory** has the file name of each path that leads there. -/
theorem exists_fileName_of_place? (hfree : t.LinkFree) (h : t.place? p = some loc)
    (hdir : t.isDirectoryAt loc = false) : ∃ n parent, loc = n :: parent ∧ p.fileName = some n := by
  obtain ⟨n, parent, hloc, hlast, hn⟩ := getLast?_steps_of_place? hfree h hdir
  exact ⟨n, parent, hloc, Path.fileName_eq hlast hn.ne_dot hn.ne_dots⟩

/-- **A path to another name** leads to the same content in both trees. -/
theorem Besides.content?_eq (h : t.Besides ending t') (hfree : t.LinkFree)
    (hname : ∀ n, p.fileName = some n → ¬ ending <:+ n) : t'.content? p = t.content? p := by
  have hplace : t'.place? p = t.place? p :=
    h.sameDirectories.place?_eq hfree (h.linkFree hfree) p
  refine Option.ext fun content => ?_
  rw [content?_eq_some_iff, content?_eq_some_iff, hplace]
  refine exists_congr fun loc => and_congr_right fun hloc => ?_
  rcases h.same_or_spare loc with ⟨hsame, -⟩ | ⟨hspare, hspare'⟩
  · rw [hsame]
  · obtain ⟨n, parent, rfl, hfile⟩ := exists_fileName_of_place? hfree hloc hspare.isDirectoryAt_eq
    have hno : ∀ {t : Tree}, t.Spare ending (n :: parent) →
        t.at? (n :: parent) ≠ some (.file content) := by
      intro t hspare hat
      obtain ⟨m, outer, -, hm, hends, -⟩ := hspare.exists_file hat
      obtain ⟨rfl, -⟩ := List.cons.inj hm
      exact hname n hfile hends
    exact iff_of_false (hno hspare') (hno hspare)

/-! ## 5. Writing -/

theorem others_replace {content old : Bytes} {n : Name} {parent : Location}
    (hold : t.at? (n :: parent) = some (.file old)) (hends : ending <:+ n) :
    ((t.nodes.replace (n :: parent) (.file content)).filter fun entry => !endsIn ending entry) =
      t.others ending := by
  have hfile : ∀ content, endsIn ending (n :: parent, .file content) = true :=
    fun _ => List.isSuffixOf_iff_suffix.mpr hends
  have hentry : ∀ entry ∈ t.nodes, entry.1 = n :: parent → endsIn ending entry = true := by
    rintro ⟨l, node⟩ hmem rfl
    have hat := at?_cons_eq_some_iff.mpr hmem
    rw [hold] at hat
    rw [← Option.some.inj hat]
    exact hfile old
  rw [Nodes.replace, List.filter_map, others]
  have hsame : (t.nodes.filter ((fun entry => !endsIn ending entry) ∘ fun entry =>
      if entry.1 = n :: parent then (n :: parent, .file content) else entry)) =
      t.nodes.filter fun entry => !endsIn ending entry := by
    refine List.filter_congr fun entry hmem => ?_
    rw [Function.comp_apply]
    split
    · next hloc => rw [hfile, hentry entry hmem hloc]
    · rfl
  rw [hsame]
  refine (List.map_congr_left fun entry hmem => ?_).trans (List.map_id _)
  obtain ⟨hmem, hother⟩ := List.mem_filter.mp hmem
  refine if_neg fun hloc => ?_
  rw [hentry entry hmem hloc] at hother
  cases hother

/-- **Writing a file with the ending** changes nothing besides. -/
theorem besides_of_writeFile {content : Bytes} (h : t.writeFile p content = some t')
    (hname : ∀ n parent, t.place? p = some (n :: parent) → ending <:+ n) : t.Besides ending t' := by
  rw [writeFile] at h
  split at h
  · next loc links hlook =>
    have hplace := place?_of_lookup_found hlook
    obtain ⟨⟨old, hold⟩, hnodes, hwd⟩ := setContent_eq_some h
    cases loc with
    | nil => cases hold
    | cons n parent =>
      refine ⟨hwd, ?_⟩
      rw [others, hnodes]
      exact others_replace hold (hname n parent hplace)
  · next loc hlook =>
    obtain ⟨hnodes, -, hwd⟩ := create_eq_some h
    cases loc with
    | nil => exact absurd rfl (create_ne_root h)
    | cons n parent =>
      have hends : endsIn ending (n :: parent, .file content) = true :=
        List.isSuffixOf_iff_suffix.mpr (hname n parent (place?_of_lookup_free hlook))
      refine ⟨hwd, ?_⟩
      rw [others, hnodes, List.filter_append, others, List.filter_singleton, hends]
      exact List.append_nil _
  · cases h

end EnumAssets.Tree
