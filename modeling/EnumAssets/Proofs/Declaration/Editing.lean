/-
# Values that only their names tell apart

A value is more than its name, but nothing that is made of a declaration sees more of it.  So at any
point of a sequence of edits each value may be replaced by a plain one with the same name, and no
later edit brings the difference out again.  A reference to a prefab may take the place as well if
the name is an identifier: then it has no slash, no dot and no white space, so it is the stem of
itself (`name_object`). Other names are changed on this way.

Two declarations are `Alike` if they have the same header and the same names.  An edit takes alike
declarations to alike ones (`Alike.edit`), whatever their values are, so a sequence of edits does
too (`Alike.edits`); and what is shown of alike declarations is the same (`Alike.showsSame`).  What
is left is that the two replacements make alike declarations.
-/
import EnumAssets.Declaration.Code
import EnumAssets.Declaration.Edit
import EnumAssets.Proofs.Object

namespace EnumAssets

/-! ## 1. Objects with the name of a value -/

/-- **An object whose path is an identifier** has this identifier as its name. -/
theorem name_object {n : String} (h : Identifier.isIdentifier n = true) (kind : ObjectKind) :
    name (⟨kind, .ofText n⟩ : ObjectRef) = n := by
  have hslash : Path.slash ∉ Utf8.encode n := fun hmem =>
    Identifier.not_mem_of_barred h (by decide) (Path.slash_mem_encode_iff.mp hmem)
  have hjoin : (⟨[]⟩ : Path).join (.ofText n) = .ofText n := by
    rw [Path.join, Path.ofText, Path.isAbsolute_eq_false hslash]
    rfl
  rw [← hjoin]
  exact ObjectRef.name_inDirectory_of_isIdentifier h kind ⟨[]⟩

namespace Declaration

variable {α β : Type}

/-! ## 2. What is shown of a declaration -/

/-- All of a declaration but its values. -/
def header (d : Declaration α) : Declaration Empty :=
  d.withValues []

variable [Named α] [Named β] {d : Declaration α} {d' : Declaration β}

/-- Whether the same is shown of two declarations: by themselves, by the report on them, and by the
text that is made of them, with or without a check. -/
structure ShowsSame (d : Declaration α) (d' : Declaration β) : Prop where
  header_eq : d.header = d'.header
  names_eq : d.names = d'.names
  defects_eq : d.defects = d'.defects
  messages_eq : d.messages = d'.messages
  code_eq : d.code = d'.code
  checked_eq : d.check.map Checked.code = d'.check.map Checked.code

/-- Whether two declarations differ in no more than what their values are beside their names. -/
structure Alike (d : Declaration α) (d' : Declaration β) : Prop where
  header_eq : d.header = d'.header
  names_eq : d.names = d'.names

/-- The report sees the header and the names. -/
theorem defects_eq_header (d : Declaration α) :
    d.defects = d.header.fileNameDefects ++ d.header.namespaceDefects ++ d.header.classDefects ++
      (report (!Identifier.isIdentifier d.header.enumName) (.invalidEnumName d.header.enumName) ++
        report (!d.header.hasClass && !d.header.enumAccess.isOpen)
          (.enumAccess d.header.enumAccess) ++
        report d.names.isEmpty .noValues) ++
      invalidNames 0 d.names ++ duplicates 0 d.names := by
  rw [defects, enumDefects, names, List.isEmpty_map]
  rfl

/-- So does the text. -/
theorem lines_eq_header (d : Declaration α) :
    d.lines =
      ((valueLines d.names).foldl Draft.line (d.header.openings.foldl Draft.enter {})).close :=
  rfl

/-- The text of a declaration that is checked first. -/
theorem map_code_check (d : Declaration α) :
    d.check.map Checked.code = if d.defects = [] then .ok d.code else .error d.defects := by
  rw [check]
  split
  · rfl
  · rfl

/-- **The same is shown of alike declarations.** -/
theorem Alike.showsSame (h : d.Alike d') : d.ShowsSame d' := by
  have hdefects : d.defects = d'.defects := by
    rw [defects_eq_header, defects_eq_header, h.header_eq, h.names_eq]
  have hcode : d.code = d'.code := by
    rw [code, code, lines_eq_header, lines_eq_header, h.header_eq, h.names_eq]
  refine ⟨h.header_eq, h.names_eq, hdefects, ?_, hcode, ?_⟩
  · rw [messages, messages, hdefects]
  · rw [map_code_check, map_code_check, hdefects, hcode]

/-! ## 3. Edits -/

variable {e e' : Declaration Entry}

theorem names_map {f : Entry → Entry} {g : String → String} (h : ∀ v, name (f v) = g (name v))
    (e : Declaration Entry) : (e.mapValues f).names = e.names.map g := by
  rw [names, names, mapValues, withValues_values, List.map_map, List.map_map]
  exact List.map_congr_left fun v _ => h v

/-- **An edit keeps declarations alike.**  What it does to the names depends on the names alone. -/
theorem Alike.edit (h : e.Alike e') : ∀ step, (e.edit step).Alike (e'.edit step)
  | .withNamespace n => ⟨congrArg (·.withNamespace n) h.header_eq, h.names_eq⟩
  | .withClass n access isPartial =>
    ⟨congrArg (·.withClass n access isPartial) h.header_eq, h.names_eq⟩
  | .withEnumAccess access => ⟨congrArg (·.withEnumAccess access) h.header_eq, h.names_eq⟩
  | .setFileName n => ⟨congrArg ({ · with fileName := n }) h.header_eq, h.names_eq⟩
  | .setEnumName n => ⟨congrArg ({ · with enumName := n }) h.header_eq, h.names_eq⟩
  | .withValues vs => ⟨h.header_eq, rfl⟩
  | .push v => by
    refine ⟨h.header_eq, ?_⟩
    have happend : ∀ e : Declaration Entry, (e.edit (.push v)).names = e.names ++ [name v] :=
      fun e => List.map_append
    rw [happend, happend, h.names_eq]
  | .pop => by
    refine ⟨h.header_eq, ?_⟩
    have hdrop : ∀ e : Declaration Entry, (e.edit .pop).names = e.names.dropLast :=
      fun e => List.map_dropLast
    rw [hdrop, hdrop, h.names_eq]
  | .toPlain => by
    refine ⟨h.header_eq, ?_⟩
    have hmap := names_map (f := Entry.plainOf) (g := id) fun _ => rfl
    rw [Declaration.edit, Declaration.edit, hmap, hmap, h.names_eq]
  | .toPrefab => by
    refine ⟨h.header_eq, ?_⟩
    have hmap := names_map (f := Entry.prefabOf)
      (g := fun n => name (⟨.prefab, .ofText n⟩ : ObjectRef)) fun _ => rfl
    rw [Declaration.edit, Declaration.edit, hmap, hmap, h.names_eq]

/-- **A sequence of edits keeps declarations alike.** -/
theorem Alike.edits (steps : List Edit) : ∀ {e e' : Declaration Entry}, e.Alike e' →
    (e.edits steps).Alike (e'.edits steps) := by
  induction steps with
  | nil => exact fun h => h
  | cons step rest ih => exact fun h => ih (h.edit step)

theorem edits_append (e : Declaration Entry) (before after : List Edit) :
    e.edits (before ++ after) = (e.edits before).edits after :=
  List.foldl_append

/-- Plain values with the same names make no difference. -/
theorem alike_toPlain (e : Declaration Entry) : e.Alike (e.edit .toPlain) :=
  ⟨rfl, (names_mapValues (f := Entry.plainOf) (fun _ => rfl) e).symm⟩

/-- Nor do prefabs with these names, as long as these are identifiers. -/
theorem alike_toPrefab (h : ∀ n ∈ e.names, Identifier.isIdentifier n = true) :
    e.Alike (e.edit .toPrefab) := by
  refine ⟨rfl, ?_⟩
  have hmap := names_map (f := Entry.prefabOf)
    (g := fun n => name (⟨.prefab, .ofText n⟩ : ObjectRef)) (fun _ => rfl) e
  rw [Declaration.edit, hmap]
  exact (List.map_id e.names).symm.trans
    (List.map_congr_left fun n hn => (name_object (h n hn) .prefab).symm)

/-- **A change of representation does not show**, wherever in a sequence of edits it is made: the
same is shown after it and after every later edit. -/
theorem showsSame_of_representation (fileName enumName : String) (before after : List Edit) :
    ((start fileName enumName).edits (before ++ after)).ShowsSame
        ((start fileName enumName).edits (before ++ .toPlain :: after)) ∧
      ((∀ n ∈ ((start fileName enumName).edits before).names, Identifier.isIdentifier n = true) →
        ((start fileName enumName).edits (before ++ after)).ShowsSame
          ((start fileName enumName).edits (before ++ .toPrefab :: after))) := by
  rw [edits_append, edits_append, edits_append]
  constructor
  · exact (Alike.edits after (alike_toPlain _)).showsSame
  · exact fun hnames => (Alike.edits after (alike_toPrefab hnames)).showsSame

theorem showsSame_of_reserved_word :
    (∀ n ∈ ((start "words" "Word").edits [.push (.plain "größe"), .push (.plain "@class")]).names,
        Identifier.isIdentifier n = true) ∧
      ((start "words" "Word").edits
        ([.push (.plain "größe"), .push (.plain "@class")] ++ [.setEnumName "W", .pop])).ShowsSame
          ((start "words" "Word").edits
            ([.push (.plain "größe"), .push (.plain "@class")] ++
              .toPrefab :: [.setEnumName "W", .pop])) := by
  have hnames : ∀ n ∈ ((start "words" "Word").edits
      [.push (.plain "größe"), .push (.plain "@class")]).names,
      Identifier.isIdentifier n = true := by decide +kernel
  exact ⟨hnames, (showsSame_of_representation "words" "Word" _ _).2 hnames⟩

/-- A name that is no identifier does not survive as a path. -/
example : name (Entry.prefabOf (.plain "v1.2 beta")) = "v1" := by decide

end Declaration
end EnumAssets
