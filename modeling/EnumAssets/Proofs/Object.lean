/-
# The names of objects

An object is shown by the stem of its file, and the value that is named after it has the same name
without white space.  Where the file lies, which kind of object it is and what its extension is
makes no difference (`name_of_stem`); and an identifier is its own name, with an extension behind it
or without one.

A stem need not be a text.  If it is none, a U+FFFD is shown in the place of what cannot be read.
White space is all that is taken out of the name, so the U+FFFD stays in it, and no identifier has
one: such a value is always refused (`refused_of_undecodable`).
-/
import EnumAssets.Proofs.Declaration.Diagnosis
import EnumAssets.Proofs.Identifier.Characters
import EnumAssets.Proofs.Path.Stem
import EnumAssets.Proofs.Text.Pieces

namespace EnumAssets

/-! ## 1. Characters of names -/

theorem withoutSpace_eq_self {s : String} (h : ∀ c ∈ s.toList, Unicode.whiteSpace.has c = false) :
    withoutSpace s = s := by
  have hfilter : (s.toList.filter fun c => !Unicode.whiteSpace.has c) = s.toList :=
    List.filter_eq_self.mpr fun c hc => by rw [h c hc]; rfl
  rw [withoutSpace, hfilter, String.ofList_toList]

theorem mem_withoutSpace {s : String} {c : Char} :
    c ∈ (withoutSpace s).toList ↔ c ∈ s.toList ∧ Unicode.whiteSpace.has c = false := by
  rw [withoutSpace, String.toList_ofList, List.mem_filter, Bool.not_eq_true']

namespace Identifier

variable {s : String}

theorem withoutSpace_eq (h : isIdentifier s = true) : withoutSpace s = s := by
  refine withoutSpace_eq_self fun c hc => ?_
  rw [Bool.eq_false_iff]
  intro hspace
  exact not_mem_of_barred h (barred_of_whiteSpace hspace) hc

/-- The character that stands for what cannot be read is not in a name. -/
theorem replacement_not_mem (h : isIdentifier s = true) : Utf8.replacement ∉ s.toList := by
  intro hmem
  rcases isPart_of_mem h hmem with hat | hpart
  · exact absurd hat (by decide)
  · exact absurd hpart (by decide +kernel)

end Identifier

/-! ## 2. Objects whose stem is a text -/

namespace ObjectRef

/-- The object of a file in a directory. -/
def inDirectory (kind : ObjectKind) (directory : Path) (file : String) : ObjectRef :=
  ⟨kind, directory.join (.ofText file)⟩

/-- Whether a stem and an extension make up the name of a file in a directory, with a dot between
them, and this dot is the last one.  Two dots are no name of a file. -/
structure Parts (stem extension : String) : Prop where
  stem_ne : stem ≠ ""
  stem_noSlash : '/' ∉ stem.toList
  extension_noSlash : '/' ∉ extension.toList
  extension_noDot : '.' ∉ extension.toList
  ne_dots : ¬ (stem = "." ∧ extension = "")

variable {o : ObjectRef} {f e : String}

theorem displayName_of_fileStem (h : o.path.fileStem = some (Utf8.encode f)) :
    o.displayName = f := by
  rw [displayName, h]
  exact Utf8.decodeLossy_encode f

theorem name_of_fileStem (h : o.path.fileStem = some (Utf8.encode f)) : name o = withoutSpace f :=
  congrArg withoutSpace (displayName_of_fileStem h)

/-- **The stem of a file is the one that was written**, in every directory. -/
theorem fileStem_inDirectory (h : Parts f e) (kind : ObjectKind) (d : Path) :
    (inDirectory kind d (f ++ "." ++ e)).path.fileStem = some (Utf8.encode f) := by
  have hsegment : Path.IsSegment (Utf8.encode (f ++ "." ++ e)) :=
    (Path.isSegment_stem_iff h.stem_ne).mpr ⟨h.stem_noSlash, h.extension_noSlash, h.ne_dots⟩
  have hbytes : Utf8.encode (f ++ "." ++ e) = Utf8.encode f ++ Path.dot :: Utf8.encode e := by
    rw [Utf8.encode_append, Utf8.encode_append, List.append_assoc]
    rfl
  have hne : Utf8.encode f ≠ [] := fun hnil => h.stem_ne (Utf8.encode_injective hnil)
  have hdot : Path.dot ∉ Utf8.encode e := fun hmem =>
    h.extension_noDot (Path.dot_mem_encode_iff.mp hmem)
  calc (d.join (.ofText (f ++ "." ++ e))).fileStem
      = some (Path.stemOf (Utf8.encode (f ++ "." ++ e))) := Path.fileStem_join d hsegment
    _ = some (Utf8.encode f) := by rw [hbytes, Path.stemOf_append hne hdot]

/-- An identifier can stand in front of any extension. -/
theorem parts_of_isIdentifier (hf : Identifier.isIdentifier f = true) (hslash : '/' ∉ e.toList)
    (hdot : '.' ∉ e.toList) : Parts f e where
  stem_ne := by
    rintro rfl
    exact absurd hf (by decide)
  stem_noSlash := Identifier.not_mem_of_barred hf (by decide)
  extension_noSlash := hslash
  extension_noDot := hdot
  ne_dots := by
    rintro ⟨rfl, -⟩
    exact absurd hf (by decide +kernel)

/-- It can also stand alone: it has no dot, so all of it is the stem. -/
theorem fileStem_inDirectory_of_isIdentifier (hf : Identifier.isIdentifier f = true)
    (kind : ObjectKind) (d : Path) :
    (inDirectory kind d f).path.fileStem = some (Utf8.encode f) := by
  have hdot : '.' ∉ f.toList := Identifier.not_mem_of_barred hf (by decide)
  have hsegment : Path.IsSegment (Utf8.encode f) := by
    refine Path.isSegment_encode_iff.mpr
      ⟨Identifier.not_mem_of_barred hf (by decide), ?_, ?_, ?_⟩
    · rintro rfl
      exact absurd hf (by decide)
    · rintro rfl
      exact hdot (by decide)
    · rintro rfl
      exact hdot (by decide)
  have hnoDot : Path.dot ∉ Utf8.encode f := fun hmem => hdot (Path.dot_mem_encode_iff.mp hmem)
  calc (d.join (.ofText f)).fileStem
      = some (Path.stemOf (Utf8.encode f)) := Path.fileStem_join d hsegment
    _ = some (Utf8.encode f) := by rw [Path.stemOf_of_noDot hnoDot]

/-- **An object whose file has an identifier as its name** has this identifier as its name too. -/
theorem name_inDirectory_of_isIdentifier (hf : Identifier.isIdentifier f = true) (kind : ObjectKind)
    (d : Path) : name (inDirectory kind d f) = f := by
  rw [name_of_fileStem (fileStem_inDirectory_of_isIdentifier hf kind d),
    Identifier.withoutSpace_eq hf]

/-- **The name of an object is that of its stem.**  The directory, the kind and the last extension
do not show in it; and if the stem is an identifier, the name is the stem itself, even without an
extension. -/
theorem name_of_stem (f : String) :
    (∀ e, Parts f e → ∀ (kind : ObjectKind) (d : Path),
      (inDirectory kind d (f ++ "." ++ e)).displayName = f ∧
        name (inDirectory kind d (f ++ "." ++ e)) =
          String.ofList (f.toList.filter fun c => !Unicode.whiteSpace.has c)) ∧
      (∀ e e', Parts f e → Parts f e' → ∀ (kind kind' : ObjectKind) (d d' : Path),
        name (inDirectory kind d (f ++ "." ++ e)) = name (inDirectory kind' d' (f ++ "." ++ e'))) ∧
      (Identifier.isIdentifier f = true → ∀ (kind : ObjectKind) (d : Path),
        name (inDirectory kind d f) = f ∧
          ∀ e, '/' ∉ e.toList → '.' ∉ e.toList →
            name (inDirectory kind d (f ++ "." ++ e)) = f) := by
  have hname : ∀ e, Parts f e → ∀ (kind : ObjectKind) (d : Path),
      name (inDirectory kind d (f ++ "." ++ e)) = withoutSpace f := fun e h kind d =>
    name_of_fileStem (fileStem_inDirectory h kind d)
  refine ⟨fun e h kind d => ⟨?_, hname e h kind d⟩, fun e e' h h' kind kind' d d' => ?_,
    fun hf kind d => ⟨name_inDirectory_of_isIdentifier hf kind d, fun e hslash hdot => ?_⟩⟩
  · exact displayName_of_fileStem (fileStem_inDirectory h kind d)
  · rw [hname e h, hname e' h']
  · rw [hname e (parts_of_isIdentifier hf hslash hdot), Identifier.withoutSpace_eq hf]

/-- A stem with a space of another script in it, in front of two dots, moved away from a directory
whose name is no text. -/
theorem name_of_dotted_stem :
    (Parts ".Big\u2003Boom." "" ∧ Parts ".Big\u2003Boom." "wav" ∧
        Identifier.isIdentifier "größe" = true) ∧
      name (inDirectory .sprite ⟨[0xFF, 0x2F, 0x2E, 0x2E]⟩ (".Big\u2003Boom." ++ "." ++ "")) =
        ".BigBoom." ∧
      name (inDirectory .sprite ⟨[0xFF, 0x2F, 0x2E, 0x2E]⟩ (".Big\u2003Boom." ++ "." ++ "")) =
        name (inDirectory .audioClip ⟨[]⟩ (".Big\u2003Boom." ++ "." ++ "wav")) ∧
      name (inDirectory .prefab ⟨[0x2F]⟩ "größe") = "größe" := by
  have hnone : Parts ".Big\u2003Boom." "" := by constructor <;> decide
  have hwav : Parts ".Big\u2003Boom." "wav" := by constructor <;> decide
  have hname : Identifier.isIdentifier "größe" = true := by decide +kernel
  obtain ⟨hstem, hsame, -⟩ := name_of_stem ".Big\u2003Boom."
  refine ⟨⟨hnone, hwav, hname⟩, ?_, hsame _ _ hnone hwav _ _ _ _,
    ((name_of_stem "größe").2.2 hname _ _).1⟩
  exact (hstem _ hnone _ _).2.trans (by decide)

/-- The exception: behind no other stem is the empty extension a problem, but two dots are no
file. -/
example : name (inDirectory .prefab ⟨[0x2F]⟩ ("." ++ "." ++ "")) = "" := by decide

end ObjectRef

/-! ## 3. Objects whose stem is no text -/

theorem ObjectRef.replacement_mem_name {o : ObjectRef} {stem : Bytes}
    (hstem : o.path.fileStem = some stem) (hbad : ∀ s, Utf8.encode s ≠ stem) :
    Utf8.replacement ∈ (name o).toList := by
  have hshown : Utf8.replacement ∈ o.displayName.toList := by
    rw [displayName, hstem]
    exact Utf8.replacement_mem_decodeLossy hbad
  exact mem_withoutSpace.mpr ⟨hshown, by decide⟩

namespace Declaration

/-- Whether a declaration is refused because of the name at a position, which has a U+FFFD in it. -/
def RefusedAt {α : Type} [Named α] (d : Declaration α) (i : Nat) : Prop :=
  ∃ n, d.names[i]? = some n ∧ '\uFFFD' ∈ n.toList ∧ .invalidValueName i n ∈ d.defects ∧
    d.check = .error d.defects

/-- A name with a U+FFFD in it is a defect, wherever it comes from. -/
theorem refusedAt_of_replacement_mem {α : Type} [Named α] {d : Declaration α} {i : Nat} {v : α}
    (hv : d.values[i]? = some v) (hmem : Utf8.replacement ∈ (name v).toList) : d.RefusedAt i := by
  have hname : d.names[i]? = some (name v) := by rw [names, List.getElem?_map, hv, Option.map_some]
  have hbad : Identifier.isIdentifier (name v) = false := by
    rw [Bool.eq_false_iff]
    exact fun h => Identifier.replacement_not_mem h hmem
  have hdefect : Defect.invalidValueName i (name v) ∈ d.defects :=
    mem_defects_iff.mpr ⟨hname, hbad⟩
  exact ⟨name v, hname, hmem, hdefect, check_eq_error_iff.mpr ⟨rfl, List.ne_nil_of_mem hdefect⟩⟩

/-- **A value whose stem is no text is always refused**, among whatever other values it stands. -/
theorem refused_of_undecodable {o : ObjectRef} {stem : Bytes} (hstem : o.path.fileStem = some stem)
    (hbad : ∀ s, Utf8.encode s ≠ stem) (i : Nat) :
    (∀ d : Declaration Entry, d.values[i]? = some (.reference o) → d.RefusedAt i) ∧
      ∀ d : Declaration ObjectRef, d.values[i]? = some o → d.RefusedAt i := by
  have hmem := o.replacement_mem_name hstem hbad
  exact ⟨fun d hv => refusedAt_of_replacement_mem hv hmem,
    fun d hv => refusedAt_of_replacement_mem hv hmem⟩

end Declaration

namespace Surrogate

/-- Letters with the three bytes of a surrogate between them, which encode nothing. -/
def stem : Bytes := [0x42, 0xED, 0xA0, 0x80, 0x20, 0x43]

/-- A sprite with this stem. -/
def sprite : ObjectRef := ⟨.sprite, ⟨[0x61, 0x2F] ++ stem ++ [0x2E, 0x70]⟩⟩

def declaration : Declaration Entry :=
  { fileName := "Sprites", enumName := "Sprite", values := [.plain "A", .reference sprite] }

theorem encode_ne_stem : ∀ s, Utf8.encode s ≠ stem :=
  Utf8.decode_eq_none_iff.mp (by decide)

theorem refused_sprite : (sprite.path.fileStem = some stem ∧ ∀ s, Utf8.encode s ≠ stem) ∧
    declaration.values[1]? = some (.reference sprite) ∧ declaration.RefusedAt 1 := by
  have hstem : sprite.path.fileStem = some stem := by decide
  exact ⟨⟨hstem, encode_ne_stem⟩, rfl,
    (Declaration.refused_of_undecodable hstem encode_ne_stem 1).1 declaration rfl⟩

end Surrogate
end EnumAssets
