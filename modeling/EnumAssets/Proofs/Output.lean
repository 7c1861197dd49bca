/-
# Writing the file of a checked declaration

With an extension that is a part of a name, the file of a checked declaration lies beside its asset:
the parent of its path is the parent of the asset, spelled the same (`parent_path?`).  An asset that
could be read lies in a directory (`ready_of_text?`), so no directory is made for the file, and the
write is one of two things.  Either something that can be written is at the place of the path, and
then that place holds the code and nothing else has changed (`write_of_canWrite`); or the tree is as
it was (`write_of_not_canWrite`).  Which of them is the case depends on the directories alone.

With any other extension the file may lie elsewhere, and directories may be made on the way.  What
is left then is said by `write_eq_ok` and `write_eq_error`.
-/
import EnumAssets.Output
import EnumAssets.Proofs.Declaration.Diagnosis
import EnumAssets.Proofs.Path.Stem

namespace EnumAssets.Destination

variable {t t' : Tree} {d : Destination} {α : Type} [Named α]

/-! ## 1. Beside the asset -/

/-- Whether files with the extension lie beside their assets: it is a part of a name. -/
structure Beside (d : Destination) : Prop where
  ne_empty : d.extension ≠ ""
  noSlash : '/' ∉ d.extension.toList

/-- **When the name of a checked file can stand in a path**: its extension has no slash, and the two
are not two dots together. -/
theorem isSegment_file_iff (c : Checked α) {extension : String} :
    Path.IsSegment (Utf8.encode (c.declaration.fileName ++ "." ++ extension)) ↔
      '/' ∉ extension.toList ∧ ¬ (c.declaration.fileName = "." ∧ extension = "") := by
  have hslash : '/' ∉ c.declaration.fileName.toList := fun hmem =>
    (c.allowed_of_mem_fileName hmem).2 (by decide)
  rw [Path.isSegment_stem_iff c.fileName_ne_empty, and_iff_right hslash]

theorem segment_of_checked (h : d.Beside) (c : Checked α) :
    Path.IsSegment (Utf8.encode (c.declaration.fileName ++ "." ++ d.extension)) :=
  (isSegment_file_iff c).mpr ⟨h.noSlash, fun hdots => h.ne_empty hdots.2⟩

/-- **The file lies beside the asset.** -/
theorem parent_path? (h : d.Beside) (c : Checked α) {p : Path}
    (hp : d.path? c.declaration.fileName = some p) :
    ∃ directory, d.asset.parent = some directory ∧ p.parent = some directory := by
  obtain ⟨directory, hdirectory, rfl⟩ := Option.map_eq_some_iff.mp hp
  have hsegment := segment_of_checked h c
  exact ⟨directory, hdirectory,
    (Path.spelled_of_parent hdirectory).parent_join hsegment.noSlash hsegment.notBlank⟩

/-! ## 2. Ready destinations -/

/-- Whether the asset lies in a directory that is there. -/
def Ready (t : Tree) (d : Destination) : Prop :=
  ∀ directory, d.asset.parent = some directory →
    directory.bytes = [] ∨ t.isDirectory directory = true

/-- What can be read lies in a directory. -/
theorem ready_of_text? {text : String} (h : t.text? d.asset = some text) : d.Ready t := by
  intro directory hparent
  obtain ⟨content, hcontent, -⟩ := Option.bind_eq_some_iff.mp h
  rw [Tree.content?] at hcontent
  split at hcontent
  · next loc links hlook => exact Tree.isDirectory_parent hparent hlook
  · cases hcontent

theorem Ready.of_sameDirectories (h : d.Ready t) (hsame : t.SameDirectories t')
    (hfree : t.LinkFree) (hfree' : t'.LinkFree) : d.Ready t' := by
  intro directory hparent
  rw [hsame.isDirectory_eq hfree hfree']
  exact h directory hparent

/-! ## 3. Writing -/

/-- The place of the file of an asset. -/
def place? (d : Destination) (t : Tree) (fileName : String) : Option Location :=
  (d.path? fileName).bind t.place?

/-- Whether the file of an asset can be written: it has a place, and no directory is there. -/
def canWrite (d : Destination) (t : Tree) (fileName : String) : Bool :=
  (d.place? t fileName).any fun loc => !t.isDirectoryAt loc

theorem place?_eq (hsame : t.SameDirectories t') (hfree : t.LinkFree) (hfree' : t'.LinkFree)
    (fileName : String) : d.place? t' fileName = d.place? t fileName := by
  rw [place?, place?, funext (hsame.place?_eq hfree hfree')]

theorem canWrite_eq (hsame : t.SameDirectories t') (hfree : t.LinkFree) (hfree' : t'.LinkFree)
    (fileName : String) : d.canWrite t' fileName = d.canWrite t fileName := by
  have hat : t'.isDirectoryAt = t.isDirectoryAt := funext hsame.isDirectoryAt_eq
  rw [canWrite, canWrite, place?_eq hsame hfree hfree', hat]

/-- **A file that can be written** is written, and nothing else is. -/
theorem write_of_canWrite (hready : d.Ready t) (hbeside : d.Beside) (hfree : t.LinkFree)
    (c : Checked α) (h : d.canWrite t c.declaration.fileName = true) :
    ∃ loc t' p, d.place? t c.declaration.fileName = some loc ∧ d.write t c = (t', .ok p) ∧
      t.Puts loc (Utf8.encode c.code) t' := by
  obtain ⟨loc, hloc, hdir⟩ := (Option.any_eq_true _ _).mp h
  obtain ⟨p, hp, hplace⟩ := Option.bind_eq_some_iff.mp hloc
  obtain ⟨directory, hasset, hparent⟩ := parent_path? hbeside c hp
  obtain ⟨t', hwrite⟩ := Tree.exists_writeFile hfree hplace (by simpa using hdir)
    (Utf8.encode c.code)
  obtain ⟨loc', hloc', hputs⟩ := Tree.writeFile_eq_some hwrite
  obtain rfl := Option.some.inj (hplace.symm.trans hloc')
  refine ⟨loc, t', p, hloc, ?_, hputs⟩
  rw [write, hp]
  simp only [Tree.persist_eq hparent (hready directory hasset), hwrite]

/-- A file that cannot be written leaves the tree as it was. -/
theorem write_of_not_canWrite (hready : d.Ready t) (hbeside : d.Beside) (c : Checked α)
    (h : d.canWrite t c.declaration.fileName = false) : ∃ f, d.write t c = (t, .error f) := by
  rw [write]
  cases hp : d.path? c.declaration.fileName with
  | none => exact ⟨_, rfl⟩
  | some p =>
    obtain ⟨directory, hasset, hparent⟩ := parent_path? hbeside c hp
    simp only [Tree.persist_eq hparent (hready directory hasset)]
    cases hwrite : t.writeFile p (Utf8.encode c.code) with
    | none => exact ⟨_, rfl⟩
    | some t' =>
      obtain ⟨loc, hloc, hputs⟩ := Tree.writeFile_eq_some hwrite
      rw [canWrite, place?, hp, Option.bind_some, hloc, Option.any_some, hputs.noDirectory] at h
      cases h

/-! ## 4. Writing with any extension -/

/-- **A file that is written** has the path of the destination, and is put at its place in a tree
that has grown. -/
theorem write_eq_ok {c : Checked α} {p : Path} (h : d.write t c = (t', .ok p)) :
    d.path? c.declaration.fileName = some p ∧ ∃ between loc, t.Grows between ∧
      between.place? p = some loc ∧ between.Puts loc (Utf8.encode c.code) t' := by
  rw [write] at h
  split at h
  · cases h
  · next q hq =>
    split at h
    · next hpersist =>
      cases h
      exact ⟨hq, Tree.persist_eq_true hpersist⟩
    · cases h

/-- A file that cannot be written leaves a tree that has grown. -/
theorem write_eq_error {c : Checked α} {f : Failure} (h : d.write t c = (t', .error f)) :
    t.Grows t' := by
  rw [write] at h
  split at h
  · cases h
    exact .refl t
  · split at h
    · cases h
    · next hpersist =>
      cases h
      exact Tree.persist_eq_false hpersist

end EnumAssets.Destination
