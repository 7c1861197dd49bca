/-
# Where generated files lie

A generated file should be a direct child of the directory of its asset, by the name that the
declaration gives and the extension.  `childOf_path?_iff` says when it is one: exactly if the
extension has no slash, which would put the file elsewhere, and the name and the extension are not
two dots together, which would be the directory above.  Nothing else can go wrong, because a checked
name is not empty and has no slash.

The default extension is none of these, so then every file lies beside its asset, and two files
beside one asset have the same path only if their declarations name the same file.  `placement` puts
this together, for all spellings of the path of the asset.
-/
import EnumAssets.Path.Order
import EnumAssets.Proofs.Output

namespace EnumAssets

/-- A path whose parent has the components of a directory and whose file name is a text. -/
structure Path.ChildOf (p directory : Path) (name : String) : Prop where
  parent : ∃ outer, p.parent = some outer ∧ outer.same directory = true
  fileName_eq : p.fileName = some (Utf8.encode name)

namespace Destination

variable {α β : Type} [Named α] [Named β] {d : Destination}

/-! ## 1. The name of a file -/

/-- The name of a generated file, with its extension. -/
def fullName (d : Destination) (fileName : String) : String :=
  fileName ++ "." ++ d.extension

theorem toList_fullName (d : Destination) (fileName : String) :
    (d.fullName fileName).toList = fileName.toList ++ '.' :: d.extension.toList := by
  rw [fullName, String.toList_append, String.toList_append, List.append_assoc]
  rfl

/-- **When the name of a checked file can stand in a path**: it has no slash and is not two dots. -/
theorem isSegment_fullName_iff (d : Destination) (c : Checked α) :
    Path.IsSegment (Utf8.encode (d.fullName c.declaration.fileName)) ↔
      '/' ∉ d.extension.toList ∧ ¬ (c.declaration.fileName = "." ∧ d.extension = "") :=
  isSegment_file_iff c

/-! ## 2. The place of a file -/

/-- **A generated file is a child of the directory of its asset** exactly if its name can stand in a
path. The condition is needed: any name that a path has is a segment that says something. -/
theorem childOf_path?_iff {fileName : String} {directory : Path}
    (hdirectory : d.asset.parent = some directory) :
    Path.ChildOf (directory.join (.ofText (d.fullName fileName))) directory (d.fullName fileName) ↔
      Path.IsSegment (Utf8.encode (d.fullName fileName)) := by
  constructor
  · exact fun h => Path.isSegment_of_fileName h.fileName_eq
  · intro h
    have hparent := (Path.spelled_of_parent hdirectory).parent_join
      (n := .ofText (d.fullName fileName)) h.noSlash h.notBlank
    exact ⟨⟨directory, hparent, BEq.rfl⟩, Path.fileName_join directory h⟩

theorem path?_eq_some {fileName : String} {directory : Path}
    (hdirectory : d.asset.parent = some directory) :
    d.path? fileName = some (directory.join (.ofText (d.fullName fileName))) := by
  rw [path?, hdirectory]
  rfl

theorem path?_eq_none_iff {fileName : String} : d.path? fileName = none ↔ d.asset.parent = none :=
  Option.map_eq_none_iff

/-- Two children of one directory have the same components only if they have the same name. -/
theorem fileName_eq_of_same {p q : Path} {directory : Path} {s s' : String}
    (hp : p.ChildOf directory s) (hq : q.ChildOf directory s') (hsame : p.same q = true) :
    s = s' := by
  have hcomponents : p.components = q.components := eq_of_beq hsame
  have hname : p.fileName = q.fileName := by rw [Path.fileName, hcomponents, ← Path.fileName]
  rw [hp.fileName_eq, hq.fileName_eq] at hname
  exact Utf8.encode_injective (Option.some.inj hname)

theorem fullName_injective {s s' : String} (h : d.fullName s = d.fullName s') : s = s' := by
  rw [← String.toList_inj, toList_fullName, toList_fullName, List.append_left_inj,
    String.toList_inj] at h
  exact h

/-- With the default extension every file is a child of the directory of its asset. -/
theorem isSegment_of_default (hdefault : d.extension = defaultExtension) (c : Checked α) :
    Path.IsSegment (Utf8.encode (d.fullName c.declaration.fileName)) := by
  refine (d.isSegment_fullName_iff c).mpr ?_
  rw [hdefault]
  exact ⟨by decide, fun h => absurd h.2 (by decide)⟩

/-! ## 3. Placement -/

/-- What is to be known of where the files of two checked declarations go that lie beside one
asset. -/
structure Placed (d : Destination) (c : Checked α) (c' : Checked β) : Prop where
  /-- There is no place for a file only if the path of the asset has no parent. -/
  none_iff : ∀ fileName, d.path? fileName = none ↔ d.asset.parent = none
  /-- Otherwise there is one, and it is right except for two kinds of names. -/
  childOf_iff : ∀ directory, d.asset.parent = some directory →
    ∃ p, d.path? c.declaration.fileName = some p ∧
      (p.ChildOf directory (c.declaration.fileName ++ "." ++ d.extension) ↔
        '/' ∉ d.extension.toList ∧ ¬ (c.declaration.fileName = "." ∧ d.extension = ""))
  /-- The default extension makes no such name. -/
  childOf_of_default : d.extension = defaultExtension →
    ∀ directory, d.asset.parent = some directory →
    ∃ p, d.path? c.declaration.fileName = some p ∧
      p.ChildOf directory (c.declaration.fileName ++ "." ++ d.extension)
  /-- With it, one path is one file name. -/
  same_iff_of_default : d.extension = defaultExtension → ∀ p p',
    d.path? c.declaration.fileName = some p → d.path? c'.declaration.fileName = some p' →
      (p.same p' = true ↔ c.declaration.fileName = c'.declaration.fileName)

/-- **Where generated files lie**, for every path of an asset and every extension. -/
theorem placement (d : Destination) (c : Checked α) (c' : Checked β) : d.Placed c c' := by
  refine ⟨fun fileName => path?_eq_none_iff, fun directory hdirectory => ?_,
    fun hdefault directory hdirectory => ?_, fun hdefault p p' hp hp' => ?_⟩
  · refine ⟨_, path?_eq_some hdirectory, ?_⟩
    exact (childOf_path?_iff hdirectory).trans (d.isSegment_fullName_iff c)
  · exact ⟨_, path?_eq_some hdirectory,
      (childOf_path?_iff hdirectory).mpr (isSegment_of_default hdefault c)⟩
  · obtain ⟨directory, hdirectory, -⟩ := Option.map_eq_some_iff.mp hp
    rw [path?_eq_some hdirectory] at hp hp'
    obtain rfl := Option.some.inj hp
    obtain rfl := Option.some.inj hp'
    constructor
    · intro hsame
      exact fullName_injective (fileName_eq_of_same
        ((childOf_path?_iff hdirectory).mpr (isSegment_of_default hdefault c))
        ((childOf_path?_iff hdirectory).mpr (isSegment_of_default hdefault c')) hsame)
    · intro hname
      rw [hname]
      exact BEq.rfl

/-- The one name that is no child of the directory although the extension has no slash. -/
example : (⟨.ofText "a/b.enum.toml", ""⟩ : Destination).path? "." = some (.ofText "a/..") := by
  cbv

end Destination
end EnumAssets
