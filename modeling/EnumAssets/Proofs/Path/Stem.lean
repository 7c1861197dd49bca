/-
# Names that are texts, and their stems

A path holds bytes, but the names that are put behind it are mostly texts.  A text can stand in a
path by itself unless it holds a slash, is empty, or is made of one dot or two
(`isSegment_encode_iff`).  If it is a stem and an extension with a dot between them, this leaves one
exception besides the slashes: two dots, which are the stem `.` with the empty extension
(`isSegment_stem_iff`).

The last dot of such a name is the one between its parts if the extension holds none, so the stem
that is read is the one that was written (`stemOf_append`), and so it is behind every directory
(`fileStem_join`).
-/
import EnumAssets.Proofs.Path.Join
import EnumAssets.Proofs.Text.Roundtrip

namespace EnumAssets

/-! ## 1. Names as texts -/

namespace Utf8

theorem encode_append (s t : String) : encode (s ++ t) = encode s ++ encode t := by
  rw [encode, String.toList_append, List.flatMap_append]
  rfl

theorem encode_eq_iff {s t : String} : encode s = encode t ↔ s = t :=
  ⟨encode_injective, congrArg encode⟩

end Utf8

namespace Path

theorem slash_mem_encode_iff {s : String} : slash ∈ Utf8.encode s ↔ '/' ∈ s.toList := by
  have hslash : slash = UInt8.ofNat '/'.toNat := by decide
  rw [hslash, Utf8.mem_encode_iff (by decide)]

theorem dot_mem_encode_iff {s : String} : dot ∈ Utf8.encode s ↔ '.' ∈ s.toList := by
  have hdot : dot = UInt8.ofNat '.'.toNat := by decide
  rw [hdot, Utf8.mem_encode_iff (by decide)]

theorem isAbsolute_ofText_iff {text : String} :
    (ofText text).isAbsolute = true ↔ text.toList.head? = some '/' := by
  have hslash : slash = UInt8.ofNat '/'.toNat := by decide
  rw [isAbsolute, beq_iff_eq, ofText, Utf8.encode]
  cases text.toList with
  | nil => simp
  | cons c rest =>
    rw [List.flatMap_cons, List.head?_append_of_ne_nil _ String.utf8EncodeChar_ne_nil,
      List.head?_cons, Option.some.injEq]
    constructor
    · intro h
      exact (Utf8.eq_of_ascii_mem_encodeChar (by decide) (hslash ▸ List.mem_of_mem_head? h)).symm
    · rintro rfl
      rw [Utf8.encodeChar_of_ascii (by decide), hslash, List.head?_cons]

theorem ofText_intercalate : ∀ parts : List (List Char),
    ofText (String.ofList (['/'].intercalate parts)) =
      ofSegments (parts.map fun part => Utf8.encode (String.ofList part))
  | [] => rfl
  | [_] => by
    rw [List.intercalate_singleton, List.map_singleton, ofSegments, List.intercalate_singleton,
    ofText]
  | first :: second :: rest => by
    have ih := congrArg Path.bytes (ofText_intercalate (second :: rest))
    have hslash : Utf8.encode (String.ofList ['/']) = [slash] := by decide
    simp only [ofText, ofSegments, List.map_cons] at ih
    simp only [ofText, ofSegments, List.map_cons, List.intercalate_cons_cons, String.ofList_append,
      Utf8.encode_append, hslash, ih]

/-- **The segments of a text** are the stretches between its slashes. -/
theorem segments_ofText (text : String) : (ofText text).segments =
    (text.toList.splitOn '/').map fun part => Utf8.encode (String.ofList part) := by
  have hsplit : text = String.ofList (['/'].intercalate (text.toList.splitOn '/')) := by
    rw [List.intercalate_splitOn, String.ofList_toList]
  conv_lhs => rw [hsplit, ofText_intercalate]
  refine segments_ofSegments (by simp [List.splitOn_ne_nil]) fun s hs => ?_
  obtain ⟨part, hpart, rfl⟩ := List.mem_map.mp hs
  rw [slash_mem_encode_iff, String.toList_ofList]
  exact not_mem_of_mem_splitOn hpart

/-- **When a text can stand in a path** by itself. -/
theorem isSegment_encode_iff {s : String} :
    IsSegment (Utf8.encode s) ↔ '/' ∉ s.toList ∧ s ≠ "" ∧ s ≠ "." ∧ s ≠ ".." := by
  have hnone : [] = Utf8.encode "" := by decide
  have hone : [dot] = Utf8.encode "." := by decide
  have htwo : [dot, dot] = Utf8.encode ".." := by decide
  have hblank : isBlank (Utf8.encode s) = false ↔ s ≠ "" ∧ s ≠ "." := by
    rw [isBlank, Bool.or_eq_false_iff, beq_eq_false_iff_ne, beq_eq_false_iff_ne, hone, hnone, Ne,
      Utf8.encode_eq_iff, Ne, Utf8.encode_eq_iff]
  have hdots : Utf8.encode s ≠ [dot, dot] ↔ s ≠ ".." := by rw [htwo, Ne, Utf8.encode_eq_iff]
  constructor
  · intro h
    obtain ⟨hne, hdot⟩ := hblank.mp h.notBlank
    exact ⟨fun hmem => h.noSlash (slash_mem_encode_iff.mpr hmem), hne, hdot, hdots.mp h.ne_dots⟩
  · rintro ⟨hslash, hne, hdot, htwo⟩
    exact ⟨fun hmem => hslash (slash_mem_encode_iff.mp hmem), hblank.mpr ⟨hne, hdot⟩,
      hdots.mpr htwo⟩

/-- **When a stem and an extension can stand in a path**, with a dot between them: the two dots are
all that they must not be. -/
theorem isSegment_stem_iff {f e : String} (hf : f ≠ "") :
    IsSegment (Utf8.encode (f ++ "." ++ e)) ↔
      '/' ∉ f.toList ∧ '/' ∉ e.toList ∧ ¬ (f = "." ∧ e = "") := by
  have htext : (f ++ "." ++ e).toList = f.toList ++ '.' :: e.toList := by
    rw [String.toList_append, String.toList_append, List.append_assoc]
    rfl
  obtain ⟨c, rest, hc⟩ := List.exists_cons_of_ne_nil fun h => hf (String.toList_eq_nil_iff.mp h)
  have hnone : f ++ "." ++ e ≠ "" := by
    rw [Ne, ← String.toList_inj, htext, hc]
    exact List.cons_ne_nil _ _
  have hone : f ++ "." ++ e ≠ "." := by
    rw [Ne, ← String.toList_inj, htext, hc]
    exact fun h => absurd (congrArg List.length h) (by simp)
  have htwo : f ++ "." ++ e = ".." ↔ f = "." ∧ e = "" := by
    rw [← String.toList_inj, ← String.toList_inj, ← String.toList_inj, htext, hc]
    cases rest <;> simp
  have hdot : '/' ≠ '.' := by decide
  rw [isSegment_encode_iff, Ne.eq_def _ "..", htwo, htext]
  simp [hnone, hone, hdot, and_assoc]

/-! ## 2. Stems -/

variable {f e n : Bytes}

theorem bne_dot_of_mem_reverse (h : dot ∉ n) : ∀ b ∈ n.reverse, (b != dot) = true := by
  intro b hb
  rw [bne_iff_ne]
  rintro rfl
  exact h (List.mem_reverse.mp hb)

/-- A name without a dot is its own stem. -/
theorem stemOf_of_noDot (h : dot ∉ n) : stemOf n = n := by
  rw [stemOf, List.dropWhile_eq_nil_iff.mpr (bne_dot_of_mem_reverse h)]

/-- **The stem ends at the last dot**, unless nothing is in front of it. -/
theorem stemOf_append (hf : f ≠ []) (he : dot ∉ e) : stemOf (f ++ dot :: e) = f := by
  obtain ⟨front, last, rfl⟩ := List.eq_nil_or_concat f |>.resolve_left hf
  have hdrop : (front ++ [last] ++ dot :: e).reverse.dropWhile (· != dot) =
      dot :: last :: front.reverse := by
    simp only [List.reverse_append, List.reverse_cons, List.append_assoc]
    rw [List.dropWhile_append_of_pos (bne_dot_of_mem_reverse he)]
    simp
  rw [stemOf, List.concat_eq_append, hdrop]
  simp

/-- **The stem of a segment behind a directory** is that of the segment. -/
theorem fileStem_join (d : Path) (h : IsSegment n) : (d.join ⟨n⟩).fileStem = some (stemOf n) := by
  rw [fileStem, fileName_join d h, Option.map_some]

end Path
end EnumAssets
