/-
# A name behind a path

Joining puts one segment behind a path.  If this segment has no slash and says something, the joined
path walks the names of the path and then the segment (`steps_join`), and the segment is its file
name unless it is two dots (`fileName_join`).  There is no other way to a file name: one that a path
has is a segment with something to say (`isSegment_of_fileName`).
-/
import EnumAssets.Proofs.Tree.Name

namespace EnumAssets.Path

variable {p a : Path} {n : Bytes}

/-! ## 1. Names that stand in a path -/

/-- Whether a name can stand in a path by itself: it has no slash, and is not empty, one dot or
two. -/
structure IsSegment (n : Bytes) : Prop where
  noSlash : slash ∉ n
  notBlank : isBlank n = false
  ne_dots : n ≠ [dot, dot]

theorem IsSegment.ne_nil (h : IsSegment n) : n ≠ [] := by
  rintro rfl
  exact absurd h.notBlank (by decide)

theorem IsSegment.ne_dot (h : IsSegment n) : n ≠ [dot] := by
  rintro rfl
  exact absurd h.notBlank (by decide)

theorem Component.ofSegment?_eq_some_name {s : Bytes} :
    Component.ofSegment? s = some (.name n) ↔ s = n ∧ isBlank n = false ∧ n ≠ [dot, dot] := by
  rw [Component.ofSegment?]
  split
  · next hsays =>
    constructor
    · intro h
      cases h
    · rintro ⟨rfl, hblank, -⟩
      rw [hblank] at hsays
      cases hsays
  · next hblank =>
    split
    · next hdots =>
      constructor
      · intro h
        cases h
      · rintro ⟨rfl, -, hne⟩
        exact absurd hdots hne
    · next hdots =>
      constructor
      · intro h
        cases h
        exact ⟨rfl, by simpa using hblank, hdots⟩
      · rintro ⟨rfl, -, -⟩
        rfl

/-- A name that a path reads is one of its segments. -/
theorem isSegment_of_mem_components (h : .name n ∈ p.components) : IsSegment n := by
  have hread : ∀ {segs : List Bytes}, segs ⊆ p.segments →
      .name n ∈ segs.filterMap Component.ofSegment? → IsSegment n := by
    intro segs hsub hmem
    obtain ⟨s, hs, hname⟩ := List.mem_filterMap.mp hmem
    obtain ⟨rfl, hblank, hdots⟩ := Component.ofSegment?_eq_some_name.mp hname
    exact ⟨slash_not_mem_segment (hsub hs), hblank, hdots⟩
  rw [components] at h
  split at h
  · exact absurd h List.not_mem_nil
  · next first rest hsegs =>
    have hrest : rest ⊆ p.segments := hsegs ▸ List.subset_cons_self first rest
    split at h
    · rcases List.mem_cons.mp h with hroot | hmem
      · cases hroot
      · exact hread hrest hmem
    · split at h
      · rcases List.mem_cons.mp h with hhere | hmem
        · cases hhere
        · exact hread hrest hmem
      · exact hread (hsegs ▸ List.Subset.refl _) h

/-- **The file name of a path** can stand in a path by itself. -/
theorem isSegment_of_fileName (h : p.fileName = some n) : IsSegment n := by
  rw [fileName] at h
  split at h
  · next m hlast =>
    obtain rfl := Option.some.inj h
    exact isSegment_of_mem_components (List.mem_of_getLast? hlast)
  · cases h

/-! ## 2. The names of a joined path -/

/-- A slash parts the names in front of it from those behind it. -/
theorem names_append (x y : Bytes) :
    (⟨x ++ slash :: y⟩ : Path).names = (⟨x⟩ : Path).names ++ (⟨y⟩ : Path).names := by
  rw [names, segments, List.splitOn_append_cons_self, List.filter_append]
  rfl

theorem names_of_noSlash (hslash : slash ∉ n) (hne : n ≠ []) : (⟨n⟩ : Path).names = [n] := by
  rw [names, segments, List.splitOn_eq_singleton hslash]
  simp [hne]

theorem isAbsolute_eq_false (hslash : slash ∉ n) : (⟨n⟩ : Path).isAbsolute = false := by
  rw [isAbsolute, beq_eq_false_iff_ne]
  exact fun e => hslash (List.mem_of_mem_head? e)

/-- How a relative path is put behind a path: after a slash, which may be there already. -/
theorem join_cases (a : Path) (hrel : (⟨n⟩ : Path).isAbsolute = false) :
    (a = ⟨[]⟩ ∧ a.join ⟨n⟩ = ⟨n⟩) ∨
      ∃ front, a.join ⟨n⟩ = ⟨front ++ slash :: n⟩ ∧
        (a.bytes = front ∨ a.bytes = front ++ [slash]) := by
  rw [join, hrel, if_neg (by decide)]
  split
  · next hnil => exact Or.inl ⟨congrArg Path.mk (List.getLast?_eq_none_iff.mp hnil), rfl⟩
  · next last hlast =>
    refine Or.inr ?_
    split
    · next hroot =>
      obtain ⟨front, hfront⟩ := List.getLast?_eq_some_iff.mp hlast
      rw [hroot] at hfront
      exact ⟨front, by rw [hfront, List.append_assoc, List.singleton_append], Or.inr hfront⟩
    · exact ⟨a.bytes, by rw [List.append_assoc, List.singleton_append], Or.inl rfl⟩

/-- With a segment behind it no path is empty. -/
theorem join_ne_nil (a : Path) (hn : IsSegment n) : (a.join ⟨n⟩).bytes ≠ [] := by
  intro hnil
  rcases join_cases a (isAbsolute_eq_false hn.noSlash) with ⟨-, hjoin⟩ | ⟨front, hjoin, -⟩
  · rw [hjoin] at hnil
    exact hn.ne_nil hnil
  · rw [hjoin] at hnil
    exact absurd hnil (List.append_ne_nil_of_right_ne_nil _ (List.cons_ne_nil _ _))

theorem names_join (a : Path) (hslash : slash ∉ n) :
    (a.join ⟨n⟩).names = a.names ++ (⟨n⟩ : Path).names := by
  rcases join_cases a (isAbsolute_eq_false hslash) with
    ⟨hnil, hjoin⟩ | ⟨front, hjoin, hbytes | hbytes⟩
  · rw [hjoin, hnil]
    rfl
  · rw [hjoin, names_append, ← hbytes]
  · have ha : a = ⟨front ++ slash :: []⟩ := congrArg Path.mk hbytes
    rw [hjoin, names_append, ha, names_append, List.append_assoc]
    rfl

theorem getLast?_join_ne_slash (a : Path) (hslash : slash ∉ n) (hne : n ≠ []) :
    (a.join ⟨n⟩).bytes.getLast? ≠ some slash := by
  have hlast : n.getLast? ≠ some slash := fun e => hslash (List.mem_of_getLast? e)
  rcases join_cases a (isAbsolute_eq_false hslash) with ⟨-, hjoin⟩ | ⟨front, hjoin, -⟩
  · rwa [hjoin]
  · rw [hjoin, List.getLast?_append_of_ne_nil _ (List.cons_ne_nil _ _), List.getLast?_cons]
    cases hn : n.getLast? with
    | none => exact absurd (List.getLast?_eq_none_iff.mp hn) hne
    | some b =>
      rw [hn] at hlast
      exact hlast

/-- **The steps of a joined path** are the names of the first path and the segment. -/
theorem steps_join (a : Path) (hslash : slash ∉ n) (hne : n ≠ []) :
    (a.join ⟨n⟩).steps = a.names ++ [n] := by
  rw [steps, if_neg (getLast?_join_ne_slash a hslash hne), names_join a hslash,
    names_of_noSlash hslash hne]

/-- **A segment joined to a path** is the file name of the joined path. -/
theorem fileName_join (a : Path) (h : IsSegment n) : (a.join ⟨n⟩).fileName = some n := by
  refine fileName_eq ?_ h.ne_dot h.ne_dots
  rw [steps_join a h.noSlash h.ne_nil, List.getLast?_concat]

end EnumAssets.Path
