/-
# The name at a place

The place of a path is named by the path only in its last step, and only if that step is a name: a
dot, two dots and a slash at the end stand for directories.  So what is no directory has its name
from the path (`getLast?_steps_of_place?`), and this name is what the path calls its file name and
what its bytes end with (`fileName_eq`, `suffix_bytes`).

Two paths to one file therefore end with one name, however much they differ in front of it.
-/
import EnumAssets.Proofs.Tree.Growth

namespace EnumAssets

/-! ## 1. Paths that end with a name -/

namespace Path

variable {p a b : Path} {n : Name}

/-- The last step of a path is its last segment, if it is a name. -/
theorem exists_segments_of_steps (h : p.steps.getLast? = some n) (hdot : n ≠ [dot]) :
    ∃ front, p.segments = front ++ [n] ∧ n ≠ [] := by
  have hlast : p.bytes.getLast? ≠ some slash := by
    intro hslash
    rw [steps, if_pos hslash, List.getLast?_concat] at h
    exact hdot (Option.some.inj h).symm
  rw [steps, if_neg hlast, names] at h
  rcases List.eq_nil_or_concat p.segments with hnil | ⟨front, last, hsegs⟩
  · exact absurd hnil p.segments_ne_nil
  · rw [List.concat_eq_append] at hsegs
    rw [hsegs, List.filter_append] at h
    have hne : last ≠ [] := by
      rintro rfl
      have hbytes := ofSegments_segments p
      rw [hsegs] at hbytes
      by_cases hfront : front = []
      · rw [hfront] at h
        cases h
      · rw [← hbytes, ofSegments_concat hfront, List.append_nil, List.getLast?_concat] at hlast
        exact hlast rfl
    have hkept : [last].filter (fun s => !s.isEmpty) = [last] := by simp [hne]
    rw [hkept, List.getLast?_concat] at h
    obtain rfl := Option.some.inj h
    exact ⟨front, hsegs, hne⟩

/-- A path that ends with a name has it as its file name. -/
theorem fileName_eq (h : p.steps.getLast? = some n) (hdot : n ≠ [dot]) (hdots : n ≠ [dot, dot]) :
    p.fileName = some n := by
  obtain ⟨front, hsegs, hne⟩ := exists_segments_of_steps h hdot
  have hname : Component.ofSegment? n = some (.name n) := by
    rw [Component.ofSegment?, if_neg (by simp [isBlank, hne, hdot]), if_neg hdots]
  have hend (segs : List Bytes) :
      ((segs ++ [n]).filterMap Component.ofSegment?).getLast? = some (.name n) := by
    rw [List.filterMap_append, List.filterMap_cons, hname]
    exact List.getLast?_concat
  have hcomponents : p.components.getLast? = some (.name n) := by
    rw [components, hsegs]
    cases front with
    | nil =>
      have habs : p.isAbsolute = false := by
        rw [isAbsolute_of_segments hsegs]
        simp
      simp only [List.nil_append, habs]
      simpa [hdot] using hend []
    | cons first rest =>
      simp only [List.cons_append]
      split
      · rw [List.getLast?_cons, hend rest]
        rfl
      · split
        · rw [List.getLast?_cons, hend rest]
          rfl
        · exact hend (first :: rest)
  rw [fileName, hcomponents]

/-- The bytes of a path end with the name that it ends with. -/
theorem suffix_bytes (h : p.steps.getLast? = some n) (hdot : n ≠ [dot]) : n <:+ p.bytes := by
  obtain ⟨front, hsegs, -⟩ := exists_segments_of_steps h hdot
  rw [← ofSegments_segments p, hsegs]
  by_cases hfront : front = []
  · have hbytes : (ofSegments [n]).bytes = n := by rw [ofSegments, List.intercalate_singleton]
    exact ⟨[], by rw [hfront, List.nil_append, List.nil_append, hbytes]⟩
  · rw [ofSegments_concat hfront]
    exact List.suffix_append _ _

/-- What a joined path ends with, the second path ends with, if it is without slashes. -/
theorem suffix_of_suffix_join {s : Bytes} (hslash : slash ∉ s) (h : s <:+ (a.join b).bytes) :
    s <:+ b.bytes := by
  have hbehind {front : Bytes} (h : s <:+ front ++ slash :: b.bytes) : s <:+ b.bytes := by
    rcases List.suffix_or_suffix_of_suffix h (List.suffix_append _ _) with hshort | hlong
    · rcases List.suffix_cons_iff.mp hshort with rfl | hshort
      · exact absurd List.mem_cons_self hslash
      · exact hshort
    · exact absurd (hlong.subset List.mem_cons_self) hslash
  rw [join] at h
  split at h
  · exact h
  · split at h
    · exact h
    · next last hlast =>
      split at h
      · next hroot =>
        obtain ⟨front, hfront⟩ := List.getLast?_eq_some_iff.mp hlast
        rw [hfront, hroot, List.append_assoc] at h
        exact hbehind h
      · rw [List.append_assoc] at h
        exact hbehind h

end Path

/-! ## 2. Places that are named -/

namespace Tree

variable {t : Tree} {p : Path} {loc : Location}

/-- **Steps that end at no directory** end with its name: each other step ends at a directory. -/
theorem getLast?_of_descend {steps : List Name} (hdir : t.isDirectoryAt loc = false) :
    ∀ {start : Location}, steps ≠ [] → t.descend start steps = some loc →
      ∃ n parent, loc = n :: parent ∧ steps.getLast? = some n ∧ IsName n := by
  induction steps with
  | nil => exact fun hne => absurd rfl hne
  | cons s rest ih =>
    intro start _ hdown
    -- the steps that follow end at the same place, and the last of them is the last of all
    have hlater {next : Location} (hnext : t.isDirectoryAt next = true)
        (hdown : t.descend next rest = some loc) :
        ∃ n parent, loc = n :: parent ∧ (s :: rest).getLast? = some n ∧ IsName n := by
      cases rest with
      | nil =>
        obtain rfl := Option.some.inj hdown
        rw [hnext] at hdir
        cases hdir
      | cons s' rest =>
        rw [List.getLast?_cons_cons]
        exact ih (List.cons_ne_nil _ _) hdown
    cases hstart : t.isDirectoryAt start with
    | false =>
      rw [descend, hstart] at hdown
      cases hdown
    | true =>
      rw [descend, hstart, if_neg (by decide)] at hdown
      split at hdown
      · exact hlater hstart hdown
      · next hdot =>
        split at hdown
        · exact hlater (isDirectoryAt_tail hstart) hdown
        · next hdots =>
          split at hdown
          · cases hdown
          · next hshort =>
            cases rest with
            | nil =>
              obtain rfl := Option.some.inj hdown
              exact ⟨s, start, rfl, rfl, hdot, hdots, Nat.not_lt.mp hshort⟩
            | cons s' rest =>
              rw [List.getLast?_cons_cons]
              exact ih (List.cons_ne_nil _ _) hdown

/-- **A place that is no directory is named by the last step** of each path that leads there. -/
theorem getLast?_steps_of_place? (hfree : t.LinkFree) (h : t.place? p = some loc)
    (hdir : t.isDirectoryAt loc = false) :
    ∃ n parent, loc = n :: parent ∧ p.steps.getLast? = some n ∧ IsName n := by
  obtain ⟨hne, -, hdown⟩ := (place?_eq_some_iff hfree).mp h
  exact getLast?_of_descend hdir (Path.steps_ne_nil hne) hdown

/-- **Paths to one file end with one name**: the file name of the one, which the other ends with. -/
theorem exists_fileName_suffix {q : Path} (hfree : t.LinkFree) (hp : t.place? p = some loc)
    (hq : t.place? q = some loc) (hdir : t.isDirectoryAt loc = false) :
    ∃ n, p.fileName = some n ∧ n <:+ q.bytes := by
  obtain ⟨n, parent, rfl, hlast, hn⟩ := getLast?_steps_of_place? hfree hp hdir
  obtain ⟨m, parent', hloc, hlast', -⟩ := getLast?_steps_of_place? hfree hq hdir
  obtain ⟨rfl, -⟩ := List.cons.inj hloc
  exact ⟨n, Path.fileName_eq hlast hn.ne_dot hn.ne_dots, Path.suffix_bytes hlast' hn.ne_dot⟩

end Tree
end EnumAssets
