/-
# How a path is read

The components of a path are its lead, which is the root or a dot that begins it, and then what its
segments say (`components_eq`).  A slash at the end, empty segments and further dots say nothing, so
the steps of a path say the same as its segments (`filterMap_steps`).  A segment that is joined to a
path is read behind its components (`components_join`), and so are several, one after the other
(`components_under`).

Without two dots among the segments the components behind the lead are names, and these are the
steps that are no dots (`components_eq_map_name`).
-/
import EnumAssets.Proofs.Tree.Spot

namespace EnumAssets.Path

variable {p : Path} {n : Bytes}

/-! ## 1. The lead of a path -/

/-- What the reading of a path begins with: the root, a dot, or nothing. -/
def lead (p : Path) : List Component :=
  if p.isAbsolute then [.root] else if p.segments.head? = some [dot] then [.here] else []

/-- **The components of a path** are its lead and what its segments say. -/
theorem components_eq (p : Path) :
    p.components = p.lead ++ p.segments.filterMap Component.ofSegment? := by
  obtain ⟨first, rest, hsegs⟩ := List.exists_cons_of_ne_nil p.segments_ne_nil
  rw [components, lead, hsegs, List.head?_cons]
  simp only [Option.some.injEq]
  split
  · next habs =>
    have hfirst : first = [] := by
      rw [isAbsolute_of_segments hsegs, Bool.and_eq_true, List.isEmpty_iff] at habs
      exact habs.1
    rw [hfirst]
    rfl
  · split
    · next hdot =>
      rw [hdot]
      rfl
    · rfl

theorem isAbsolute_iff_lead : p.isAbsolute = true ↔ p.lead = [.root] := by
  rw [lead]
  split
  · next habs => exact iff_of_true habs rfl
  · next habs =>
    refine iff_of_false habs ?_
    split <;> exact nofun

/-- Paths with the same lead begin at the same place. -/
theorem startOf_eq_of_lead {q : Path} (h : p.lead = q.lead) (directory : Location) :
    Tree.startOf p directory = Tree.startOf q directory := by
  have habs : p.isAbsolute = q.isAbsolute := by
    rw [Bool.eq_iff_iff, isAbsolute_iff_lead, isAbsolute_iff_lead, h]
  rw [Tree.startOf, Tree.startOf, habs]

/-! ## 2. What steps say -/

theorem filterMap_names (p : Path) :
    p.names.filterMap Component.ofSegment? = p.segments.filterMap Component.ofSegment? := by
  rw [names, List.filterMap_filter]
  refine List.filterMap_congr fun s _ => ?_
  cases s <;> rfl

/-- **The steps of a path say what its segments say.** -/
theorem filterMap_steps (p : Path) :
    p.steps.filterMap Component.ofSegment? = p.segments.filterMap Component.ofSegment? := by
  rw [← filterMap_names, steps]
  split
  · rw [List.filterMap_append]
    exact List.append_nil _
  · rfl

/-- A path has a component of two dots if it has such a step. -/
theorem up_mem_components (h : [dot, dot] ∈ p.steps) : Component.up ∈ p.components := by
  rw [components_eq, ← filterMap_steps]
  exact List.mem_append_right _ (List.mem_filterMap.mpr ⟨_, h, rfl⟩)

/-- **Without two dots the components are names**, behind the lead. -/
theorem components_eq_map_name (h : Component.up ∉ p.components) :
    p.components = p.lead ++ (p.steps.filter (· != [dot])).map .name := by
  rw [components_eq, ← filterMap_steps, ← List.filterMap_eq_map, List.filterMap_filter]
  refine congrArg (p.lead ++ ·) (List.filterMap_congr fun s hs => ?_)
  by_cases hdot : s = [dot]
  · rw [hdot]
    rfl
  · have hne : s ≠ [] := ((mem_steps hs).resolve_left hdot).1
    have hdots : s ≠ [dot, dot] := fun e => h (up_mem_components (e ▸ hs))
    rw [if_pos (bne_iff_ne.mpr hdot)]
    exact Component.ofSegment?_eq_some_name.mpr ⟨rfl, by simp [isBlank, hne, hdot], hdots⟩

/-! ## 3. Joined segments -/

theorem segments_append (x y : Bytes) :
    (⟨x ++ slash :: y⟩ : Path).segments = (⟨x⟩ : Path).segments ++ (⟨y⟩ : Path).segments :=
  List.splitOn_append_cons_self ..

/-- A segment behind a path does not change its lead. -/
theorem lead_join (hne : p.bytes ≠ []) (hslash : slash ∉ n) : (p.join ⟨n⟩).lead = p.lead := by
  have hhead : ∀ front y : Bytes,
      (⟨front ++ slash :: y⟩ : Path).segments.head? = (⟨front⟩ : Path).segments.head? := by
    intro front y
    rw [segments_append, List.head?_append_of_ne_nil _ (segments_ne_nil _)]
  rw [lead, lead, isAbsolute_join hne (isAbsolute_eq_false hslash)]
  rcases join_cases p (isAbsolute_eq_false hslash) with ⟨hnil, -⟩ | ⟨front, hjoin, hbytes | hbytes⟩
  · exact absurd (congrArg Path.bytes hnil) hne
  · rw [hjoin, hhead, ← hbytes]
  · rw [hjoin, hhead, ← hhead front [], ← hbytes]

/-- **A segment that is joined to a path** is read behind its components. -/
theorem components_join (hne : p.bytes ≠ []) (hn : IsSegment n) :
    (p.join ⟨n⟩).components = p.components ++ [.name n] := by
  have hname : Component.ofSegment? n = some (.name n) :=
    Component.ofSegment?_eq_some_name.mpr ⟨rfl, hn.notBlank, hn.ne_dots⟩
  rw [components_eq, components_eq p, lead_join hne hn.noSlash, ← filterMap_names,
    names_join p hn.noSlash, names_of_noSlash hn.noSlash hn.ne_nil, List.filterMap_append,
    filterMap_names, List.append_assoc, List.filterMap_cons, hname, List.filterMap_nil]

/-- A path begins what it is joined to be. -/
theorem bytes_isPrefix_join (p : Path) (hslash : slash ∉ n) : p.bytes <+: (p.join ⟨n⟩).bytes := by
  rcases join_cases p (isAbsolute_eq_false hslash) with ⟨hnil, -⟩ | ⟨front, hjoin, hbytes | hbytes⟩
  · rw [hnil]
    exact List.nil_prefix
  · rw [hjoin, hbytes]
    exact List.prefix_append _ _
  · rw [hjoin, hbytes]
    exact ⟨n, List.append_assoc front [slash] n⟩

/-! ## 4. Several segments behind a path -/

/-- A path with names joined to it, one after the other. -/
def under (p : Path) (names : List Name) : Path :=
  names.foldl (fun p n => p.join ⟨n⟩) p

@[simp] theorem under_cons (p : Path) (n : Name) (names : List Name) :
    p.under (n :: names) = (p.join ⟨n⟩).under names := rfl

/-- **Names that are joined to a path** are read behind its components, in their order. -/
theorem components_under {names : List Name} : ∀ {p : Path}, p.bytes ≠ [] →
    (∀ n ∈ names, IsSegment n) → (p.under names).components = p.components ++ names.map .name := by
  induction names with
  | nil =>
    intro p _ _
    exact (List.append_nil _).symm
  | cons n names ih =>
    intro p hne hnames
    have hn := hnames n List.mem_cons_self
    rw [under_cons, ih (join_ne_nil p hn) fun m hm => hnames m (List.mem_cons_of_mem _ hm),
      components_join hne hn, List.append_assoc]
    rfl

theorem under_concat (p : Path) (names : List Name) (n : Name) :
    p.under (names ++ [n]) = (p.under names).join ⟨n⟩ :=
  List.foldl_concat ..

/-- **The steps of a path with names behind it** are its names and these. -/
theorem steps_under {names : List Name} (hne : names ≠ []) (hnames : ∀ n ∈ names, IsSegment n) :
    (p.under names).steps = p.names ++ names := by
  have hunder : ∀ {names : List Name}, (∀ n ∈ names, IsSegment n) →
      (p.under names).names = p.names ++ names := by
    intro names hnames
    induction names using List.reverseRecOn with
    | nil => exact (List.append_nil _).symm
    | append_singleton names n ih =>
      have hn := hnames n (List.mem_append_right _ (List.mem_singleton_self n))
      rw [under_concat, names_join _ hn.noSlash, names_of_noSlash hn.noSlash hn.ne_nil,
        ih fun m hm => hnames m (List.mem_append_left _ hm), List.append_assoc]
  obtain ⟨front, last, rfl⟩ := (List.eq_nil_or_concat' names).resolve_left hne
  have hn := hnames last (List.mem_append_right _ (List.mem_singleton_self last))
  rw [under_concat, steps_join _ hn.noSlash hn.ne_nil,
    hunder fun m hm => hnames m (List.mem_append_left _ hm), List.append_assoc]

/-- Names behind a path do not change its lead. -/
theorem lead_under {names : List Name} : ∀ {p : Path}, p.bytes ≠ [] → (∀ n ∈ names, IsSegment n) →
    (p.under names).lead = p.lead := by
  induction names with
  | nil => exact fun _ _ => rfl
  | cons n names ih =>
    intro p hne hnames
    have hn := hnames n List.mem_cons_self
    rw [under_cons, ih (join_ne_nil p hn) fun m hm => hnames m (List.mem_cons_of_mem _ hm),
      lead_join hne hn.noSlash]

theorem bytes_isPrefix_under {names : List Name} : ∀ {p : Path}, (∀ n ∈ names, slash ∉ n) →
    p.bytes <+: (p.under names).bytes := by
  induction names with
  | nil => exact fun _ => List.prefix_refl _
  | cons n names ih =>
    intro p hnames
    exact (bytes_isPrefix_join p (hnames n List.mem_cons_self)).trans
      (ih fun m hm => hnames m (List.mem_cons_of_mem _ hm))

end EnumAssets.Path
