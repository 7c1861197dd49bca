/-
# The parent of a path

A path is its segments (`ofSegments_segments`, `segments_ofSegments`), and its parent is spelled by
the first of them.  `parent_eq_some` says by which: by none for a name alone, by the root for an
entry of the root, and else by segments that are `Kept`, which is that no blank one is at their end.

Two facts about parents follow.  The steps to a path are those to its parent and at least one more
(`steps_of_parent`), so whoever reaches the path goes through its parent.  And a name that is joined
to a parent has that very parent again, spelled the same (`parent_join`).
-/
import EnumAssets.Tree.Walk
import Mathlib.Data.List.DropRight

namespace EnumAssets.Path

/-! ## 1. Segments -/

theorem segments_ne_nil (p : Path) : p.segments ≠ [] :=
  List.splitOn_ne_nil _ _

/-- A path is spelled by its segments. -/
theorem ofSegments_segments (p : Path) : ofSegments p.segments = p := by
  rw [ofSegments, segments, List.intercalate_splitOn]

/-- Segments without slashes are got back. -/
theorem segments_ofSegments {segs : List Bytes} (hne : segs ≠ []) (h : ∀ s ∈ segs, slash ∉ s) :
    (ofSegments segs).segments = segs := by
  rw [segments, ofSegments, List.splitOn_intercalate _ h hne]

/-- No separator is in what lies between separators. -/
theorem not_mem_of_mem_splitOn {α : Type} [BEq α] [LawfulBEq α] {sep : α} {xs : List α} :
    ∀ {part : List α}, part ∈ xs.splitOn sep → sep ∉ part := by
  induction xs with
  | nil =>
    intro part h
    rw [List.splitOn_nil, List.mem_singleton] at h
    rw [h]
    exact List.not_mem_nil
  | cons x xs ih =>
    intro part h
    rw [List.splitOn_cons_eq_if_modifyHead] at h
    split at h
    · rcases List.mem_cons.mp h with rfl | h
      · exact List.not_mem_nil
      · exact ih h
    · next hx =>
      obtain ⟨w, ws, hws⟩ := List.exists_cons_of_ne_nil (List.splitOn_ne_nil sep xs)
      rw [hws] at ih
      rw [hws, List.modifyHead_cons, List.mem_cons] at h
      rcases h with rfl | h
      · rw [List.mem_cons, not_or]
        exact ⟨fun e => hx (beq_iff_eq.mpr e.symm), ih List.mem_cons_self⟩
      · exact ih (List.mem_cons_of_mem _ h)

theorem slash_not_mem_segment {p : Path} {s : Bytes} (h : s ∈ p.segments) : slash ∉ s :=
  not_mem_of_mem_splitOn h

/-- One more segment at the end is a slash and the segment. -/
theorem ofSegments_concat {segs : List Bytes} (hne : segs ≠ []) (s : Bytes) :
    (ofSegments (segs ++ [s])).bytes = (ofSegments segs).bytes ++ [slash] ++ s := by
  induction segs with
  | nil => exact absurd rfl hne
  | cons first rest ih =>
    cases rest with
    | nil => simp [ofSegments, List.intercalate_cons_cons]
    | cons second rest =>
      have ih := ih (List.cons_ne_nil _ _)
      simp only [ofSegments, List.cons_append, List.intercalate_cons_cons] at ih ⊢
      rw [ih]
      simp

/-- The spelling of the first segments begins the spelling of all of them. -/
theorem ofSegments_isPrefix (segs more : List Bytes) :
    (ofSegments segs).bytes <+: (ofSegments (segs ++ more)).bytes := by
  induction segs with
  | nil => exact List.nil_prefix
  | cons first rest ih =>
    cases rest with
    | nil =>
      cases more with
      | nil => exact List.prefix_refl _
      | cons second more =>
        simp only [ofSegments, List.cons_append, List.nil_append, List.intercalate_cons_cons,
          List.intercalate_singleton, List.append_assoc]
        exact List.prefix_append _ _
    | cons second rest =>
      simp only [ofSegments, List.cons_append, List.intercalate_cons_cons] at ih ⊢
      exact (List.prefix_append_right_inj _).mpr ih

/-- A path is absolute if its first segment is empty and not its only one. -/
theorem isAbsolute_ofSegments {first : Bytes} (h : slash ∉ first) (rest : List Bytes) :
    (ofSegments (first :: rest)).isAbsolute = (first.isEmpty && !rest.isEmpty) := by
  cases first with
  | nil => cases rest <;> simp [isAbsolute, ofSegments, List.intercalate_cons_cons]
  | cons b bs =>
    have hb : b ≠ slash := fun e => h (e ▸ List.mem_cons_self)
    cases rest <;> simp [isAbsolute, ofSegments, List.intercalate_cons_cons, hb]

/-- What lies between separators is part of the whole. -/
theorem subset_intercalate {α : Type} {sep part : List α} : ∀ {parts : List (List α)},
    part ∈ parts → part ⊆ sep.intercalate parts
  | [], h => absurd h List.not_mem_nil
  | [only], h => by
    rw [List.mem_singleton.mp h, List.intercalate_singleton]
    exact List.Subset.refl _
  | first :: second :: rest, h => by
    intro a ha
    simp only [List.intercalate_cons_cons, List.mem_append]
    rcases List.mem_cons.mp h with rfl | h
    · exact Or.inl (Or.inl ha)
    · exact Or.inr (subset_intercalate h ha)

theorem subset_of_mem_splitOn {α : Type} [BEq α] [LawfulBEq α] {sep : α} {xs part : List α}
    (h : part ∈ xs.splitOn sep) : part ⊆ xs := by
  have hsub := @subset_intercalate α [sep] part (xs.splitOn sep) h
  rwa [List.intercalate_splitOn] at hsub

/-! ## 2. Steps -/

/-- A step is spelled in the path without a slash, or it is the dot for a slash at the end. -/
theorem mem_steps {p : Path} {s : Name} (h : s ∈ p.steps) :
    s = [dot] ∨ s ≠ [] ∧ slash ∉ s ∧ s ⊆ p.bytes := by
  have hnames : ∀ {s : Name}, s ∈ p.names → s ≠ [] ∧ slash ∉ s ∧ s ⊆ p.bytes := by
    intro s hs
    obtain ⟨hseg, hne⟩ := List.mem_filter.mp hs
    exact ⟨by simpa using hne, slash_not_mem_segment hseg, subset_of_mem_splitOn hseg⟩
  rw [steps] at h
  split at h
  · rcases List.mem_append.mp h with h | h
    · exact Or.inr (hnames h)
    · exact Or.inl (List.mem_singleton.mp h)
  · exact Or.inr (hnames h)

/-- A path that is not empty has a step: without a name it ends with a slash. -/
theorem steps_ne_nil {p : Path} (hne : p.bytes ≠ []) : p.steps ≠ [] := by
  rw [steps]
  split
  · exact List.append_ne_nil_of_right_ne_nil _ (List.cons_ne_nil _ _)
  · next hlast =>
    intro hnil
    have hempty : ∀ s ∈ p.segments, s = [] := fun s hs => by
      simpa using List.filter_eq_nil_iff.mp hnil s hs
    have hsegs := List.dropLast_append_getLast p.segments_ne_nil
    rw [hempty _ (List.getLast_mem p.segments_ne_nil)] at hsegs
    rw [← ofSegments_segments p, ← hsegs] at hne hlast
    by_cases hfront : p.segments.dropLast = []
    · rw [hfront] at hne
      exact hne rfl
    · rw [ofSegments_concat hfront, List.append_nil, List.getLast?_concat] at hlast
      exact hlast rfl

/-! ## 3. Blank segments at the end -/

theorem trim_eq_self_iff {segs : List Bytes} :
    trim segs = segs ↔ ∀ h : segs ≠ [], isBlank (segs.getLast h) = false := by
  have h : trim segs = segs ↔ ∀ h : segs ≠ [], ¬ isBlank (segs.getLast h) = true :=
    List.rdropWhile_eq_self_iff
  simpa using h

theorem trim_trim (segs : List Bytes) : trim (trim segs) = trim segs :=
  List.rdropWhile_idempotent _ _

theorem trim_concat {s : Bytes} (h : isBlank s = false) (segs : List Bytes) :
    trim (segs ++ [s]) = segs ++ [s] :=
  trim_eq_self_iff.mpr fun _ => by rw [List.getLast_concat, h]

/-- In front of segments with nothing blank at their end, any segment may stand. -/
theorem trim_cons_eq_self_iff {first : Bytes} {rest : List Bytes} :
    trim (first :: rest) = first :: rest ↔
      trim rest = rest ∧ (rest = [] → isBlank first = false) := by
  rw [trim_eq_self_iff, trim_eq_self_iff]
  cases rest with
  | nil => simp
  | cons second rest => simp

theorem withoutLast_concat {s : Bytes} (h : isBlank s = false) (segs : List Bytes) :
    withoutLast (segs ++ [s]) = some (trim segs) := by
  have hdrop : (segs ++ [s]).dropLast = segs := List.dropLast_concat
  rw [withoutLast, trim_concat h]
  split
  · next hnil => exact absurd hnil (List.append_ne_nil_of_right_ne_nil _ (List.cons_ne_nil _ _))
  · rw [hdrop]

/-- What is in front of the last segment that says something has no blank one at its end. -/
theorem withoutLast_eq_some {segs kept : List Bytes} (h : withoutLast segs = some kept) :
    trim kept = kept ∧ ∃ more, segs = kept ++ more ∧ ∃ s ∈ more, isBlank s = false := by
  rw [withoutLast] at h
  split at h
  · cases h
  · next hne =>
    obtain ⟨blanks, hblanks⟩ : trim segs <+: segs := List.rdropWhile_prefix _ _
    obtain ⟨more, hmore⟩ : trim (trim segs).dropLast <+: (trim segs).dropLast :=
      List.rdropWhile_prefix _ _
    have hlast := trim_eq_self_iff.mp (trim_trim segs) hne
    obtain rfl := Option.some.inj h
    refine ⟨trim_trim _, more ++ [(trim segs).getLast hne] ++ blanks, ?_, _, ?_, hlast⟩
    · rw [← List.append_assoc, ← List.append_assoc, hmore, List.dropLast_append_getLast, hblanks]
    · simp

/-! ## 4. The spelling of a parent -/

/-- Segments that spell a parent other than the root: no blank one is at the end, a dot that begins
a relative path apart. -/
def Kept : List Bytes → Prop
  | [] => False
  | first :: rest => trim rest = rest ∧ (rest = [] → first ≠ [])

/-- **How a parent is spelled**: not at all, as the root, or by the first segments. -/
inductive Spelled (p : Path) : Path → Prop where
  | nothing (h : p.isAbsolute = false) : Spelled p ⟨[]⟩
  | root (more : List Bytes) (h : p.segments = [] :: more) (hmore : ∃ s ∈ more, isBlank s = false) :
      Spelled p ⟨[slash]⟩
  | segments (kept more : List Bytes) (h : p.segments = kept ++ more) (ends : Kept kept)
      (hmore : ∃ s ∈ more, isBlank s = false) : Spelled p (ofSegments kept)

theorem isAbsolute_of_segments {p : Path} {first : Bytes} {rest : List Bytes}
    (h : p.segments = first :: rest) : p.isAbsolute = (first.isEmpty && !rest.isEmpty) := by
  have hfirst : slash ∉ first := slash_not_mem_segment (h ▸ List.mem_cons_self)
  rw [← isAbsolute_ofSegments hfirst, ← h, ofSegments_segments]

theorem spelled_of_parent {p dir : Path} (h : p.parent = some dir) : Spelled p dir := by
  rw [parent] at h
  split at h
  · cases h
  · next first rest hsegs =>
    have habs := isAbsolute_of_segments hsegs
    split at h
    · next hroot =>
      have hfirst : first = [] := by
        rw [hroot] at habs
        simpa using (Bool.and_eq_true_iff.mp habs.symm).1
      obtain ⟨kept, hkept, rfl⟩ := Option.map_eq_some_iff.mp h
      obtain ⟨htrim, more, rfl, hmore⟩ := withoutLast_eq_some hkept
      rw [hfirst] at hsegs
      cases kept with
      | nil => exact .root more hsegs hmore
      | cons second kept =>
        rw [hfirst]
        exact .segments _ more hsegs ⟨htrim, fun hnil => absurd hnil (List.cons_ne_nil _ _)⟩ hmore
    · next hroot =>
      split at h
      · next hdot =>
        split at h
        · obtain rfl := Option.some.inj h
          exact .nothing (Bool.eq_false_iff.mpr hroot)
        · next kept hkept =>
          obtain ⟨htrim, more, rfl, hmore⟩ := withoutLast_eq_some hkept
          obtain rfl := Option.some.inj h
          refine .segments _ more hsegs ⟨htrim, fun _ => ?_⟩ hmore
          rw [hdot]
          exact List.cons_ne_nil _ _
      · obtain ⟨kept, hkept, rfl⟩ := Option.map_eq_some_iff.mp h
        obtain ⟨htrim, more, heq, hmore⟩ := withoutLast_eq_some hkept
        cases kept with
        | nil => exact .nothing (Bool.eq_false_iff.mpr hroot)
        | cons second kept =>
          obtain ⟨htrim, hsays⟩ := trim_cons_eq_self_iff.mp htrim
          refine .segments _ more (hsegs.trans heq) ⟨htrim, fun hnil e => ?_⟩ hmore
          have := hsays hnil
          rw [e] at this
          cases this

/-! ## 5. Going through the parent -/

variable {p dir : Path}

theorem slash_not_mem_of_segments_eq {kept more : List Bytes} (h : p.segments = kept ++ more) :
    ∀ s ∈ kept, slash ∉ s :=
  fun _ hs => slash_not_mem_segment (h ▸ List.mem_append_left _ hs)

theorem Kept.ne_nil {kept : List Bytes} (h : Kept kept) : kept ≠ [] := by
  rintro rfl
  exact h

/-- A path and its parent begin at the same place. -/
theorem Spelled.isAbsolute_eq (h : Spelled p dir) : dir.isAbsolute = p.isAbsolute := by
  cases h with
  | nothing h =>
    rw [h]
    rfl
  | root more h hmore =>
    obtain ⟨s, hs, -⟩ := hmore
    rw [isAbsolute_of_segments h]
    cases more with
    | nil => exact absurd hs List.not_mem_nil
    | cons _ _ => rfl
  | segments kept more h ends hmore =>
    cases kept with
    | nil => exact absurd ends id
    | cons first rest =>
      have hfirst : slash ∉ first := slash_not_mem_of_segments_eq h first List.mem_cons_self
      rw [isAbsolute_ofSegments hfirst, isAbsolute_of_segments h]
      cases rest with
      | nil =>
        have hne : first.isEmpty = false := by simpa using ends.2 rfl
        simp [hne]
      | cons _ _ => simp

/-- The spelling of a parent begins the spelling of the path. -/
theorem Spelled.bytes_isPrefix (h : Spelled p dir) : dir.bytes <+: p.bytes := by
  cases h with
  | nothing h => exact List.nil_prefix
  | root more h hmore =>
    rw [← ofSegments_segments p, h]
    obtain ⟨s, hs, -⟩ := hmore
    cases more with
    | nil => exact absurd hs List.not_mem_nil
    | cons second more => simp [ofSegments, List.intercalate_cons_cons]
  | segments kept more h ends hmore =>
    rw [← ofSegments_segments p, h]
    exact ofSegments_isPrefix kept more

/-- **Behind the names of the parent** there is at least one more. -/
theorem Spelled.names_eq (h : Spelled p dir) (hdir : dir.bytes ≠ []) :
    ∃ last ≠ [], p.names = dir.names ++ last := by
  have hsays : ∀ {more : List Bytes}, (∃ s ∈ more, isBlank s = false) →
      more.filter (fun s => !s.isEmpty) ≠ [] := by
    rintro more ⟨s, hs, hblank⟩ hnil
    have hempty := List.filter_eq_nil_iff.mp hnil s hs
    cases s with
    | nil => cases hblank
    | cons _ _ => exact hempty rfl
  cases h with
  | nothing h => exact absurd rfl hdir
  | root more h hmore => exact ⟨_, hsays hmore, by rw [names, h]; rfl⟩
  | segments kept more h ends hmore =>
    refine ⟨_, hsays hmore, ?_⟩
    rw [names, names, h, segments_ofSegments ends.ne_nil (slash_not_mem_of_segments_eq h),
      List.filter_append]

/-! ## 6. Joining a name to a parent -/

/-- The spelling of a parent ends with a name, not with a slash. -/
theorem Kept.getLast?_bytes {kept : List Bytes} (h : Kept kept) (hslash : ∀ s ∈ kept, slash ∉ s) :
    ∃ b, (ofSegments kept).bytes.getLast? = some b ∧ b ≠ slash := by
  have hlast : ∃ front last, kept = front ++ [last] ∧ last ≠ [] := by
    refine ⟨kept.dropLast, kept.getLast h.ne_nil, (List.dropLast_append_getLast _).symm, ?_⟩
    cases kept with
    | nil => exact absurd h id
    | cons first rest =>
      cases rest with
      | nil => exact h.2 rfl
      | cons second rest =>
        have hblank := trim_eq_self_iff.mp h.1 (List.cons_ne_nil _ _)
        intro e
        rw [List.getLast_cons (List.cons_ne_nil _ _)] at e
        rw [e] at hblank
        cases hblank
  obtain ⟨front, last, rfl, hne⟩ := hlast
  have hlast : (ofSegments (front ++ [last])).bytes.getLast? = last.getLast? := by
    by_cases hfront : front = []
    · simp [hfront, ofSegments]
    · rw [ofSegments_concat hfront, List.getLast?_append_of_ne_nil _ hne]
  refine ⟨last.getLast hne, hlast.trans (List.getLast?_eq_some_getLast hne), fun e => ?_⟩
  exact hslash last (by simp) (e ▸ List.getLast_mem hne)

/-- A path that is joined to kept segments is one more segment. -/
theorem Kept.join_eq {kept : List Bytes} (h : Kept kept) (hslash : ∀ s ∈ kept, slash ∉ s) {n : Path}
    (hrel : n.isAbsolute = false) : (ofSegments kept).join n = ofSegments (kept ++ [n.bytes]) := by
  obtain ⟨b, hlast, hb⟩ := h.getLast?_bytes hslash
  have hbytes := ofSegments_concat h.ne_nil n.bytes
  rw [join, if_neg (Bool.eq_false_iff.mp hrel), hlast]
  simp only [if_neg hb]
  rw [← hbytes]

/-- The parent of kept segments and a name is spelled by the kept segments. -/
theorem Kept.parent_concat {kept : List Bytes} (h : Kept kept) (hslash : ∀ s ∈ kept, slash ∉ s)
    {n : Bytes} (hn : slash ∉ n) (hblank : isBlank n = false) :
    (ofSegments (kept ++ [n])).parent = some (ofSegments kept) := by
  cases kept with
  | nil => exact absurd h id
  | cons first rest =>
    obtain ⟨htrim, hfirst⟩ := h
    have hsegs : (ofSegments (first :: rest ++ [n])).segments = first :: (rest ++ [n]) := by
      refine segments_ofSegments (List.cons_ne_nil _ _) fun s hs => ?_
      rcases List.mem_append.mp hs with hs | hs
      · exact hslash s hs
      · rw [List.mem_singleton.mp hs]
        exact hn
    have habs := isAbsolute_of_segments hsegs
    have hrest := withoutLast_concat hblank rest
    rw [htrim] at hrest
    rw [parent, hsegs]
    by_cases hroot : first = []
    · have hne : rest ≠ [] := fun e => hfirst e hroot
      have hroot' : (ofSegments (first :: rest ++ [n])).isAbsolute = true := by
        rw [habs, hroot]
        simp
      simp only [hroot', hrest]
      simp [hne]
    · have hrel : (ofSegments (first :: rest ++ [n])).isAbsolute = false := by
        rw [habs]
        simp [hroot]
      by_cases hdot : first = [dot]
      · simp only [hrel, if_pos hdot, hrest]
        simp
      · have hall := withoutLast_concat hblank (first :: rest)
        have hkept : trim (first :: rest) = first :: rest :=
          trim_cons_eq_self_iff.mpr ⟨htrim, fun _ => by simp [isBlank, hroot, hdot]⟩
        rw [hkept, List.cons_append] at hall
        simp only [hrel, hdot, hall]
        simp

/-- **A name joined to a parent** has that parent again. -/
theorem Spelled.parent_join (h : Spelled p dir) {n : Path} (hslash : slash ∉ n.bytes)
    (hblank : isBlank n.bytes = false) : (dir.join n).parent = some dir := by
  have hrel : n.isAbsolute = false := by
    rw [isAbsolute, beq_eq_false_iff_ne]
    intro e
    exact hslash (List.mem_of_mem_head? e)
  have htrim : trim [n.bytes] = [n.bytes] := trim_concat hblank []
  cases h with
  | nothing h =>
    have hsegs : n.segments = [n.bytes] := List.splitOn_eq_singleton hslash
    have hdot : n.bytes ≠ [dot] := by
      intro e
      rw [e] at hblank
      cases hblank
    have hjoin : (⟨[]⟩ : Path).join n = n := by
      rw [join, if_neg (Bool.eq_false_iff.mp hrel)]
      rfl
    rw [hjoin, parent, hsegs]
    simp only [hrel, hdot, withoutLast, htrim]
    rfl
  | root more h hmore =>
    have hjoin : (⟨[slash]⟩ : Path).join n = ofSegments [[], n.bytes] := by
      rw [join, if_neg (Bool.eq_false_iff.mp hrel)]
      simp [ofSegments, List.intercalate_cons_cons]
    have hsegs : (ofSegments [[], n.bytes]).segments = [[], n.bytes] := by
      refine segments_ofSegments (List.cons_ne_nil _ _) fun s hs => ?_
      simp only [List.mem_cons, List.not_mem_nil, or_false] at hs
      rcases hs with rfl | rfl
      · exact List.not_mem_nil
      · exact hslash
    have habs : (ofSegments [[], n.bytes]).isAbsolute = true := isAbsolute_of_segments hsegs
    rw [hjoin, parent, hsegs]
    simp only [habs, withoutLast, htrim]
    rfl
  | segments kept more h ends hmore =>
    have hkept := slash_not_mem_of_segments_eq h
    rw [ends.join_eq hkept hrel, ends.parent_concat hkept hslash hblank]

end EnumAssets.Path
