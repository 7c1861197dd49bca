/-
# Assets of several sources

The assets of a list of sources are those that the sources have on their own, put in ascending
order.  All of them have to be found: the first source that fails decides how the list fails
(`collect_eq_error_iff_first`). If none does, a path is among the assets exactly if it is among
those of some source, up to its spelling, and the spelling is that of the earliest such source
(`exists_earliest`).

`collect_sortedUnion` says this by what each source gives on its own, and that in turn by what its
search finds.  What a list of sources gives is thereby known from its members, so their order and
their repeats only matter for spellings.
-/
import EnumAssets.Proofs.Command.Loading
import EnumAssets.Proofs.Path.Arrange

namespace EnumAssets

/-! ## 1. Reading a list up to the first failure -/

section Reading

variable {ε α β : Type} {f : α → Except ε β}

/-- What is done in two steps fails in the first one, or in the second one after it. -/
theorem bind_eq_error_iff {x : Except ε α} {e : ε} :
    (x >>= f) = .error e ↔ x = .error e ∨ ∃ a, x = .ok a ∧ f a = .error e := by
  cases x <;> simp [bind, Except.bind]

/-- A list cannot be read exactly if there is a first element that cannot be read, and for its
reason. -/
theorem mapM_eq_error_iff {e : ε} : ∀ {as : List α}, as.mapM f = .error e ↔
    ∃ front a back, as = front ++ a :: back ∧ (∀ b ∈ front, ∃ r, f b = .ok r) ∧ f a = .error e
  | [] => by
    refine iff_of_false nofun ?_
    rintro ⟨front, a, back, heq, -⟩
    exact absurd heq.symm (List.append_ne_nil_of_right_ne_nil _ (List.cons_ne_nil _ _))
  | a :: as => by
    have hpure : ∀ r, (as.mapM f >>= fun rs => (pure (r :: rs) : Except ε (List β))) = .error e ↔
        as.mapM f = .error e := by
      intro r
      rw [bind_eq_error_iff]
      refine or_iff_left ?_
      rintro ⟨_, _, h⟩
      cases h
    simp only [List.mapM_cons, bind_eq_error_iff, hpure, mapM_eq_error_iff]
    constructor
    · rintro (herror | ⟨r, hr, front, a', back, rfl, hfront, herror⟩)
      · exact ⟨[], a, as, rfl, fun b hb => absurd hb List.not_mem_nil, herror⟩
      · refine ⟨a :: front, a', back, rfl, fun b hb => ?_, herror⟩
        rcases List.mem_cons.mp hb with rfl | hb
        · exact ⟨r, hr⟩
        · exact hfront b hb
    · rintro ⟨front, a', back, heq, hfront, herror⟩
      rcases List.cons_eq_append_iff.mp heq with ⟨rfl, hcons⟩ | ⟨front', rfl, rfl⟩
      · obtain ⟨rfl, -⟩ := List.cons.inj hcons
        exact Or.inl herror
      · obtain ⟨r, hr⟩ := hfront a List.mem_cons_self
        exact Or.inr ⟨r, hr, front', a', back, rfl,
          fun b hb => hfront b (List.mem_cons_of_mem _ hb), herror⟩

/-- What was read of an element is among what was read of the list. -/
theorem mem_of_forall₂_ok {as : List α} {bs : List β} {a : α} {b : β}
    (h : List.Forall₂ (fun a b => f a = .ok b) as bs) (ha : a ∈ as) (hab : f a = .ok b) :
    b ∈ bs := by
  induction h with
  | nil => cases ha
  | cons hhead _ ih =>
    rcases List.mem_cons.mp ha with rfl | ha
    · rw [Except.ok.inj (hab.symm.trans hhead)]
      exact List.mem_cons_self
    · exact List.mem_cons_of_mem _ (ih ha)

end Reading

/-! ## 2. Collecting from one source and from several -/

variable {t : Tree} {root : Path} {sources : List Source} {s : Source} {ps qs : List Path}
variable {f : Failure}

theorem collect_eq_ok_iff : collect t root sources = .ok ps ↔
    ∃ found, List.Forall₂ (fun s qs => s.assets t root = .ok qs) sources found ∧
      Path.arrange found.flatten = ps := by
  simp only [← mapM_eq_ok_iff]
  rw [collect]
  cases sources.mapM (Source.assets t root) with
  | error e =>
    constructor
    · intro h
      cases h
    · rintro ⟨_, h, _⟩
      cases h
  | ok found =>
    constructor
    · intro h
      exact ⟨found, rfl, Except.ok.inj h⟩
    · rintro ⟨found', h, rfl⟩
      rw [Except.ok.inj h]
      rfl

theorem collect_eq_error_iff_mapM :
    collect t root sources = .error f ↔ sources.mapM (Source.assets t root) = .error f := by
  rw [collect, bind_eq_error_iff]
  refine or_iff_left ?_
  rintro ⟨_, _, h⟩
  cases h

/-- The assets of a source on its own, arranged. -/
theorem collect_singleton_eq_ok_iff : collect t root [s] = .ok ps ↔
    ∃ qs, s.assets t root = .ok qs ∧ Path.arrange qs = ps := by
  simp only [collect_eq_ok_iff, List.forall₂_cons_left_iff, List.forall₂_nil_left_iff]
  constructor
  · rintro ⟨found, ⟨qs, rest, hqs, rfl, rfl⟩, hps⟩
    exact ⟨qs, hqs, by rwa [List.flatten_singleton] at hps⟩
  · rintro ⟨qs, hqs, hps⟩
    exact ⟨[qs], ⟨qs, [], hqs, rfl, rfl⟩, by rwa [List.flatten_singleton]⟩

theorem collect_singleton_eq_error_iff :
    collect t root [s] = .error f ↔ s.assets t root = .error f := by
  rw [collect_eq_error_iff_mapM, List.mapM_cons, bind_eq_error_iff]
  refine or_iff_left ?_
  rintro ⟨_, _, h⟩
  cases h

theorem exists_collect_singleton_iff :
    (∃ ps, collect t root [s] = .ok ps) ↔ ∃ qs, s.assets t root = .ok qs := by
  simp only [collect_singleton_eq_ok_iff]
  exact ⟨fun ⟨_, qs, hqs, _⟩ => ⟨qs, hqs⟩, fun ⟨qs, hqs⟩ => ⟨_, qs, hqs, rfl⟩⟩

/-- What a source finds is collected from it, in one spelling of each path. -/
theorem exists_collect_singleton (h : s.assets t root = .ok qs) :
    ∃ ps, collect t root [s] = .ok ps ∧ (∀ p ∈ ps, p ∈ qs) ∧
      ∀ q ∈ qs, ∃ p ∈ ps, q.same p = true := by
  refine ⟨Path.arrange qs, collect_singleton_eq_ok_iff.mpr ⟨qs, h, rfl⟩, fun p hp => ?_,
    fun q hq => ?_⟩
  · exact List.mem_of_find?_eq_some (Path.mem_arrange_iff.mp hp)
  · exact Path.exists_mem_arrange_iff.mpr ⟨q, hq, Path.same_refl q⟩

/-- **The first source that fails** on its own decides how all fail. -/
theorem collect_eq_error_iff_first : collect t root sources = .error f ↔
    ∃ front s back, sources = front ++ s :: back ∧
      (∀ r ∈ front, ∃ ps, collect t root [r] = .ok ps) ∧ collect t root [s] = .error f := by
  rw [collect_eq_error_iff_mapM, mapM_eq_error_iff]
  simp only [exists_collect_singleton_iff, collect_singleton_eq_error_iff]

/-- Assets are collected exactly if no source fails on its own. -/
theorem exists_collect_iff : (∃ ps, collect t root sources = .ok ps) ↔
    ∀ s ∈ sources, ∃ ps, collect t root [s] = .ok ps := by
  have hok : (∃ ps, collect t root sources = .ok ps) ↔
      ∃ found, sources.mapM (Source.assets t root) = .ok found := by
    simp only [collect_eq_ok_iff, ← mapM_eq_ok_iff]
    exact ⟨fun ⟨_, found, h, _⟩ => ⟨found, h⟩, fun ⟨found, h⟩ => ⟨_, found, h, rfl⟩⟩
  rw [hok, exists_mapM_eq_ok_iff]
  refine forall₂_congr fun s _ => ?_
  rw [exists_collect_singleton_iff]
  cases s.assets t root <;> simp

/-! ## 3. Where an asset comes from -/

/-- What is collected is an asset of a source, in its spelling. -/
theorem exists_source_of_mem (h : collect t root sources = .ok ps) {p : Path} (hp : p ∈ ps) :
    ∃ s ∈ sources, ∃ qs, s.assets t root = .ok qs ∧ p ∈ qs := by
  obtain ⟨found, hfound, rfl⟩ := collect_eq_ok_iff.mp h
  obtain ⟨qs, hqs, hp⟩ :=
    List.mem_flatten.mp (List.mem_of_find?_eq_some (Path.mem_arrange_iff.mp hp))
  obtain ⟨s, hs, hread⟩ := exists_of_mem_mapM (mapM_eq_ok_iff.mpr hfound) qs hqs
  exact ⟨s, hs, qs, hread, hp⟩

/-- A path is collected, in some spelling, exactly if a source has it. -/
theorem exists_mem_collect_iff (h : collect t root sources = .ok ps) (p : Path) :
    (∃ q ∈ ps, p.same q = true) ↔
      ∃ s ∈ sources, ∃ qs, collect t root [s] = .ok qs ∧ ∃ q ∈ qs, p.same q = true := by
  obtain ⟨found, hfound, rfl⟩ := collect_eq_ok_iff.mp h
  rw [Path.exists_mem_arrange_iff]
  constructor
  · rintro ⟨q, hq, hpq⟩
    obtain ⟨qs, hqs, hq⟩ := List.mem_flatten.mp hq
    obtain ⟨s, hs, hread⟩ := exists_of_mem_mapM (mapM_eq_ok_iff.mpr hfound) qs hqs
    exact ⟨s, hs, _, collect_singleton_eq_ok_iff.mpr ⟨qs, hread, rfl⟩,
      Path.exists_mem_arrange_iff.mpr ⟨q, hq, hpq⟩⟩
  · rintro ⟨s, hs, _, hcollect, hmem⟩
    obtain ⟨qs, hread, rfl⟩ := collect_singleton_eq_ok_iff.mp hcollect
    obtain ⟨q, hq, hpq⟩ := Path.exists_mem_arrange_iff.mp hmem
    exact ⟨q, List.mem_flatten.mpr ⟨qs, mem_of_forall₂_ok hfound hs hread, hq⟩, hpq⟩

/-- **Each asset is spelled as by the earliest source that has it.** -/
theorem exists_earliest (h : collect t root sources = .ok ps) {p : Path} (hp : p ∈ ps) :
    ∃ front s back qs, sources = front ++ s :: back ∧ collect t root [s] = .ok qs ∧ p ∈ qs ∧
      ∀ r ∈ front, ∀ rs, collect t root [r] = .ok rs → ∀ q ∈ rs, q.same p = false := by
  obtain ⟨found, hfound, rfl⟩ := collect_eq_ok_iff.mp h
  rw [Path.mem_arrange_iff, List.find?_flatten, List.findSome?_eq_some_iff] at hp
  obtain ⟨before, qs, after, rfl, hqs, hbefore⟩ := hp
  have hfront := List.forall₂_take_append _ _ _ hfound
  obtain ⟨s, back, hread, -, hback⟩ :=
    List.forall₂_cons_right_iff.mp (List.forall₂_drop_append _ _ _ hfound)
  refine ⟨sources.take before.length, s, back, _, ?_,
    collect_singleton_eq_ok_iff.mpr ⟨qs, hread, rfl⟩,
    Path.mem_arrange_iff.mpr hqs, ?_⟩
  · rw [← hback, List.take_append_drop]
  · intro r hr _ hcollect q hq
    obtain ⟨rs, hrs, rfl⟩ := collect_singleton_eq_ok_iff.mp hcollect
    have hnone := hbefore rs (mem_of_forall₂_ok hfront hr hrs)
    have hmem := List.mem_of_find?_eq_some (Path.mem_arrange_iff.mp hq)
    exact Bool.eq_false_iff.mpr (List.find?_eq_none.mp hnone q hmem)

theorem ascending_collect (h : collect t root sources = .ok ps) : Path.Ascending ps := by
  obtain ⟨found, -, rfl⟩ := collect_eq_ok_iff.mp h
  exact Path.ascending_arrange _

/-! ## 4. The sorted union -/

/-- What is to be known of the assets of a list of sources, by those of each source on its own. -/
structure SortedUnion (t : Tree) (root : Path) (sources : List Source) : Prop where
  /-- A source on its own gives what it finds, up to the spellings. -/
  alone_ok : ∀ s qs, s.assets t root = .ok qs → ∃ ps, collect t root [s] = .ok ps ∧
    (∀ p ∈ ps, p ∈ qs) ∧ ∀ q ∈ qs, ∃ p ∈ ps, q.same p = true
  /-- It fails where its search fails. -/
  alone_error_iff : ∀ s f, collect t root [s] = .error f ↔ s.assets t root = .error f
  /-- Something is collected unless a source fails. -/
  exists_iff : (∃ ps, collect t root sources = .ok ps) ↔
    ∀ s ∈ sources, ∃ ps, collect t root [s] = .ok ps
  /-- If sources fail, the failure is that of the first of them. -/
  error_iff : ∀ f, collect t root sources = .error f ↔
    ∃ front s back, sources = front ++ s :: back ∧
      (∀ r ∈ front, ∃ ps, collect t root [r] = .ok ps) ∧ collect t root [s] = .error f
  /-- Every path comes strictly before those that follow it. -/
  ascending : ∀ ps, collect t root sources = .ok ps →
    ps.Pairwise fun p q => p.Precedes q ∧ p.same q = false
  /-- The paths are those of the sources. -/
  same_iff : ∀ ps, collect t root sources = .ok ps → ∀ p : Path, (∃ q ∈ ps, p.same q = true) ↔
    ∃ s ∈ sources, ∃ qs, collect t root [s] = .ok qs ∧ ∃ q ∈ qs, p.same q = true
  /-- Their spelling is that of the earliest source. -/
  spelling : ∀ ps, collect t root sources = .ok ps → ∀ p ∈ ps, ∃ front s back qs,
    sources = front ++ s :: back ∧ collect t root [s] = .ok qs ∧ p ∈ qs ∧
      ∀ r ∈ front, ∀ rs, collect t root [r] = .ok rs → ∀ q ∈ rs, q.same p = false
  /-- Another list of the same sources, in another order or with repeats, succeeds as well or fails
  as well. -/
  exists_congr : ∀ sources', (∀ s, s ∈ sources' ↔ s ∈ sources) →
    ((∃ ps, collect t root sources' = .ok ps) ↔ ∃ ps, collect t root sources = .ok ps)
  /-- It gives paths with the same components in the same order. -/
  same_congr : ∀ sources', (∀ s, s ∈ sources' ↔ s ∈ sources) → ∀ ps ps',
    collect t root sources = .ok ps → collect t root sources' = .ok ps' →
      List.Forall₂ (fun p q => p.same q = true) ps ps'

/-- **The assets of a list of sources are the sorted union** of those of the sources. -/
theorem collect_sortedUnion (t : Tree) (root : Path) (sources : List Source) :
    SortedUnion t root sources := by
  constructor
  case alone_ok => exact fun s qs h => exists_collect_singleton h
  case alone_error_iff => exact fun s f => collect_singleton_eq_error_iff
  case exists_iff => exact exists_collect_iff
  case error_iff => exact fun f => collect_eq_error_iff_first
  case ascending =>
    exact fun ps h => (ascending_collect h).imp fun hpq => ⟨hpq, hpq.same_eq_false⟩
  case same_iff => exact fun ps h p => exists_mem_collect_iff h p
  case spelling => exact fun ps h p hp => exists_earliest h hp
  case exists_congr =>
    intro sources' hmem
    rw [exists_collect_iff, exists_collect_iff]
    exact forall_congr' fun s => imp_congr_left (hmem s)
  case same_congr =>
    intro sources' hmem ps ps' h h'
    refine (ascending_collect h).forall₂_same (ascending_collect h') fun p => ?_
    rw [exists_mem_collect_iff h, exists_mem_collect_iff h']
    exact exists_congr fun s => and_congr_left' (hmem s).symm

end EnumAssets
