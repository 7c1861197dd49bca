/-
# A scan finds every asset that can be seen

A scan of a directory goes down by the entries whose names do not begin with a dot.  Whatever it
finds is therefore an asset file behind the directory by such names (`exists_seen_of_mem_below`),
through links as well, and no path is found twice, since the entries of a directory have different
names (`pairwise_below`). What it may leave out lies behind a link to a directory that the scan is
inside of.  Behind real directories nothing is left out, and the file itself may be a link
(`mem_below_of_at?`).

`Finds` puts this together.  In a tree without links all directories are real, so there the scan
finds exactly the asset files that can be seen.
-/
import Mathlib.Data.List.Basic
import EnumAssets.Proofs.Scan
import EnumAssets.Proofs.Tree.Below
import EnumAssets.Proofs.Path.Arrange

namespace EnumAssets.Scan

variable {t : Tree} {directory p q : Path} {s : Spot} {names : List Name} {around : List Location}

/-! ## 1. Paths that are seen -/

/-- Names that a scan does not pass over. -/
def Shown (names : List Name) : Prop :=
  ∀ n ∈ names, Path.IsSegment n ∧ isHidden n = false

/-- An asset file behind a directory, by names that a scan does not pass over. -/
structure Seen (t : Tree) (directory p : Path) (names : List Name) : Prop where
  ne_nil : names ≠ []
  shown : Shown names
  eq_under : p = directory.under names
  isFile : t.isFile p = true
  isAsset : p.isAsset = true

theorem Shown.head {n : Name} (h : Shown (n :: names)) : Path.IsSegment n ∧ isHidden n = false :=
  h n List.mem_cons_self

theorem Shown.tail {n : Name} (h : Shown (n :: names)) : Shown names :=
  fun m hm => h m (List.mem_cons_of_mem _ hm)

theorem Seen.cons {n : Name} (hn : Path.IsSegment n) (hshown : isHidden n = false)
    (h : Seen t (directory.join ⟨n⟩) p names) : Seen t directory p (n :: names) :=
  ⟨List.cons_ne_nil _ _, List.forall_mem_cons.mpr ⟨⟨hn, hshown⟩, h.shown⟩, h.eq_under, h.isFile,
    h.isAsset⟩

/-- The components of what is seen are those of the directory and the names. -/
theorem Seen.components_eq (h : Seen t directory p names) (hne : directory.bytes ≠ []) :
    p.components = directory.components ++ names.map .name := by
  rw [h.eq_under, Path.components_under hne fun n hn => (h.shown n hn).1]

/-! ## 2. What is found is seen -/

/-- **What is found at an entry is seen** from the spot, first by the name of the entry. -/
theorem exists_seen_of_mem_atEntry (around : List Location) (s : Spot) {n : Name} {s' : Spot}
    (hs : t.spot? s.path = some s) (hentry : (n, s') ∈ t.entries s fun n => s.path.join ⟨n⟩)
    (hp : p ∈ atEntry t around s (n, s')) : ∃ names, Seen t s.path p (n :: names) := by
  have hroom := t.room_lt_of_mem_entries hentry
  obtain ⟨hat, hspot⟩ := (Tree.mem_entries_join_iff hs).mp hentry
  obtain ⟨hpath, -⟩ := Tree.spot?_eq_some_iff_lookup.mp hspot
  have hn := (Tree.isSegment_of_at? hat).1
  rw [atEntry] at hp
  split at hp
  · cases hp
  · next hshown =>
    rw [Bool.not_eq_true] at hshown
    split at hp
    · next hfile =>
      split at hp
      · next hasset =>
        obtain rfl := List.mem_singleton.mp hp
        exact ⟨[], List.cons_ne_nil _ _, List.forall_mem_singleton.mpr ⟨hn, hshown⟩, hpath,
          Tree.isFile_iff_spot?.mpr ⟨s', hpath ▸ hspot, hfile⟩, hasset⟩
      · cases hp
    · split at hp
      · cases hp
      · rw [below_eq, List.mem_flatMap] at hp
        obtain ⟨⟨m, s''⟩, hentry', hp⟩ := hp
        obtain ⟨names, hseen⟩ := exists_seen_of_mem_atEntry _ s' (hpath ▸ hspot) hentry' hp
        exact ⟨m :: names, (hpath ▸ hseen).cons hn hshown⟩
termination_by t.room s

theorem exists_seen_of_mem_below (hs : t.spot? s.path = some s) (h : p ∈ below t around s) :
    ∃ names, Seen t s.path p names := by
  rw [below_eq, List.mem_flatMap] at h
  obtain ⟨⟨n, s'⟩, hentry, hp⟩ := h
  obtain ⟨names, hseen⟩ := exists_seen_of_mem_atEntry around s hs hentry hp
  exact ⟨n :: names, hseen⟩

/-! ## 3. No path is found twice -/

/-- Paths that are seen by different entries have different components. -/
theorem Seen.same_eq_false {n m : Name} {names names' : List Name} (hne : directory.bytes ≠ [])
    (hp : Seen t directory p (n :: names)) (hq : Seen t directory q (m :: names')) (hnm : n ≠ m) :
    p.same q = false := by
  rw [Path.same, hp.components_eq hne, hq.components_eq hne, beq_eq_false_iff_ne]
  intro heq
  obtain ⟨hhead, -⟩ := List.cons.inj (List.append_cancel_left heq)
  exact hnm (Path.Component.name.inj hhead)

/-- **No path is found twice**, in any spelling. -/
theorem pairwise_below (around : List Location) (s : Spot) (hs : t.spot? s.path = some s) :
    (below t around s).Pairwise fun p q => p.same q = false := by
  obtain ⟨-, hlook⟩ := Tree.spot?_eq_some_iff_lookup.mp hs
  obtain ⟨hne, -⟩ := Tree.usable_of_place? (Tree.place?_of_lookup_found hlook)
  rw [below_eq, List.pairwise_flatMap]
  constructor
  · rintro ⟨n, s'⟩ hentry
    have hroom := t.room_lt_of_mem_entries hentry
    obtain ⟨-, hspot⟩ := (Tree.mem_entries_join_iff hs).mp hentry
    obtain ⟨hpath, -⟩ := Tree.spot?_eq_some_iff_lookup.mp hspot
    rw [atEntry]
    split
    · exact List.Pairwise.nil
    · split
      · split
        · exact List.pairwise_singleton _ _
        · exact List.Pairwise.nil
      · split
        · exact List.Pairwise.nil
        · exact pairwise_below _ s' (hpath ▸ hspot)
  · refine (t.pairwise_names_entries s _).imp_of_mem ?_
    intro entry entry' hentry hentry' hnames p hp q hq
    obtain ⟨names, hseen⟩ := exists_seen_of_mem_atEntry around s hs hentry hp
    obtain ⟨names', hseen'⟩ := exists_seen_of_mem_atEntry around s hs hentry' hq
    exact hseen.same_eq_false hne hseen' hnames
termination_by t.room s

/-! ## 4. What is seen in real directories is found -/

/-- At a real directory the scan finds what is below it. -/
theorem atEntry_of_directory {n : Name} {path : Path} {links : Nat} (hshown : isHidden n = false)
    (hdir : t.isDirectoryAt (n :: s.location) = true) :
    atEntry t around s (n, ⟨path, n :: s.location, links⟩) =
      below t ((n :: s.location) :: around) ⟨path, n :: s.location, links⟩ := by
  have hat := Tree.isDirectoryAt_iff.mp hdir
  have hfile : t.isFileSpot ⟨path, n :: s.location, links⟩ = false := by rw [Tree.isFileSpot, hat]
  rw [atEntry, hshown, hfile, Tree.isDirectorySpot, hdir]
  simp

/-- **An asset file in real directories is found**, if it is seen.  The induction goes down by the
names: all of them but the last are directories, because an entry lies behind them. -/
theorem mem_below_of_at? {names : List Name} : ∀ {around : List Location} {s : Spot},
    t.spot? s.path = some s → t.at? (names.reverse ++ s.location) ≠ none →
      Seen t s.path p names → p ∈ below t around s := by
  induction names with
  | nil => exact fun _ _ hseen => absurd rfl hseen.ne_nil
  | cons n names ih =>
    intro around s hs hat hseen
    obtain ⟨hn, hshown⟩ := hseen.shown.head
    have hentries {s' : Spot} : (n, s') ∈ t.entries s (fun n => s.path.join ⟨n⟩) ↔ _ :=
      Tree.mem_entries_join_iff hs
    rw [below_eq, List.mem_flatMap]
    rw [List.reverse_cons, List.append_assoc, List.singleton_append] at hat
    cases names with
    | nil =>
      obtain ⟨s', hspot, hfile⟩ := Tree.isFile_iff_spot?.mp (hseen.eq_under ▸ hseen.isFile)
      obtain ⟨hpath, -⟩ := Tree.spot?_eq_some_iff_lookup.mp hspot
      refine ⟨(n, s'), hentries.mpr ⟨hat, hspot⟩, ?_⟩
      have hp : p = s'.path := hseen.eq_under.trans hpath.symm
      rw [atEntry_of_file hshown hfile, ← hp, hseen.isAsset]
      exact List.mem_singleton_self p
    | cons m names =>
      have hdir := Tree.isDirectoryAt_of_append
        (List.reverse_ne_nil_iff.mpr (List.cons_ne_nil m names)) hat
      have hspot : t.spot? (s.path.join ⟨n⟩) =
          some ⟨s.path.join ⟨n⟩, n :: s.location, s.links⟩ := by
        refine Tree.spot?_join_of_directory hs hdir (Tree.isUsable_of_isFile hseen.isFile ?_)
        rw [hseen.eq_under, Path.under_cons]
        exact Path.bytes_isPrefix_under fun k hk => (hseen.shown.tail k hk).1.noSlash
      refine ⟨(n, _), hentries.mpr ⟨Tree.at?_ne_none_of_isDirectoryAt hdir, hspot⟩, ?_⟩
      rw [atEntry_of_directory hshown hdir]
      exact ih hspot hat ⟨List.cons_ne_nil _ _, hseen.shown.tail, hseen.eq_under, hseen.isFile,
        hseen.isAsset⟩

/-! ## 5. What a scan finds -/

theorem assets_eq_ok_iff {found : List Path} : assets t directory = .ok found ↔
    ∃ s, t.spot? directory = some s ∧ t.isDirectorySpot s = true ∧
      below t [s.location] s = found := by
  rw [assets]
  cases t.spot? directory with
  | none => simp
  | some s => cases hdir : t.isDirectorySpot s <;> simp [hdir]

theorem assets_eq_error_iff {f : Failure} : assets t directory = .error f ↔
    t.isDirectory directory = false ∧ f = .sourceNotFound directory := by
  rw [← Bool.not_eq_true, Tree.isDirectory_iff_spot?, assets]
  cases t.spot? directory with
  | none =>
    simp only [Except.error.injEq, reduceCtorEq, false_and, exists_false, not_false_eq_true,
      true_and]
    exact eq_comm
  | some s =>
    simp only [Option.some.injEq, exists_eq_left']
    cases t.isDirectorySpot s with
    | true => simp
    | false =>
      simp only [Bool.false_eq_true, if_false, Except.error.injEq, not_false_eq_true, true_and]
      exact eq_comm

/-- **What a scan finds is seen** from the directory, whose path is not empty. -/
theorem exists_seen_of_mem_assets {found : List Path} (h : assets t directory = .ok found)
    (hp : p ∈ found) :
    directory.bytes ≠ [] ∧ ∃ names, Seen t directory p names := by
  obtain ⟨s, hs, -, rfl⟩ := assets_eq_ok_iff.mp h
  obtain ⟨rfl, hlook⟩ := Tree.spot?_eq_some_iff_lookup.mp hs
  exact ⟨(Tree.usable_of_place? (Tree.place?_of_lookup_found hlook)).1,
    exists_seen_of_mem_below hs hp⟩

/-- **What is seen in real directories is found** by a scan. -/
theorem mem_assets_of_at? {found : List Path} {loc : Location} (h : assets t directory = .ok found)
    (hplace : t.place? directory = some loc) (hseen : Seen t directory p names)
    (hat : t.at? (names.reverse ++ loc) ≠ none) : p ∈ found := by
  obtain ⟨s, hs, -, rfl⟩ := assets_eq_ok_iff.mp h
  obtain ⟨rfl, hlook⟩ := Tree.spot?_eq_some_iff_lookup.mp hs
  obtain rfl := Option.some.inj (hplace.symm.trans (Tree.place?_of_lookup_found hlook))
  exact mem_below_of_at? hs hat hseen

/-- What is seen without links is a file at the location that the names lead to. -/
theorem Seen.exists_at? (h : Seen t directory p names) (hfree : t.LinkFree) {loc : Location}
    (hplace : t.place? directory = some loc) :
    ∃ content, t.at? (names.reverse ++ loc) = some (.file content) := by
  obtain ⟨content, hcontent⟩ := Option.isSome_iff_exists.mp h.isFile
  obtain ⟨loc', hloc', hat⟩ := Tree.content?_eq_some_iff.mp hcontent
  have heq := Tree.eq_of_place?_under hfree h.ne_nil (fun n hn => (h.shown n hn).1) hplace
    (h.eq_under ▸ hloc')
  exact ⟨content, heq ▸ hat⟩

/-- What is to be known of the scan of a directory, in any tree. -/
structure Finds (t : Tree) (directory : Path) : Prop where
  /-- A scan gives a result for a directory. -/
  exists_iff : (∃ found, assets t directory = .ok found) ↔ t.isDirectory directory = true
  /-- For everything else it fails, and says what is missing. -/
  error_iff : ∀ f, assets t directory = .error f ↔
    t.isDirectory directory = false ∧ f = .sourceNotFound directory
  /-- No path is found twice, and neither is another spelling of it. -/
  distinct : ∀ found, assets t directory = .ok found →
    found.Pairwise fun p q => p ≠ q ∧ p.same q = false
  /-- What is found is seen: an asset file behind the directory, by names without a dot in front. -/
  seen : ∀ found, assets t directory = .ok found → ∀ p ∈ found,
    ∃ names, Seen t directory p names ∧ p.components = directory.components ++ names.map .name
  /-- What is seen is found if there is an entry by its names, so that all of them but the last are
  those of directories and not of links. -/
  complete : ∀ found, assets t directory = .ok found → ∀ loc, t.place? directory = some loc →
    ∀ p names, Seen t directory p names → t.at? (names.reverse ++ loc) ≠ none → p ∈ found
  /-- Without links all that is seen is found, and it is a file below the directory. -/
  exact : t.LinkFree → ∀ found, assets t directory = .ok found →
    ∀ loc, t.place? directory = some loc →
    ∀ p, (p ∈ found ↔ ∃ names, Seen t directory p names) ∧
      ∀ names, Seen t directory p names →
        ∃ content, t.at? (names.reverse ++ loc) = some (.file content)

/-- **A scan finds every asset that can be seen, once, and nothing else**, in every tree. -/
theorem assets_finds (t : Tree) (directory : Path) : Finds t directory := by
  constructor
  case exists_iff =>
    simp only [assets_eq_ok_iff, Tree.isDirectory_iff_spot?]
    exact ⟨fun ⟨_, s, hs, hdir, _⟩ => ⟨s, hs, hdir⟩, fun ⟨s, hs, hdir⟩ => ⟨_, s, hs, hdir, rfl⟩⟩
  case error_iff => exact fun f => assets_eq_error_iff
  case distinct =>
    intro found h
    obtain ⟨s, hs, -, rfl⟩ := assets_eq_ok_iff.mp h
    obtain ⟨rfl, -⟩ := Tree.spot?_eq_some_iff_lookup.mp hs
    refine (pairwise_below _ s hs).imp fun {p q} hpq => ⟨?_, hpq⟩
    rintro rfl
    rw [Path.same_refl] at hpq
    cases hpq
  case seen =>
    intro found h p hp
    obtain ⟨hne, names, hseen⟩ := exists_seen_of_mem_assets h hp
    exact ⟨names, hseen, hseen.components_eq hne⟩
  case complete =>
    exact fun found h loc hplace p names hseen hat => mem_assets_of_at? h hplace hseen hat
  case exact =>
    intro hfree found h loc hplace p
    refine ⟨⟨fun hp => (exists_seen_of_mem_assets h hp).2, ?_⟩,
      fun names hseen => hseen.exists_at? hfree hplace⟩
    rintro ⟨names, hseen⟩
    obtain ⟨content, hat⟩ := hseen.exists_at? hfree hplace
    exact mem_assets_of_at? h hplace hseen (hat ▸ Option.some_ne_none _)

/-! ## 6. A directory with links -/

namespace Tangle

def folder : Name :=
  Utf8.encode "A"

def asset : Name :=
  Utf8.encode "B.enum.toml"

def shortcut : Name :=
  Utf8.encode "C.enum.toml"

def hidden : Name :=
  Utf8.encode ".D.enum.toml"

def circle : Name :=
  Utf8.encode "E"

/-- A directory with an asset, a link to it, a hidden asset, and a link to the directory itself. -/
def tree : Tree where
  nodes := [([folder], .directory), ([asset, folder], .file []), ([shortcut, folder], .link asset),
    ([hidden, folder], .file []), ([circle, folder], .link (Utf8.encode "../A"))]
  nodup := by decide
  closed := by
    intro loc hloc
    simp only [List.map_cons, List.map_nil, List.mem_cons, List.not_mem_nil, or_false] at hloc
    rcases hloc with rfl | rfl | rfl | rfl | rfl
    all_goals exact ⟨by cbv, rfl⟩
  workingDirectory := []

/-- The link to an asset is found beside the asset, and the circle is not gone round. -/
example : assets tree (.ofText "A") = .ok [.ofText "A/B.enum.toml", .ofText "A/C.enum.toml"] := by
  have hspot : tree.spot? (.ofText "A") = some ⟨.ofText "A", [folder], linkLimit⟩ := by cbv
  have hentries : tree.entries ⟨.ofText "A", [folder], linkLimit⟩
      (fun n => (Path.ofText "A").join ⟨n⟩) =
      [(asset, ⟨.ofText "A/B.enum.toml", [asset, folder], linkLimit⟩),
        (shortcut, ⟨.ofText "A/C.enum.toml", [asset, folder], 39⟩),
        (hidden, ⟨.ofText "A/.D.enum.toml", [hidden, folder], linkLimit⟩),
        (circle, ⟨.ofText "A/E", [folder], 39⟩)] := by cbv
  refine assets_eq_ok_iff.mpr ⟨_, hspot, by cbv, ?_⟩
  rw [below_eq, hentries]
  cbv

end Tangle
end EnumAssets.Scan
