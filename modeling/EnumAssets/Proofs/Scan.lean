/-
# What a scan finds

A scan finds assets only (`isAsset_of_mem_below`), so a file whose name is not that of an asset
makes no difference to it: trees that differ in such files are scanned alike (`assets_eq`).  The
argument follows the scan down the tree.  Below a spot the two trees have the same entries, these
files apart, and a file that is no asset adds nothing.
-/
import EnumAssets.Scan
import EnumAssets.Proofs.Tree.Spot

namespace EnumAssets

/-! ## 1. Names of assets -/

theorem Path.isAsset_iff {p : Path} : p.isAsset = true ↔
    ∃ n, p.fileName = some n ∧ (Utf8.decode n).isSome = true ∧ Utf8.encode assetSuffix <:+ n := by
  rw [isAsset, Option.any_eq_true]
  refine exists_congr fun n => and_congr_right fun _ => ?_
  rw [Bool.and_eq_true, List.isSuffixOf_iff_suffix]

/-- Whether no name with an ending is that of an asset. -/
def NoAsset (ending : Bytes) : Prop :=
  ∀ n : Name, ending <:+ n → ¬ Utf8.encode assetSuffix <:+ n

theorem NoAsset.isAsset_eq_false {ending : Bytes} (h : NoAsset ending) {p : Path} {n : Name}
    (hname : p.fileName = some n) (hends : ending <:+ n) : p.isAsset = false := by
  rw [← Bool.not_eq_true, Path.isAsset_iff]
  rintro ⟨m, hm, -, hasset⟩
  rw [hname] at hm
  obtain rfl := Option.some.inj hm
  exact h n hends hasset

theorem NoAsset.not_suffix {ending : Bytes} (h : NoAsset ending) {p : Path}
    (hasset : p.isAsset = true)
    {n : Name} (hname : p.fileName = some n) : ¬ ending <:+ n := by
  intro hends
  rw [h.isAsset_eq_false hname hends] at hasset
  cases hasset

/-- What adds nothing may be left out. -/
theorem flatMap_filter {α β : Type} {f : α → List β} {p : α → Bool} : ∀ {xs : List α},
    (∀ x ∈ xs, p x = false → f x = []) → (xs.filter p).flatMap f = xs.flatMap f
  | [], _ => rfl
  | x :: xs, h => by
    have ih := flatMap_filter fun y hy => h y (List.mem_cons_of_mem _ hy)
    rw [List.filter_cons, List.flatMap_cons]
    split
    · rw [List.flatMap_cons, ih]
    · next hx => rw [ih, h x List.mem_cons_self (by simpa using hx), List.nil_append]

namespace Scan

variable {t t' : Tree} {ending : Bytes}

/-! ## 2. Scans -/

/-- The assets that a scan finds at an entry, and below it. -/
def atEntry (t : Tree) (around : List Location) (s : Spot) (entry : Name × Spot) : List Path :=
  if isHidden entry.1 then []
  else if t.isFileSpot entry.2 then (if entry.2.path.isAsset then [entry.2.path] else [])
  else if !t.isDirectorySpot entry.2 ||
      (entry.2.location != entry.1 :: s.location && around.contains entry.2.location) then []
  else below t (entry.2.location :: around) entry.2

/-- At a file the scan finds the file itself, if it is an asset. -/
theorem atEntry_of_file {around : List Location} {s : Spot} {entry : Name × Spot}
    (hshown : isHidden entry.1 = false) (hfile : t.isFileSpot entry.2 = true) :
    atEntry t around s entry = if entry.2.path.isAsset then [entry.2.path] else [] := by
  rw [atEntry, hshown, if_neg Bool.false_ne_true, hfile, if_pos rfl]

/-- The entries below a spot are gone through one by one. -/
theorem below_eq (t : Tree) (around : List Location) (s : Spot) :
    below t around s = (t.entries s fun n => s.path.join ⟨n⟩).flatMap (atEntry t around s) := by
  rw [below, ← t.map_below, List.flatMap_map]
  rfl

/-- **A scan finds assets only.** -/
theorem isAsset_of_mem_below {p : Path} (around : List Location) (s : Spot)
    (h : p ∈ below t around s) : p.isAsset = true := by
  rw [below_eq, List.mem_flatMap] at h
  obtain ⟨⟨n, s'⟩, hentry, hp⟩ := h
  have hroom := t.room_lt_of_mem_entries hentry
  rw [atEntry] at hp
  split at hp
  · cases hp
  · split at hp
    · split at hp
      · next hasset => rwa [List.mem_singleton.mp hp]
      · cases hp
    · split at hp
      · cases hp
      · exact isAsset_of_mem_below _ s' hp
termination_by t.room s

/-- A file that is no asset adds nothing. -/
theorem atEntry_eq_nil (hno : NoAsset ending) (hfree : t.LinkFree) {around : List Location}
    {s : Spot}
    {entry : Name × Spot} (hentry : entry ∈ t.entries s fun n => s.path.join ⟨n⟩)
    (hstands : t.stands ending entry = false) : atEntry t around s entry = [] := by
  obtain ⟨n, s'⟩ := entry
  obtain ⟨hat, -, rfl⟩ := (Tree.mem_entries_iff hfree).mp hentry
  obtain ⟨hsegment, -⟩ := Tree.isSegment_of_at? hat
  rw [Tree.stands, Bool.or_eq_false_iff, Bool.not_eq_false', List.isSuffixOf_iff_suffix] at hstands
  have hasset : (s.path.join ⟨n⟩).isAsset = false :=
    hno.isAsset_eq_false (Path.fileName_join s.path hsegment) hstands.1
  rw [atEntry]
  split
  · rfl
  · rw [hasset, hstands.2]
    split <;> rfl

/-- **Trees that differ in files that are no assets are scanned alike.** -/
theorem below_eq_below (h : t.Besides ending t') (hfree : t.LinkFree) (hno : NoAsset ending)
    (around : List Location) (s : Spot) : below t' around s = below t around s := by
  have hfree' := h.linkFree hfree
  rw [below_eq, below_eq,
    ← flatMap_filter fun entry hentry => atEntry_eq_nil hno hfree hentry,
    ← flatMap_filter fun entry hentry => atEntry_eq_nil hno hfree' hentry,
    h.stands_eq, h.filter_entries_eq hfree]
  refine List.flatMap_congr fun entry hentry => ?_
  obtain ⟨n, s'⟩ := entry
  obtain ⟨hmem, hstand⟩ := List.mem_filter.mp hentry
  have hroom := t.room_lt_of_mem_entries hmem
  have hat := h.at?_eq_of_stands hfree hmem hstand
  have hfile : t'.isFileSpot s' = t.isFileSpot s' := by rw [Tree.isFileSpot, hat, Tree.isFileSpot]
  have hdir : t'.isDirectorySpot s' = t.isDirectorySpot s' := h.isDirectoryAt_eq _
  rw [atEntry, atEntry, hfile, hdir, below_eq_below h hfree hno _ s']
termination_by t.room s

theorem assets_eq_error {directory : Path}
    (h : ∀ s, t.spot? directory = some s → t.isDirectorySpot s = false) :
    assets t directory = .error (.sourceNotFound directory) := by
  rw [assets]
  split
  · next s hs => rw [h s hs, if_neg (by decide)]
  · rfl

theorem assets_eq (h : t.Besides ending t') (hfree : t.LinkFree) (hno : NoAsset ending)
    (directory : Path) : assets t' directory = assets t directory := by
  rcases h.spot?_same_or_spare hfree directory with hsame | ⟨hspare, hspare'⟩
  · rw [assets, hsame, assets]
    split
    · rw [Tree.isDirectorySpot, h.isDirectoryAt_eq, ← Tree.isDirectorySpot,
        below_eq_below h hfree hno]
    · rfl
  · rw [assets_eq_error fun s hs => (hspare s hs).isDirectoryAt_eq,
      assets_eq_error fun s hs => (hspare' s hs).isDirectoryAt_eq]

theorem isAsset_of_mem_assets {directory p : Path} {ps : List Path}
    (h : assets t directory = .ok ps) (hp : p ∈ ps) : p.isAsset = true := by
  rw [assets] at h
  split at h
  · split at h
    · cases h
      exact isAsset_of_mem_below _ _ hp
    · cases h
  · cases h

end Scan
end EnumAssets
