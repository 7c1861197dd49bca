/-
# Assets that are one file

Assets of several sources are told apart by their components and not by their places.  In a tree
without links a path without two dots leads to the location that it spells (`place?_eq_spelled`):
that of its beginning with its steps behind, dots left out.  So of collected paths without two dots
two lead to one file exactly if they spell one location, and then they begin to be read differently
(`collect_places`).  Directories and files that begin alike give no file twice
(`places_ne_of_plain`).

But a file may be collected twice.  A pattern gives its paths without the dot that begins it, and
all other sources keep the dot, so an asset below `.` that a directory and a pattern have in common
is collected once by each (`collected_twice`).
-/
import EnumAssets.Proofs.Scan.Visible
import EnumAssets.Proofs.Sources.Union

namespace EnumAssets

variable {t : Tree} {p q : Path} {loc : Location}

/-! ## 1. The location that a path spells -/

namespace Tree

/-- The location that a path without two dots spells. -/
def spelled (t : Tree) (p : Path) : Location :=
  (p.steps.filter (· != [Path.dot])).reverse ++ startOf p t.workingDirectory

/-- **A path without two dots leads to the location that it spells.** -/
theorem place?_eq_spelled (hfree : t.LinkFree) (hup : Path.Component.up ∉ p.components)
    (h : t.place? p = some loc) : loc = t.spelled p := by
  obtain ⟨-, -, hdown⟩ := (place?_eq_some_iff hfree).mp h
  exact eq_of_descend (fun hmem => hup (Path.up_mem_components hmem)) hdown

/-- Paths without two dots that spell one location and begin alike have the same components. -/
theorem same_of_spelled_eq (hlead : p.lead = q.lead) (hp : Path.Component.up ∉ p.components)
    (hq : Path.Component.up ∉ q.components) (h : t.spelled p = t.spelled q) : p.same q = true := by
  rw [spelled, spelled, Path.startOf_eq_of_lead hlead, List.append_left_inj, List.reverse_inj] at h
  rw [Path.same, beq_iff_eq, Path.components_eq_map_name hp, Path.components_eq_map_name hq,
    hlead, h]

/-- Paths with different components that are without two dots and begin alike lead to different
places. -/
theorem place?_ne_of_precedes (hfree : t.LinkFree) (hpq : p.Precedes q) (hlead : p.lead = q.lead)
    (hp : Path.Component.up ∉ p.components) (hq : Path.Component.up ∉ q.components)
    (h : t.place? p = some loc) : t.place? q ≠ some loc := by
  intro h'
  have hspelled : t.spelled p = t.spelled q := by
    rw [← place?_eq_spelled hfree hp h, ← place?_eq_spelled hfree hq h']
  cases hpq.same_eq_false.symm.trans (same_of_spelled_eq hlead hp hq hspelled)

end Tree

/-! ## 2. Collected paths to one file -/

section Collected

variable {root : Path} {sources : List Source} {ps : List Path} {lead : List Path.Component}

/-- **Collected paths to one file**: without two dots in them, two paths lead to one place exactly
if they spell one location, and only if they begin to be read differently. -/
theorem collect_places (hfree : t.LinkFree) (h : collect t root sources = .ok ps) :
    ps.Pairwise fun p q => Path.Component.up ∉ p.components → Path.Component.up ∉ q.components →
      ∀ loc loc', t.place? p = some loc → t.place? q = some loc' →
        (loc = loc' ↔ t.spelled p = t.spelled q) ∧ (loc = loc' → p.lead ≠ q.lead) := by
  refine (ascending_collect h).imp fun {p q} hpq hp hq loc loc' hloc hloc' => ⟨?_, ?_⟩
  · rw [Tree.place?_eq_spelled hfree hp hloc, Tree.place?_eq_spelled hfree hq hloc']
  · rintro rfl hlead
    exact Tree.place?_ne_of_precedes hfree hpq hlead hp hq hloc hloc'

/-- Whether a path begins to be read in a certain way, and no two dots follow. -/
structure Path.Plain (lead : List Path.Component) (p : Path) : Prop where
  lead_eq : p.lead = lead
  noUp : Path.Component.up ∉ p.components

/-- What a scan finds is plain if the directory is. -/
theorem Path.Plain.of_mem_assets {directory : Path} {found : List Path} (h : directory.Plain lead)
    (hfound : Scan.assets t directory = .ok found) (hp : p ∈ found) : p.Plain lead := by
  obtain ⟨hne, names, hseen⟩ := Scan.exists_seen_of_mem_assets hfound hp
  have hlead := Path.lead_under hne fun n hn => (hseen.shown n hn).1
  refine ⟨by rw [hseen.eq_under, hlead, h.lead_eq], ?_⟩
  rw [hseen.components_eq hne, List.mem_append, not_or]
  exact ⟨h.noUp, by simp⟩

/-- **Directories and files that begin alike** give no file twice. -/
theorem places_ne_of_plain (hfree : t.LinkFree) (h : collect t root sources = .ok ps)
    (hsources : ∀ s ∈ sources, ∃ p, (s = .directory p ∨ s = .file p) ∧ (root.join p).Plain lead) :
    ps.Pairwise fun p q => ∀ loc, t.place? p = some loc → t.place? q ≠ some loc := by
  have hplain : ∀ p ∈ ps, p.Plain lead := by
    intro p hp
    obtain ⟨s, hs, qs, hread, hmem⟩ := exists_source_of_mem h hp
    obtain ⟨dir, rfl | rfl, hdir⟩ := hsources s hs
    · exact hdir.of_mem_assets hread hmem
    · rw [Source.assets] at hread
      split at hread
      · cases hread
        rwa [List.mem_singleton.mp hmem]
      · cases hread
  refine (ascending_collect h).imp_of_mem fun {p q} hp hq hpq loc => ?_
  exact Tree.place?_ne_of_precedes hfree hpq
    ((hplain p hp).lead_eq.trans (hplain q hq).lead_eq.symm)
    (hplain p hp).noUp (hplain q hq).noUp

end Collected

namespace Overlap

/-! ## 3. A directory and a pattern in common -/

def folder : Name :=
  Utf8.encode "Assets"

def leaf : Name :=
  Utf8.encode "A.enum.toml"

/-- A directory with one asset. -/
def tree : Tree where
  nodes := [([folder], .directory), ([leaf, folder], .file [])]
  nodup := by decide
  closed := by
    intro loc hloc
    simp only [List.map_cons, List.map_nil, List.mem_cons, List.not_mem_nil, or_false] at hloc
    rcases hloc with rfl | rfl
    · exact ⟨by cbv, rfl⟩
    · exact ⟨by cbv, rfl⟩
  workingDirectory := []

theorem linkFree_tree : tree.LinkFree := by
  refine Tree.linkFree_of_nodes ?_
  rintro ⟨loc, node⟩ hmem target rfl
  simp [tree] at hmem

/-- The directory, and a pattern for all that is in it. -/
def sources : List Source :=
  [.directory (.ofText "Assets"), .glob "Assets/*"]

/-- The asset as the directory gives it. -/
def dotted : Path :=
  .ofText "./Assets/A.enum.toml"

/-- The asset as the pattern gives it. -/
def plain : Path :=
  .ofText "Assets/A.enum.toml"

theorem collect_tree : collect tree (.ofText ".") sources = .ok [dotted, plain] := by
  cbv

theorem components_dotted : dotted.components = [.here, .name folder, .name leaf] := by
  cbv

theorem components_plain : plain.components = [.name folder, .name leaf] := by
  cbv

theorem place?_dotted : tree.place? dotted = some [leaf, folder] := by
  cbv

theorem place?_plain : tree.place? plain = some [leaf, folder] := by
  cbv

/-- Both paths are without two dots, and spell one location. -/
theorem places_of_overlap : tree.LinkFree ∧
    collect tree (.ofText ".") sources = .ok [dotted, plain] ∧
    (tree.spelled dotted = tree.spelled plain ∧ dotted.lead ≠ plain.lead) := by
  have hup : Path.Component.up ∉ dotted.components ∧ Path.Component.up ∉ plain.components := by
    rw [components_dotted, components_plain]
    decide
  have hboth := (List.pairwise_cons.mp (collect_places linkFree_tree collect_tree)).1 plain
    List.mem_cons_self hup.1 hup.2 _ _ place?_dotted place?_plain
  exact ⟨linkFree_tree, collect_tree, hboth.1.mp rfl, hboth.2 rfl⟩

/-- **One file is collected twice**, by a path with a dot in front and by one without. -/
theorem collected_twice : ¬ ∀ (t : Tree) (root : Path) (sources : List Source) (ps : List Path),
    t.LinkFree → collect t root sources = .ok ps →
      ps.Pairwise fun p q => ∀ loc, t.place? p = some loc → t.place? q ≠ some loc := by
  intro hall
  have hpair := hall tree _ _ _ linkFree_tree collect_tree
  exact (List.pairwise_cons.mp hpair).1 plain List.mem_cons_self _ place?_dotted place?_plain

end Overlap
end EnumAssets
