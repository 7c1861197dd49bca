/-
# Spots in trees without links

Without links a spot is known by its path: the path leads to its location, and something is there
(`spot?_eq_some_iff`).  Going down from the spot of a directory keeps this so, because one more name
behind the path is one more step (`place?_extend`); from anything else no path goes on.

`entries` lists what is one step below a spot.  Trees that differ in files with an ending have the
same entries, these files apart (`Besides.filter_entries_eq`).
-/
import EnumAssets.Glob.Expand
import EnumAssets.Proofs.Path.Join
import EnumAssets.Proofs.Tree.Besides

namespace EnumAssets

/-! ## 1. Steps of longer paths -/

namespace Path

variable {p : Path} {n : Bytes}

/-- The step that a segment is behind a path: nothing is a step on the spot. -/
def stepOf (n : Bytes) : Name :=
  if n = [] then [dot] else n

theorem stepOf_of_ne_nil (hne : n ≠ []) : stepOf n = n :=
  if_neg hne

theorem stepOf_ne_dots (hup : n ≠ [dot, dot]) : stepOf n ≠ [dot, dot] := by
  rw [stepOf]
  split
  · decide
  · exact hup

/-- A segment behind a path is one more step, whatever it is. -/
theorem steps_join_stepOf (hne : p.bytes ≠ []) (hslash : slash ∉ n) :
    (p.join ⟨n⟩).steps = p.names ++ [stepOf n] := by
  by_cases hn : n = []
  · subst hn
    have hlast : (p.join ⟨[]⟩).bytes.getLast? = some slash := by
      rcases join_cases p (isAbsolute_eq_false hslash) with ⟨hnil, -⟩ | ⟨front, hjoin, -⟩
      · exact absurd (congrArg Path.bytes hnil) hne
      · rw [hjoin]
        exact List.getLast?_concat
    rw [steps, if_pos hlast, names_join p hslash]
    exact congrArg (· ++ [[dot]]) (List.append_nil _)
  · rw [steps_join p hslash hn, stepOf_of_ne_nil hn]

theorem isAbsolute_join (hne : p.bytes ≠ []) (hrel : (⟨n⟩ : Path).isAbsolute = false) :
    (p.join ⟨n⟩).isAbsolute = p.isAbsolute := by
  rcases join_cases p hrel with ⟨hnil, -⟩ | ⟨front, hjoin, hbytes | hbytes⟩
  · exact absurd (congrArg Path.bytes hnil) hne
  · rw [isAbsolute, hjoin, isAbsolute, ← hbytes, List.head?_append_of_ne_nil _ hne]
  · rw [isAbsolute, hjoin, isAbsolute, hbytes, List.head?_append, List.head?_append]
    rfl

theorem isBlank_of_ofSegment?_eq_none {s : Bytes} (h : Component.ofSegment? s = none) :
    isBlank s = true := by
  rw [Component.ofSegment?] at h
  split at h
  · assumption
  · split at h <;> cases h

theorem ofSegment?_ne_here (s : Bytes) : Component.ofSegment? s ≠ some .here := by
  intro h
  rw [Component.ofSegment?] at h
  split at h
  · cases h
  · split at h <;> cases h

/-- A path that is read as a dot has no step but dots, and does not begin at the root. -/
theorem steps_of_here (h : p.components = [.here]) :
    p.isAbsolute = false ∧ ∀ s ∈ p.steps, s = [dot] := by
  rw [components] at h
  split at h
  · cases h
  · next first rest hsegs =>
    split at h
    · cases h
    · next habs =>
      split at h
      · next hfirst =>
        have hrest := List.filterMap_eq_nil_iff.mp (List.cons.inj h).2
        have hnames : ∀ s ∈ p.names, s = [dot] := by
          intro s hs
          obtain ⟨hmem, hne⟩ := List.mem_filter.mp hs
          rw [hsegs, List.mem_cons] at hmem
          rcases hmem with rfl | hmem
          · exact hfirst
          · have hblank := isBlank_of_ofSegment?_eq_none (hrest s hmem)
            rw [isBlank, Bool.or_eq_true, beq_iff_eq, beq_iff_eq] at hblank
            rcases hblank with rfl | hdot
            · cases hne
            · exact hdot
        refine ⟨by simpa using habs, fun s hs => ?_⟩
        rw [steps] at hs
        split at hs
        · rcases List.mem_append.mp hs with hs | hs
          · exact hnames s hs
          · exact List.mem_singleton.mp hs
        · exact hnames s hs
      · have hmem : Component.here ∈ (first :: rest).filterMap Component.ofSegment? :=
          h ▸ List.mem_singleton_self _
        obtain ⟨s, -, hs⟩ := List.mem_filterMap.mp hmem
        exact absurd hs (ofSegment?_ne_here s)

end Path

namespace Tree

variable {t t' : Tree} {p : Path} {loc : Location} {s : Spot} {n : Name}

/-! ## 2. Places of longer paths -/

theorem descend_append {xs ys : List Name} : ∀ {loc : Location},
    t.descend loc (xs ++ ys) = (t.descend loc xs).bind fun mid => t.descend mid ys := by
  induction xs with
  | nil => exact rfl
  | cons x xs ih =>
    intro loc
    rw [List.cons_append, descend, descend, ih, ih, ih]
    split
    · rfl
    · split
      · rfl
      · split
        · rfl
        · split <;> rfl

theorem descend_dot (loc : Location) :
    t.descend loc [[Path.dot]] = if t.isDirectoryAt loc then some loc else none := by
  rw [descend]
  cases t.isDirectoryAt loc <;> rfl

/-- The names of a path lead to its place: a slash behind them is no step elsewhere. -/
theorem descend_names (hfree : t.LinkFree) (h : t.place? p = some loc) :
    t.descend (startOf p t.workingDirectory) p.names = some loc := by
  obtain ⟨-, -, hdown⟩ := (place?_eq_some_iff hfree).mp h
  rw [Path.steps] at hdown
  split at hdown
  · rw [descend_append, Option.bind_eq_some_iff] at hdown
    obtain ⟨mid, hmid, hdot⟩ := hdown
    rw [descend_dot] at hdot
    split at hdot
    · rw [hmid, hdot]
    · cases hdot
  · exact hdown

theorem startOf_join (hne : p.bytes ≠ []) (hslash : Path.slash ∉ n) (directory : Location) :
    startOf (p.join ⟨n⟩) directory = startOf p directory := by
  rw [startOf, startOf, Path.isAbsolute_join hne (Path.isAbsolute_eq_false hslash)]

/-- Steps on the spot lead nowhere else. -/
theorem descend_dots : ∀ {steps : List Name} {loc loc' : Location}, steps ≠ [] →
    (∀ s ∈ steps, s = [Path.dot]) → t.descend loc steps = some loc' →
      loc' = loc ∧ t.isDirectoryAt loc = true
  | [], _, _, hne, _, _ => absurd rfl hne
  | s :: rest, loc, loc', _, hdots, hdown => by
    rw [descend] at hdown
    cases hdir : t.isDirectoryAt loc with
    | false =>
      rw [hdir] at hdown
      cases hdown
    | true =>
      rw [hdir, if_neg (by decide), if_pos (hdots s List.mem_cons_self)] at hdown
      cases rest with
      | nil => exact ⟨(Option.some.inj hdown).symm, rfl⟩
      | cons s' rest =>
        exact ⟨(descend_dots (List.cons_ne_nil _ _)
          (fun r hr => hdots r (List.mem_cons_of_mem _ hr)) hdown).1, rfl⟩

/-- **One more segment behind a path** is one more step from its place. -/
theorem place?_join (hfree : t.LinkFree) (h : t.place? p = some loc) (hslash : Path.slash ∉ n)
    (huse : isUsable (p.join ⟨n⟩) = true) :
    t.place? (p.join ⟨n⟩) = t.descend loc [Path.stepOf n] := by
  obtain ⟨hbytes, -, -⟩ := (place?_eq_some_iff hfree).mp h
  have hsteps := Path.steps_join_stepOf hbytes hslash
  have hjoined : (p.join ⟨n⟩).bytes ≠ [] := by
    intro hnil
    rw [show p.join ⟨n⟩ = ⟨[]⟩ from congrArg Path.mk hnil] at hsteps
    exact absurd hsteps.symm (by simp [Path.steps, Path.names, Path.segments])
  rw [place?, lookup_eq_walk hjoined huse, place?_walk hfree, hsteps, descend_append,
    startOf_join hbytes hslash, descend_names hfree h, Option.bind_some]

/-- Behind a path to something else than a directory nothing can follow. -/
theorem place?_join_eq_none (hfree : t.LinkFree) (h : t.place? p = some loc)
    (hdir : t.isDirectoryAt loc = false) (hslash : Path.slash ∉ n) :
    t.place? (p.join ⟨n⟩) = none := by
  rw [Option.eq_none_iff_forall_ne_some]
  intro loc' h'
  rw [place?_join hfree h hslash (usable_of_place? h').2, descend, hdir] at h'
  cases h'

/-- The place of a path that is read as a dot is the working directory. -/
theorem place?_of_here (hfree : t.LinkFree) (h : t.place? p = some loc)
    (hhere : p.components = [.here]) : loc = t.workingDirectory ∧ t.isDirectoryAt loc = true := by
  obtain ⟨hbytes, -, hdown⟩ := (place?_eq_some_iff hfree).mp h
  obtain ⟨habs, hdots⟩ := Path.steps_of_here hhere
  rw [startOf, habs] at hdown
  obtain ⟨rfl, hdir⟩ := descend_dots (Path.steps_ne_nil hbytes) hdots hdown
  exact ⟨rfl, hdir⟩

/-- Behind a path that is only a dot a segment begins a new path.  Nothing cannot: an empty path
leads nowhere. -/
theorem place?_extend (hfree : t.LinkFree) (h : t.place? p = some loc) (hslash : Path.slash ∉ n)
    (hne : (Glob.extend p n).bytes ≠ []) (huse : isUsable (Glob.extend p n) = true) :
    t.place? (Glob.extend p n) = t.descend loc [Path.stepOf n] := by
  rw [Glob.extend] at hne huse ⊢
  split
  · next hhere =>
    rw [if_pos hhere] at hne huse
    obtain ⟨rfl, -⟩ := place?_of_here hfree h hhere
    have hlast : n.getLast? ≠ some Path.slash := fun e => hslash (List.mem_of_getLast? e)
    rw [place?, lookup_eq_walk hne huse, place?_walk hfree, Path.steps, if_neg hlast,
      Path.names_of_noSlash hslash hne, startOf, Path.isAbsolute_eq_false hslash,
      Path.stepOf_of_ne_nil hne]
    rfl
  · next hhere =>
    rw [if_neg hhere] at huse
    exact place?_join hfree h hslash huse

theorem extend_ne_nil (p : Path) (hn : Path.IsSegment n) : (Glob.extend p n).bytes ≠ [] := by
  rw [Glob.extend]
  split
  · exact hn.ne_nil
  · exact Path.join_ne_nil p hn

theorem place?_extend_eq_none (hfree : t.LinkFree) (h : t.place? p = some loc)
    (hdir : t.isDirectoryAt loc = false) (hslash : Path.slash ∉ n) :
    t.place? (Glob.extend p n) = none := by
  rw [Glob.extend]
  split
  · next hhere =>
    obtain ⟨-, hhere⟩ := place?_of_here hfree h hhere
    rw [hdir] at hhere
    cases hhere
  · exact place?_join_eq_none hfree h hdir hslash

/-! ## 3. Spots -/

/-- Without links no walk follows one. -/
theorem links_eq_of_walk_found (hfree : t.LinkFree) {links links' : Nat} {start : Location}
    {steps : List Name} : t.walk links start steps = .found loc links' → links' = links := by
  induction links, start, steps using walk_induction (t := t) with
  | nil links start =>
    rw [walk_nil]
    rintro ⟨⟩
    rfl
  | blocked links start s rest hdir =>
    rw [walk_cons_of_not_directory hdir]
    exact nofun
  | dot links start rest hdir ih =>
    rw [walk_cons_dot hdir]
    exact ih
  | dots links start rest hdir ih =>
    rw [walk_cons_dots hdir]
    exact ih
  | long links start s rest hdot hdots hlong =>
    rw [walk_cons_long hdot hdots hlong]
    exact nofun
  | free links start s rest hdir hs hat =>
    rw [walk_cons_free hdir hs hat]
    intro h
    split at h <;> cases h
  | circle start s rest target hdir hs hat => exact absurd hat (hfree _ _)
  | link links start s rest target hdir hs hat ih => exact absurd hat (hfree _ _)
  | entry links start s rest node hdir hs hat hnode ih =>
    rw [walk_cons_entry hdir hs hat hnode]
    exact ih

/-- **The spot of a path** is at its place, and something is there. -/
theorem spot?_eq_some_iff (hfree : t.LinkFree) : t.spot? p = some s ↔
    t.place? p = some s.location ∧ t.at? s.location ≠ none ∧ s.path = p ∧ s.links = linkLimit := by
  obtain ⟨path, location, links⟩ := s
  rw [spot?]
  constructor
  · intro h
    split at h
    · next loc links' hlook =>
      cases h
      have hplace := place?_of_lookup_found hlook
      obtain ⟨hne, huse⟩ := usable_of_place? hplace
      refine ⟨hplace, at?_of_lookup_found hlook, rfl, ?_⟩
      rw [lookup_eq_walk hne huse] at hlook
      exact links_eq_of_walk_found hfree hlook
    · cases h
  · rintro ⟨hplace, hat, rfl, rfl⟩
    rcases lookup_of_place? hplace with ⟨links', hlook, -⟩ | hlook
    · obtain ⟨hne, huse⟩ := usable_of_place? hplace
      rw [hlook]
      rw [lookup_eq_walk hne huse] at hlook
      rw [links_eq_of_walk_found hfree hlook]
    · exact absurd (at?_of_lookup_free hlook) hat

/-! ## 4. Entries -/

/-- What is one step below a spot, each entry with its name. -/
def entries (t : Tree) (s : Spot) (pathOf : Name → Path) : List (Name × Spot) :=
  (t.children s.location).filterMap fun child =>
    (t.step s child.1 child.2 (pathOf child.1)).map (child.1, ·)

/-- The entries are those of which is known that they have less room below. -/
theorem map_below (t : Tree) (s : Spot) (pathOf : Name → Path) :
    ((t.below s pathOf).map fun entry => (entry.1, entry.2.1)) = t.entries s pathOf := by
  rw [below, List.map_filterMap, entries]
  conv => rhs; rw [← List.attach_map_subtype_val (t.children s.location), List.filterMap_map]
  refine List.filterMap_congr fun child _ => ?_
  obtain ⟨⟨n, node⟩, hchild⟩ := child
  dsimp only [Function.comp_apply]
  split <;> simp_all

theorem room_lt_of_mem_entries {pathOf : Name → Path} {s' : Spot}
    (h : (n, s') ∈ t.entries s pathOf) : t.room s' < t.room s := by
  obtain ⟨⟨m, node⟩, hchild, hstep⟩ := List.mem_filterMap.mp h
  obtain ⟨s'', hstep, heq⟩ := Option.map_eq_some_iff.mp hstep
  cases heq
  exact t.room_step_lt hchild hstep

theorem mem_children_iff {node : Node} :
    (n, node) ∈ t.children loc ↔ t.at? (n :: loc) = some node := by
  rw [at?_cons_eq_some_iff]
  constructor
  · exact t.mem_of_mem_children
  · intro hmem
    refine List.mem_filterMap.mpr ⟨_, hmem, ?_⟩
    simp only [if_true]

theorem step_eq {node : Node} {path : Path} (hnode : ∀ target, node ≠ .link target) :
    t.step s n node path =
      if isUsable path then some ⟨path, n :: s.location, s.links⟩ else none := by
  cases node with
  | link target => exact absurd rfl (hnode target)
  | _ => cases huse : isUsable path <;> simp [step, huse]

/-- **Without links the entries are the children** with a path that can be looked up. -/
theorem entries_eq (hfree : t.LinkFree) (s : Spot) (pathOf : Name → Path) :
    t.entries s pathOf = ((t.children s.location).filter fun child => isUsable (pathOf child.1)).map
      fun child => (child.1, ⟨pathOf child.1, child.1 :: s.location, s.links⟩) := by
  rw [entries, ← List.filterMap_eq_map, List.filterMap_filter]
  refine List.filterMap_congr fun child hchild => ?_
  have hnode : ∀ target, child.2 ≠ .link target := by
    rintro target htarget
    exact hfree _ target (htarget ▸ mem_children_iff.mp hchild)
  rw [step_eq hnode]
  split <;> rfl

theorem mem_entries_iff (hfree : t.LinkFree) {pathOf : Name → Path} {s' : Spot} :
    (n, s') ∈ t.entries s pathOf ↔ t.at? (n :: s.location) ≠ none ∧ isUsable (pathOf n) = true ∧
      s' = ⟨pathOf n, n :: s.location, s.links⟩ := by
  rw [entries_eq hfree, List.mem_map]
  constructor
  · rintro ⟨⟨m, node⟩, hmem, heq⟩
    cases heq
    obtain ⟨hchild, huse⟩ := List.mem_filter.mp hmem
    rw [mem_children_iff] at hchild
    exact ⟨by rw [hchild]; exact Option.some_ne_none _, huse, rfl⟩
  · rintro ⟨hat, huse, rfl⟩
    obtain ⟨node, hnode⟩ := Option.ne_none_iff_exists'.mp hat
    exact ⟨(n, node), List.mem_filter.mpr ⟨mem_children_iff.mpr hnode, huse⟩, rfl⟩

/-- What is in a tree has a name that can stand in a path. -/
theorem isSegment_of_at? {parent : Location} (h : t.at? (n :: parent) ≠ none) :
    Path.IsSegment n ∧ IsName n := by
  obtain ⟨node, hnode⟩ := Option.ne_none_iff_exists'.mp h
  have hmem := List.mem_map_of_mem (f := Prod.fst) (at?_cons_eq_some_iff.mp hnode)
  have hproper := (t.closed _ hmem).1
  simp only [isProperName, Bool.and_eq_true, Bool.not_eq_true', List.isEmpty_eq_false_iff,
    List.contains_eq_mem, decide_eq_false_iff_not, bne_iff_ne, decide_eq_true_eq] at hproper
  obtain ⟨⟨⟨⟨⟨hne, hslash⟩, -⟩, hdot⟩, hdots⟩, hlength⟩ := hproper
  refine ⟨⟨hslash, ?_, hdots⟩, hdot, hdots, hlength⟩
  rw [Path.isBlank, Bool.or_eq_false_iff, beq_eq_false_iff_ne, beq_eq_false_iff_ne]
  exact ⟨hne, hdot⟩

/-- **Going down keeps the spot of a path.** -/
theorem spot?_of_mem_entries (hfree : t.LinkFree) (hs : t.spot? s.path = some s) {s' : Spot}
    (h : (n, s') ∈ t.entries s (Glob.extend s.path)) : t.spot? s'.path = some s' := by
  obtain ⟨hplace, -, -, hlinks⟩ := (spot?_eq_some_iff hfree).mp hs
  obtain ⟨hat, huse, rfl⟩ := (mem_entries_iff hfree).mp h
  obtain ⟨hsegment, hname⟩ := isSegment_of_at? hat
  obtain ⟨node, hnode⟩ := Option.ne_none_iff_exists'.mp hat
  refine (spot?_eq_some_iff hfree).mpr ⟨?_, hat, rfl, hlinks⟩
  rw [place?_extend hfree hplace hsegment.noSlash (extend_ne_nil _ hsegment) huse,
    Path.stepOf_of_ne_nil hsegment.ne_nil, descend_cons_name (isDirectoryAt_of_at? hnode) hname]
  rfl

/-! ## 5. Entries of trees that differ in files with an ending -/

variable {ending : Bytes}

/-- Whether an entry is no file with an ending, in a tree without links. -/
def stands (ending : Bytes) (t : Tree) (entry : Name × Spot) : Bool :=
  !ending.isSuffixOf entry.1 || t.isDirectorySpot entry.2

theorem stands_eq_endsIn (hfree : t.LinkFree) {node : Node} (h : t.at? (n :: loc) = some node)
    (path : Path) (links : Nat) :
    t.stands ending (n, ⟨path, n :: loc, links⟩) = !endsIn ending (n :: loc, node) := by
  rw [stands, isDirectorySpot, isDirectoryAt, h]
  cases node with
  | directory => exact Bool.or_true _
  | file content => exact Bool.or_false _
  | link target => exact absurd h (hfree _ _)

theorem Besides.stands_eq (h : t.Besides ending t') : t'.stands ending = t.stands ending := by
  funext entry
  rw [stands, stands, isDirectorySpot, isDirectorySpot, h.isDirectoryAt_eq]

/-- **The entries are the same**, files with the ending apart. -/
theorem Besides.filter_entries_eq (h : t.Besides ending t') (hfree : t.LinkFree) (s : Spot)
    (pathOf : Name → Path) :
    (t'.entries s pathOf).filter (t.stands ending) =
      (t.entries s pathOf).filter (t.stands ending) := by
  have hfilter : ∀ t : Tree, t.LinkFree → (t.entries s pathOf).filter (t.stands ending) =
      ((((t.children s.location).filter fun child =>
        !endsIn ending (child.1 :: s.location, child.2)).filter fun child =>
          isUsable (pathOf child.1)).map fun child =>
            (child.1, (⟨pathOf child.1, child.1 :: s.location, s.links⟩ : Spot))) := by
    intro t hfree
    rw [entries_eq hfree, List.filter_map, List.filter_comm]
    have hsame : (t.children s.location).filter (t.stands ending ∘ fun child =>
        (child.1, ⟨pathOf child.1, child.1 :: s.location, s.links⟩)) =
        (t.children s.location).filter fun child =>
          !endsIn ending (child.1 :: s.location, child.2) :=
      List.filter_congr fun child hchild => stands_eq_endsIn hfree (mem_children_iff.mp hchild) _ _
    rw [hsame]
  rw [← h.stands_eq, hfilter t' (h.linkFree hfree), h.stands_eq, hfilter t hfree,
    h.filter_children_eq]

/-- An entry that stands is at a location that holds the same in both trees. -/
theorem Besides.at?_eq_of_stands (h : t.Besides ending t') (hfree : t.LinkFree)
    {pathOf : Name → Path} {s' : Spot} (hmem : (n, s') ∈ t.entries s pathOf)
    (hstands : t.stands ending (n, s') = true) : t'.at? s'.location = t.at? s'.location := by
  obtain ⟨hat, -, rfl⟩ := (mem_entries_iff hfree).mp hmem
  obtain ⟨node, hnode⟩ := Option.ne_none_iff_exists'.mp hat
  rw [stands_eq_endsIn hfree hnode, Bool.not_eq_true'] at hstands
  rw [hnode, (h.at?_eq_some_iff hstands).mpr hnode]

/-- **A path leads to the same spot in both trees**, or to no spot but a spare one in either. -/
theorem Besides.spot?_same_or_spare (h : t.Besides ending t') (hfree : t.LinkFree) (p : Path) :
    t'.spot? p = t.spot? p ∨
      ((∀ s, t.spot? p = some s → t.Spare ending s.location) ∧
        ∀ s, t'.spot? p = some s → t'.Spare ending s.location) := by
  have hfree' := h.linkFree hfree
  have hplace : t'.place? p = t.place? p := h.sameDirectories.place?_eq hfree hfree' p
  by_cases hspare : ∀ loc, t.place? p = some loc → t.Spare ending loc ∧ t'.Spare ending loc
  · refine Or.inr ⟨fun s hs => ?_, fun s hs => ?_⟩
    · exact (hspare _ ((spot?_eq_some_iff hfree).mp hs).1).1
    · exact (hspare _ (hplace ▸ ((spot?_eq_some_iff hfree').mp hs).1)).2
  · push Not at hspare
    obtain ⟨loc, hloc, hno⟩ := hspare
    obtain ⟨hat, -⟩ := (h.same_or_spare loc).resolve_right fun hboth => hno hboth.1 hboth.2
    refine Or.inl (Option.ext fun s => ?_)
    rw [spot?_eq_some_iff hfree, spot?_eq_some_iff hfree', hplace]
    refine and_congr_right fun hs => ?_
    obtain rfl := Option.some.inj (hloc.symm.trans hs)
    rw [hat]

end Tree
end EnumAssets
