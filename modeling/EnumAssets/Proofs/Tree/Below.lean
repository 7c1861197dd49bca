/-
# What lies below a spot

The entries one step below a spot are found again by their paths, through links as well: a name that
is joined to the path of the spot is one more step of its walk (`lookup_join_iff`).  So the entries
are exactly the names in the directory whose joined path leads somewhere (`mem_entries_join_iff`),
and going down keeps each spot the one that its path leads to.

Without links the location of a spot is known from its steps.  A step that is not two dots leads
nowhere but down (`suffix_of_descend`), and a segment behind the path of a spot is such a step.
-/
import EnumAssets.Proofs.Path.Reading

namespace EnumAssets.Tree

variable {t : Tree} {p path : Path} {s s' : Spot} {n : Name}
variable {loc loc' : Location} {links links' : Nat}

/-! ## 1. Spots of paths -/

theorem spot?_eq_some_iff_lookup :
    t.spot? p = some s ↔ s.path = p ∧ t.lookup p = .found s.location s.links := by
  obtain ⟨path, location, links⟩ := s
  rw [spot?]
  cases t.lookup p <;> simp [eq_comm]

/-- A path leads to a file if a file is at its spot. -/
theorem isFile_iff_spot? : t.isFile p = true ↔ ∃ s, t.spot? p = some s ∧ t.isFileSpot s = true := by
  rw [isFile, content?, spot?]
  cases t.lookup p with
  | found loc links =>
    simp only [Option.some.injEq, exists_eq_left', isFileSpot]
    cases t.at? loc with
    | none => simp
    | some node => cases node <;> simp
  | _ => simp

theorem isDirectory_iff_spot? :
    t.isDirectory p = true ↔ ∃ s, t.spot? p = some s ∧ t.isDirectorySpot s = true := by
  rw [isDirectory, spot?]
  cases t.lookup p <;> simp [isDirectorySpot]

/-! ## 2. One more name -/

/-- The names of a path lead where the path leads. -/
theorem walk_names (h : t.lookup p = .found loc links) :
    t.walk linkLimit (startOf p t.workingDirectory) p.names = .found loc links := by
  obtain ⟨hne, huse⟩ := usable_of_place? (place?_of_lookup_found h)
  rw [lookup_eq_walk hne huse, Path.steps] at h
  split at h
  · obtain ⟨mid, between, hfront, hdot⟩ := walk_append_iff.mp h
    rw [walk_cons_dot (isDirectoryAt_of_walk_found (List.cons_ne_nil _ _) hdot), walk_nil] at hdot
    cases hdot
    exact hfront
  · exact h

/-- **A name that is joined to a path** is one more step from where the path leads. -/
theorem lookup_join_iff (h : t.lookup p = .found loc links) (hn : Path.IsSegment n) :
    t.lookup (p.join ⟨n⟩) = .found loc' links' ↔
      isUsable (p.join ⟨n⟩) = true ∧ t.walk links loc [n] = .found loc' links' := by
  obtain ⟨hne, -⟩ := usable_of_place? (place?_of_lookup_found h)
  by_cases huse : isUsable (p.join ⟨n⟩) = true
  · rw [lookup_eq_walk (Path.join_ne_nil p hn) huse, Path.steps_join p hn.noSlash hn.ne_nil,
      startOf_join hne hn.noSlash, walk_append_iff, walk_names h]
    constructor
    · rintro ⟨mid, between, hfront, hback⟩
      cases hfront
      exact ⟨huse, hback⟩
    · rintro ⟨-, hback⟩
      exact ⟨loc, links, rfl, hback⟩
  · refine iff_of_false (fun hlook => ?_) fun hboth => huse hboth.1
    exact huse (usable_of_place? (place?_of_lookup_found hlook)).2

/-- A step to an entry is the step of a walk by its name. -/
theorem step_eq_some_iff {node : Node} (hat : t.at? (n :: s.location) = some node) :
    t.step s n node path = some s' ↔ isUsable path = true ∧ s'.path = path ∧
      t.walk s.links s.location [n] = .found s'.location s'.links := by
  have hdir := isDirectoryAt_of_at? hat
  have hname := (isSegment_of_at? (hat ▸ Option.some_ne_none node)).2
  obtain ⟨path', location', links'⟩ := s'
  cases huse : isUsable path with
  | false => simp [step, huse]
  | true =>
    cases node with
    | link target =>
      cases hlinks : s.links with
      | zero => simp [step, huse, hlinks, walk_cons_link_zero hdir hname hat]
      | succ more =>
        rw [walk_cons_link hdir hname hat, List.append_nil]
        simp only [step, huse, hlinks]
        cases t.walk more (startOf ⟨target⟩ s.location) (⟨target⟩ : Path).steps <;> simp [eq_comm]
    | directory =>
      rw [walk_cons_entry hdir hname hat (by simp), walk_nil]
      simp [step, huse, eq_comm]
    | file content =>
      rw [walk_cons_entry hdir hname hat (by simp), walk_nil]
      simp [step, huse, eq_comm]

/-- Around what is in a tree there are directories. -/
theorem isDirectoryAt_of_append {names : List Name} (hne : names ≠ [])
    (h : t.at? (names ++ loc) ≠ none) :
    t.isDirectoryAt loc = true := by
  induction names with
  | nil => exact absurd rfl hne
  | cons m names ih =>
    obtain ⟨node, hnode⟩ := Option.ne_none_iff_exists'.mp h
    have hdir := isDirectoryAt_of_at? hnode
    by_cases hnil : names = []
    · rwa [hnil] at hdir
    · exact ih hnil (at?_ne_none_of_isDirectoryAt hdir)

/-- A directory below a spot is a spot of the joined path, with no link more on the way. -/
theorem spot?_join_of_directory (hs : t.spot? p = some s)
    (hdir : t.isDirectoryAt (n :: s.location) = true)
    (huse : isUsable (p.join ⟨n⟩) = true) :
    t.spot? (p.join ⟨n⟩) = some ⟨p.join ⟨n⟩, n :: s.location, s.links⟩ := by
  obtain ⟨-, hlook⟩ := spot?_eq_some_iff_lookup.mp hs
  have hat := isDirectoryAt_iff.mp hdir
  obtain ⟨hn, hname⟩ := isSegment_of_at? (at?_ne_none_of_isDirectoryAt hdir)
  refine spot?_eq_some_iff_lookup.mpr ⟨rfl, (lookup_join_iff hlook hn).mpr ⟨huse, ?_⟩⟩
  rw [walk_cons_entry (isDirectoryAt_of_at? hat) hname hat nofun, walk_nil]

/-- What leads to a file can be looked up, and so can each path that begins it. -/
theorem isUsable_of_isFile {outer : Path} (hfile : t.isFile p = true)
    (h : outer.bytes <+: p.bytes) :
    isUsable outer = true := by
  obtain ⟨s, hs, -⟩ := isFile_iff_spot?.mp hfile
  obtain ⟨-, hlook⟩ := spot?_eq_some_iff_lookup.mp hs
  exact isUsable_mono h (usable_of_place? (place?_of_lookup_found hlook)).2

/-! ## 3. Entries by their paths -/

/-- **The entries below the spot of a path** are the names in the directory whose paths lead
somewhere. -/
theorem mem_entries_join_iff (hs : t.spot? s.path = some s) :
    (n, s') ∈ t.entries s (fun n => s.path.join ⟨n⟩) ↔
      t.at? (n :: s.location) ≠ none ∧ t.spot? (s.path.join ⟨n⟩) = some s' := by
  obtain ⟨-, hlook⟩ := spot?_eq_some_iff_lookup.mp hs
  have hentry : ∀ {node : Node}, t.at? (n :: s.location) = some node →
      (t.step s n node (s.path.join ⟨n⟩) = some s' ↔ t.spot? (s.path.join ⟨n⟩) = some s') := by
    intro node hat
    have hn := (isSegment_of_at? (hat ▸ Option.some_ne_none node)).1
    rw [step_eq_some_iff hat, spot?_eq_some_iff_lookup, lookup_join_iff hlook hn]
    exact and_left_comm
  rw [entries, List.mem_filterMap]
  constructor
  · rintro ⟨⟨m, node⟩, hchild, hstep⟩
    obtain ⟨s'', hstep, heq⟩ := Option.map_eq_some_iff.mp hstep
    cases heq
    have hat := mem_children_iff.mp hchild
    exact ⟨hat ▸ Option.some_ne_none node, (hentry hat).mp hstep⟩
  · rintro ⟨hat, hspot⟩
    obtain ⟨node, hnode⟩ := Option.ne_none_iff_exists'.mp hat
    exact ⟨(n, node), mem_children_iff.mpr hnode, by rw [(hentry hnode).mpr hspot]; rfl⟩

/-- The entries of a directory have different names. -/
theorem pairwise_names_entries (t : Tree) (s : Spot) (pathOf : Name → Path) :
    (t.entries s pathOf).Pairwise fun entry entry' => entry.1 ≠ entry'.1 := by
  have hnodes : t.nodes.Pairwise fun entry entry' => entry.1 ≠ entry'.1 :=
    List.pairwise_map.mp t.nodup
  have hchildren : (t.children s.location).Pairwise fun child child' => child.1 ≠ child'.1 := by
    refine hnodes.filterMap _ ?_
    rintro ⟨loc, node⟩ ⟨loc', node'⟩ hne child hchild child' hchild' hname
    cases loc with
    | nil => cases hchild
    | cons m parent =>
      cases loc' with
      | nil => cases hchild'
      | cons m' parent' =>
        simp only [Option.ite_none_right_eq_some, Option.some.injEq] at hchild hchild'
        obtain ⟨rfl, rfl⟩ := hchild
        obtain ⟨rfl, rfl⟩ := hchild'
        exact hne (congrArg (· :: s.location) hname)
  refine hchildren.filterMap _ fun child child' hne entry hentry entry' hentry' => ?_
  obtain ⟨s', -, rfl⟩ := Option.map_eq_some_iff.mp hentry
  obtain ⟨s'', -, rfl⟩ := Option.map_eq_some_iff.mp hentry'
  exact hne

/-! ## 4. Without links -/

/-- Steps that do not go up stack their names on the beginning; dots add nothing. -/
theorem eq_of_descend {steps : List Name} (hup : [Path.dot, Path.dot] ∉ steps) :
    ∀ {start : Location}, t.descend start steps = some loc →
      loc = (steps.filter (· != [Path.dot])).reverse ++ start := by
  induction steps with
  | nil =>
    intro start h
    exact (Option.some.inj h).symm
  | cons s rest ih =>
    intro start h
    have ih := @ih fun hmem => hup (List.mem_cons_of_mem _ hmem)
    have hdots : s ≠ [Path.dot, Path.dot] := fun e => hup (e ▸ List.mem_cons_self)
    rw [descend, if_neg hdots] at h
    split at h
    · cases h
    · split at h
      · next hdot => rw [ih h, List.filter_cons_of_neg (by simpa using hdot)]
      · next hdot =>
        split at h
        · cases h
        · rw [ih h, List.filter_cons_of_pos (by simpa using hdot), List.reverse_cons,
            List.append_assoc, List.singleton_append]

/-- **Names behind a path** lead to the location with these names, if they lead anywhere. -/
theorem eq_of_place?_under (hfree : t.LinkFree) {names : List Name} (hne : names ≠ [])
    (hnames : ∀ n ∈ names, Path.IsSegment n) (h : t.place? p = some loc)
    (hunder : t.place? (p.under names) = some loc') : loc' = names.reverse ++ loc := by
  obtain ⟨hbytes, -⟩ := usable_of_place? h
  obtain ⟨-, -, hdown⟩ := (place?_eq_some_iff hfree).mp hunder
  rw [Path.steps_under hne hnames, Path.startOf_eq_of_lead (Path.lead_under hbytes hnames),
    descend_append,
    descend_names hfree h, Option.bind_some] at hdown
  have hdots : [Path.dot, Path.dot] ∉ names := fun hmem => (hnames _ hmem).ne_dots rfl
  have hkept : names.filter (· != [Path.dot]) = names :=
    List.filter_eq_self.mpr fun n hn => bne_iff_ne.mpr (hnames n hn).ne_dot
  rw [eq_of_descend hdots hdown, hkept]

/-! ## 5. Segments as steps -/

/-- A step that is not two dots leads to the same location or to one below. -/
theorem suffix_of_descend (hup : n ≠ [Path.dot, Path.dot]) (h : t.descend loc [n] = some loc') :
    loc <:+ loc' := by
  rw [eq_of_descend (by simpa using hup.symm) h]
  exact List.suffix_append _ _

/-- A segment behind the path of a spot is a step to its spot. -/
theorem descend_of_spot?_extend {s s' : Spot} (hfree : t.LinkFree) (hs : t.spot? s.path = some s)
    (hslash : Path.slash ∉ n) (h : t.spot? (Glob.extend s.path n) = some s') :
    t.descend s.location [Path.stepOf n] = some s'.location := by
  obtain ⟨hplace, -⟩ := (spot?_eq_some_iff hfree).mp hs
  obtain ⟨hplace', -⟩ := (spot?_eq_some_iff hfree).mp h
  obtain ⟨hne, huse⟩ := usable_of_place? hplace'
  rw [← place?_extend hfree hplace hslash hne huse, hplace']

theorem descend_of_spot?_join {s s' : Spot} (hfree : t.LinkFree) (hs : t.spot? s.path = some s)
    (hslash : Path.slash ∉ n) (h : t.spot? (s.path.join ⟨n⟩) = some s') :
    t.descend s.location [Path.stepOf n] = some s'.location := by
  obtain ⟨hplace, -⟩ := (spot?_eq_some_iff hfree).mp hs
  obtain ⟨hplace', -⟩ := (spot?_eq_some_iff hfree).mp h
  rw [← place?_join hfree hplace hslash (usable_of_place? hplace').2, hplace']

/-- A path that leads to a spot has this spot again. -/
theorem spot?_path {s : Spot} (h : t.spot? p = some s) : t.spot? s.path = some s := by
  obtain ⟨rfl, -⟩ := spot?_eq_some_iff_lookup.mp h
  exact h

/-- Nothing is a step on the spot, so steps lead where those of them lead that are something. -/
theorem descend_filter_of_stepOf : ∀ {segs : List Bytes} {loc loc' : Location},
    t.descend loc (segs.map Path.stepOf) = some loc' →
      t.descend loc (segs.filter fun s => !s.isEmpty) = some loc'
  | [], _, _, h => h
  | seg :: segs, loc, loc', h => by
    rw [List.map_cons, ← List.singleton_append, descend_append, Option.bind_eq_some_iff] at h
    obtain ⟨mid, hstep, hrest⟩ := h
    have ih := descend_filter_of_stepOf hrest
    cases seg with
    | nil =>
      rw [Path.stepOf, if_pos rfl, descend_dot] at hstep
      split at hstep
      · rw [List.filter_cons_of_neg (by decide), Option.some.inj hstep]
        exact ih
      · cases hstep
    | cons b seg =>
      rw [Path.stepOf_of_ne_nil (List.cons_ne_nil b seg)] at hstep
      rw [List.filter_cons_of_pos rfl, ← List.singleton_append, descend_append, hstep]
      exact ih

end EnumAssets.Tree
