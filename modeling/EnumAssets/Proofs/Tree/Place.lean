/-
# The place that a path leads to

A lookup ends at an entry or at a free place; this location is the place of the path, and it is
where a file is written.  `writeFile_eq_some` says so for any tree: the file at the place is new or
has a new content, and nothing else is touched.

In a tree without links a place is found by going down the steps alone (`place?_walk`).  Then it
depends on the directories and on nothing else, so writing files moves no place
(`SameDirectories.place?_eq`); and a place can be written to exactly if no directory is there
(`exists_writeFile`).
-/
import EnumAssets.Proofs.Tree.Walk
import EnumAssets.Tree.Write
import EnumAssets.Proofs.Path.Parent

namespace EnumAssets

/-- The location that a lookup ends at, whether or not something is there. -/
def Lookup.place? : Lookup → Option Location
  | .found loc _ => some loc
  | .free loc => some loc
  | .missing => none
  | .refused => none

namespace Tree

variable {t t' : Tree} {p : Path} {loc : Location}

/-- The place that a path leads to. -/
def place? (t : Tree) (p : Path) : Option Location :=
  (t.lookup p).place?

/-! ## 1. Lookups -/

theorem lookup_eq_walk (hne : p.bytes ≠ []) (huse : isUsable p = true) :
    t.lookup p = t.walk linkLimit (startOf p t.workingDirectory) p.steps := by
  rw [lookup, if_neg hne, huse]
  rfl

/-- A path that leads to a place can be looked up. -/
theorem usable_of_place? (h : t.place? p = some loc) : p.bytes ≠ [] ∧ isUsable p = true := by
  rw [place?, lookup] at h
  split at h
  · cases h
  · next hne =>
    split at h
    · cases h
    · next huse => exact ⟨hne, by simpa using huse⟩

theorem place?_of_lookup_found {links : Nat} (h : t.lookup p = .found loc links) :
    t.place? p = some loc := by
  rw [place?, h]
  rfl

/-- What is found is there, and is no link. -/
theorem hasEntry_of_lookup_found {links : Nat} (h : t.lookup p = .found loc links) :
    t.HasEntry loc := by
  obtain ⟨hne, huse⟩ := usable_of_place? (place?_of_lookup_found h)
  rw [lookup_eq_walk hne huse] at h
  exact hasEntry_of_walk_found (fun hnil => absurd hnil (Path.steps_ne_nil hne)) h

theorem at?_of_lookup_found {links : Nat} (h : t.lookup p = .found loc links) :
    t.at? loc ≠ none := by
  obtain ⟨node, hnode, -⟩ := hasEntry_of_lookup_found h
  rw [hnode]
  exact Option.some_ne_none _

theorem place?_of_lookup_free (h : t.lookup p = .free loc) : t.place? p = some loc := by
  rw [place?, h]
  rfl

/-- A free place is one that a walk ends at. -/
theorem walk_of_lookup_free (h : t.lookup p = .free loc) :
    t.walk linkLimit (startOf p t.workingDirectory) p.steps = .free loc := by
  obtain ⟨hne, huse⟩ := usable_of_place? (place?_of_lookup_free h)
  rwa [lookup_eq_walk hne huse] at h

theorem at?_of_lookup_free (h : t.lookup p = .free loc) : t.at? loc = none := by
  obtain ⟨-, -, -, -, hnone, -⟩ := walk_free (walk_of_lookup_free h)
  exact hnone

/-- **At a place** is an entry that is no link, or the place is free. -/
theorem lookup_of_place? (h : t.place? p = some loc) :
    (∃ links, t.lookup p = .found loc links ∧ t.HasEntry loc) ∨ t.lookup p = .free loc := by
  cases hlook : t.lookup p with
  | found k links =>
    rw [place?_of_lookup_found hlook] at h
    obtain rfl := Option.some.inj h
    exact Or.inl ⟨links, rfl, hasEntry_of_lookup_found hlook⟩
  | free k =>
    rw [place?_of_lookup_free hlook] at h
    obtain rfl := Option.some.inj h
    exact Or.inr rfl
  | missing =>
    rw [place?, hlook] at h
    cases h
  | refused =>
    rw [place?, hlook] at h
    cases h

/-! ## 2. Writing -/

/-- A tree that differs from another one in a file: it is new, or has a new content. -/
structure Puts (t : Tree) (loc : Location) (content : Bytes) (t' : Tree) : Prop where
  noDirectory : t.isDirectoryAt loc = false
  at?_eq : ∀ k, t'.at? k = if k = loc then some (.file content) else t.at? k
  workingDirectory_eq : t'.workingDirectory = t.workingDirectory

theorem puts_of_setContent {content : Bytes} (h : t.setContent loc content = some t') :
    t.Puts loc content t' := by
  obtain ⟨⟨old, hold⟩, -, hdir⟩ := setContent_eq_some h
  refine ⟨?_, at?_setContent h, hdir⟩
  rw [isDirectoryAt, hold]
  rfl

theorem puts_of_create {content : Bytes} (h : t.create loc (.file content) = some t') :
    t.Puts loc content t' := by
  obtain ⟨-, hfree, hdir⟩ := create_eq_some h
  refine ⟨?_, at?_create h, hdir⟩
  cases loc with
  | nil => exact absurd rfl (create_ne_root h)
  | cons n parent =>
    rw [isDirectoryAt, at?, Nodes.at?_cons, hfree]
    rfl

theorem exists_setContent {old : Bytes} (h : t.at? loc = some (.file old)) (content : Bytes) :
    ∃ t', t.setContent loc content = some t' := by
  rw [at?] at h
  unfold setContent
  split
  · exact ⟨_, rfl⟩
  · next hno => exact absurd h (hno old)

theorem exists_create {n : Name} {parent : Location} (hn : isProperName n = true)
    (hparent : t.isDirectoryAt parent = true) (hfree : t.at? (n :: parent) = none) (node : Node) :
    ∃ t', t.create (n :: parent) node = some t' := by
  rw [isDirectoryAt_iff] at hparent
  rw [create, dif_pos ⟨hn, hparent, hfree⟩]
  exact ⟨_, rfl⟩

/-- A step down of a path that can be looked up is a name that an entry can have. -/
theorem isProperName_of_mem_steps {n : Name} (huse : isUsable p = true) (hn : IsName n)
    (hmem : n ∈ p.steps) : isProperName n = true := by
  rcases Path.mem_steps hmem with hdot | ⟨hne, hslash, hsub⟩
  · exact absurd hdot hn.ne_dot
  · have hnul : (0 : UInt8) ∉ n := by
      intro hzero
      simp [isUsable, hsub hzero] at huse
    simp [isProperName, hne, hslash, hnul, hn.ne_dot, hn.ne_dots, hn.length_le]

/-- **Writing a file** changes the place of its path, and nothing else. -/
theorem writeFile_eq_some {content : Bytes} (h : t.writeFile p content = some t') :
    ∃ loc, t.place? p = some loc ∧ t.Puts loc content t' := by
  rw [writeFile] at h
  rw [place?]
  split at h
  · next loc links hlook => exact ⟨loc, by rw [hlook]; rfl, puts_of_setContent h⟩
  · next loc hlook => exact ⟨loc, by rw [hlook]; rfl, puts_of_create h⟩
  · cases h

theorem isProperName_of_create {n : Name} {parent : Location} {node : Node}
    (h : t.create (n :: parent) node = some t') : isProperName n = true := by
  rw [create] at h
  split at h
  · next hfits => exact hfits.1
  · cases h

/-- Whether a file can be put at a location: no directory is there, and if nothing is there, an
entry can have its name. -/
structure CanHold (t : Tree) (loc : Location) : Prop where
  noDirectory : t.isDirectoryAt loc = false
  proper : ∀ n parent, loc = n :: parent → t.at? loc = none → isProperName n = true

/-- **When a file can be written**: its path leads to a place that can hold one. -/
theorem exists_writeFile_iff {content : Bytes} : (∃ t', t.writeFile p content = some t') ↔
    ∃ loc, t.place? p = some loc ∧ t.CanHold loc := by
  constructor
  · rintro ⟨t', h⟩
    obtain ⟨loc, hplace, hputs⟩ := writeFile_eq_some h
    refine ⟨loc, hplace, hputs.noDirectory, ?_⟩
    rintro n parent rfl hnone
    rcases lookup_of_place? hplace with ⟨links, -, node, hnode, -⟩ | hlook
    · cases hnode.symm.trans hnone
    · rw [writeFile, hlook] at h
      exact isProperName_of_create h
  · rintro ⟨loc, hplace, hholds⟩
    rcases lookup_of_place? hplace with ⟨links, hlook, node, hnode, hnolink⟩ | hlook
    · rw [writeFile, hlook]
      cases node with
      | directory =>
        exact absurd (isDirectoryAt_iff.mpr hnode) (Bool.eq_false_iff.mp hholds.noDirectory)
      | file old => exact exists_setContent hnode content
      | link target => exact absurd rfl (hnolink target)
    · obtain ⟨n, parent, rfl, hparent, hnone, -⟩ := walk_free (walk_of_lookup_free hlook)
      rw [writeFile, hlook]
      exact exists_create (hholds.proper n parent rfl hnone) hparent hnone _

/-! ## 3. Trees without links -/

/-- A tree that holds no symbolic link. -/
def LinkFree (t : Tree) : Prop :=
  ∀ loc target, t.at? loc ≠ some (.link target)

/-- What is at a location is listed, and is the only thing that is listed with it. -/
theorem at?_cons_eq_some_iff {n : Name} {parent : Location} {node : Node} :
    t.at? (n :: parent) = some node ↔ (n :: parent, node) ∈ t.nodes := by
  rw [at?, Nodes.at?_cons, List.lookup_eq_some_iff]
  constructor
  · rintro ⟨front, back, hnodes, -⟩
    rw [hnodes]
    exact List.mem_append_right _ List.mem_cons_self
  · intro hmem
    obtain ⟨front, back, hnodes⟩ := List.append_of_mem hmem
    refine ⟨front, back, hnodes, fun entry hentry => ?_⟩
    have hnodup := t.nodup
    rw [hnodes, List.map_append, List.map_cons, List.nodup_append] at hnodup
    rw [bne_iff_ne]
    exact (hnodup.2.2 entry.1 (List.mem_map_of_mem hentry) _ List.mem_cons_self).symm

/-- A tree that lists no link holds none. -/
theorem linkFree_of_nodes (h : ∀ entry ∈ t.nodes, ∀ target, entry.2 ≠ .link target) :
    t.LinkFree := by
  intro loc target hat
  cases loc with
  | nil => cases hat
  | cons n parent => exact h _ (at?_cons_eq_some_iff.mp hat) target rfl

/-- The location that steps lead to if no link is on the way. -/
def descend (t : Tree) (loc : Location) : List Name → Option Location
  | [] => some loc
  | s :: rest =>
    if !t.isDirectoryAt loc then none
    else if s = [Path.dot] then t.descend loc rest
    else if s = [Path.dot, Path.dot] then t.descend loc.tail rest
    else if nameLimit < s.length then none
    else t.descend (s :: loc) rest

theorem descend_cons_name {s : Name} {rest : List Name} (h : t.isDirectoryAt loc = true)
    (hs : IsName s) : t.descend loc (s :: rest) = t.descend (s :: loc) rest := by
  rw [descend, h, if_neg (by decide), if_neg hs.ne_dot, if_neg hs.ne_dots,
    if_neg (Nat.not_lt.mpr hs.length_le)]

theorem descend_of_free {s : Name} {rest : List Name} (hat : t.at? (s :: loc) = none)
    (hrest : rest ≠ []) : t.descend (s :: loc) rest = none := by
  have hdir : t.isDirectoryAt (s :: loc) = false := by
    rw [isDirectoryAt, hat]
    rfl
  cases rest with
  | nil => exact absurd rfl hrest
  | cons _ _ => simp [descend, hdir]

/-- **Without links a walk goes down the steps.** -/
theorem place?_walk (hfree : t.LinkFree) (links : Nat) (loc : Location) (steps : List Name) :
    (t.walk links loc steps).place? = t.descend loc steps := by
  induction links, loc, steps using walk_induction (t := t) with
  | nil links loc =>
    rw [walk_nil]
    rfl
  | blocked links loc s rest hdir =>
    rw [walk_cons_of_not_directory hdir, descend, hdir]
    rfl
  | dot links loc rest hdir ih =>
    rw [walk_cons_dot hdir, ih, descend, hdir]
    rfl
  | dots links loc rest hdir ih =>
    rw [walk_cons_dots hdir, ih, descend, hdir]
    rfl
  | long links loc s rest hdot hdots hlong =>
    rw [walk_cons_long hdot hdots hlong, descend, if_neg hdot, if_neg hdots, if_pos hlong]
    split <;> rfl
  | free links loc s rest hdir hs hat =>
    rw [walk_cons_free hdir hs hat, descend_cons_name hdir hs]
    by_cases hrest : rest = []
    · rw [if_pos hrest, hrest]
      rfl
    · rw [if_neg hrest, descend_of_free hat hrest]
      rfl
  | circle loc s rest target hdir hs hat => exact absurd hat (hfree _ _)
  | link links loc s rest target hdir hs hat ih => exact absurd hat (hfree _ _)
  | entry links loc s rest node hdir hs hat hnode ih =>
    rw [walk_cons_entry hdir hs hat hnode, ih, descend_cons_name hdir hs]

/-- **What is no directory can be written to** in a tree without links. -/
theorem exists_writeFile (hfree : t.LinkFree) (h : t.place? p = some loc)
    (hdir : t.isDirectoryAt loc = false) (content : Bytes) :
    ∃ t', t.writeFile p content = some t' := by
  refine exists_writeFile_iff.mpr ⟨loc, h, hdir, ?_⟩
  rintro n parent rfl hnone
  rcases lookup_of_place? h with ⟨links, -, node, hnode, -⟩ | hlook
  · cases hnode.symm.trans hnone
  · obtain ⟨m, outer, heq, -, -, hn, hmem⟩ := walk_free (walk_of_lookup_free hlook)
    obtain ⟨rfl, -⟩ := List.cons.inj heq
    -- the name is a step of the path, since no link can give another one
    refine isProperName_of_mem_steps (usable_of_place? h).2 hn (hmem.resolve_right ?_)
    rintro ⟨j, target, hlink, -⟩
    exact hfree j target hlink

/-! ## 4. Trees with the same directories -/

/-- Two trees that differ in files and links only. -/
structure SameDirectories (t t' : Tree) : Prop where
  workingDirectory_eq : t'.workingDirectory = t.workingDirectory
  isDirectoryAt_eq : ∀ k, t'.isDirectoryAt k = t.isDirectoryAt k

theorem SameDirectories.refl (t : Tree) : t.SameDirectories t :=
  ⟨rfl, fun _ => rfl⟩

theorem SameDirectories.trans {t'' : Tree} (h : t.SameDirectories t')
    (h' : t'.SameDirectories t'') : t.SameDirectories t'' :=
  ⟨h'.workingDirectory_eq.trans h.workingDirectory_eq,
    fun k => (h'.isDirectoryAt_eq k).trans (h.isDirectoryAt_eq k)⟩

theorem Puts.sameDirectories {content : Bytes} (h : t.Puts loc content t') :
    t.SameDirectories t' := by
  refine ⟨h.workingDirectory_eq, fun k => ?_⟩
  by_cases hk : k = loc
  · rw [hk, h.noDirectory, isDirectoryAt, h.at?_eq, if_pos rfl]
    rfl
  · rw [isDirectoryAt, isDirectoryAt, h.at?_eq, if_neg hk]

theorem Puts.linkFree {content : Bytes} (h : t.Puts loc content t') (hfree : t.LinkFree) :
    t'.LinkFree := by
  intro k target
  rw [h.at?_eq]
  split
  · exact nofun
  · exact hfree k target

/-- **Places depend on the directories only**, in trees without links. -/
theorem SameDirectories.place?_eq (h : t.SameDirectories t') (hfree : t.LinkFree)
    (hfree' : t'.LinkFree) (p : Path) : t'.place? p = t.place? p := by
  have hdescend : ∀ (steps : List Name) (k : Location), t'.descend k steps = t.descend k steps := by
    intro steps
    induction steps with
    | nil => exact fun _ => rfl
    | cons s rest ih =>
      intro k
      rw [descend, descend, h.isDirectoryAt_eq, ih, ih, ih]
  rw [place?, place?, lookup, lookup]
  split
  · rfl
  · split
    · rfl
    · rw [place?_walk hfree, place?_walk hfree', hdescend, h.workingDirectory_eq]

/-- A path leads to a directory if one is at its place. -/
theorem isDirectory_eq (t : Tree) (p : Path) :
    t.isDirectory p = (t.place? p).any t.isDirectoryAt := by
  rw [isDirectory]
  cases hlook : t.lookup p with
  | found k links =>
    rw [place?_of_lookup_found hlook]
    rfl
  | free k =>
    rw [place?_of_lookup_free hlook, Option.any_some, isDirectoryAt, at?_of_lookup_free hlook]
    rfl
  | missing =>
    rw [place?, hlook]
    rfl
  | refused =>
    rw [place?, hlook]
    rfl

theorem SameDirectories.isDirectory_eq (h : t.SameDirectories t') (hfree : t.LinkFree)
    (hfree' : t'.LinkFree) (p : Path) : t'.isDirectory p = t.isDirectory p := by
  have hat : t'.isDirectoryAt = t.isDirectoryAt := funext h.isDirectoryAt_eq
  rw [Tree.isDirectory_eq, Tree.isDirectory_eq, h.place?_eq hfree hfree', hat]

/-! ## 5. Directories that are there -/

theorem exists_lookup_of_isDirectory (h : t.isDirectory p = true) :
    ∃ loc links, t.lookup p = .found loc links ∧ t.isDirectoryAt loc = true := by
  rw [isDirectory] at h
  split at h
  · next loc links hlook => exact ⟨loc, links, hlook, h⟩
  · cases h

/-- What is found is not made: whatever its last name is, something is there. -/
theorem makeDirectory_of_lookup_found {links : Nat} (h : t.lookup p = .found loc links) :
    t.makeDirectory p = .taken := by
  obtain ⟨hne, huse⟩ := usable_of_place? (place?_of_lookup_found h)
  rw [lookup_eq_walk hne huse] at h
  rw [makeDirectory, if_neg hne, huse, if_neg (by decide)]
  cases hlast : p.names.getLast? with
  | none => rfl
  | some last =>
    obtain ⟨front, hnames⟩ := List.getLast?_eq_some_iff.mp hlast
    obtain ⟨extra, hsteps⟩ : ∃ extra, p.steps = front ++ last :: extra := by
      rw [Path.steps, hnames]
      split
      · exact ⟨[[Path.dot]], by simp⟩
      · exact ⟨[], rfl⟩
    rw [hsteps] at h
    obtain ⟨mid, between, hfront, hback⟩ := walk_append_iff.mp h
    have hdir := isDirectoryAt_of_walk_found (List.cons_ne_nil _ _) hback
    rw [hnames, List.dropLast_concat]
    simp only [hfront, hdir]
    rw [if_neg (by decide)]
    split
    · rfl
    · next hdots =>
      rw [not_or] at hdots
      have hlong : ¬ nameLimit < last.length := fun hlong => by
        rw [walk_cons_long hdots.1 hdots.2 hlong] at hback
        cases hback
      cases hat : t.at? (last :: mid) with
      | some node => rfl
      | none =>
        rw [walk_cons_free hdir ⟨hdots.1, hdots.2, Nat.not_lt.mp hlong⟩ hat] at hback
        split at hback <;> cases hback

/-- **A directory that is there is left alone.** -/
theorem makeDirectories_of_isDirectory (h : t.isDirectory p = true) :
    t.makeDirectories p = (t, true) := by
  obtain ⟨loc, links, hlook, -⟩ := exists_lookup_of_isDirectory h
  obtain ⟨hne, -⟩ := usable_of_place? (place?_of_lookup_found hlook)
  rw [makeDirectories, makeDirectoriesWithin, if_neg hne, makeDirectory_of_lookup_found hlook, h]

/-- Writing a file in a directory that is there makes no directory. -/
theorem persist_eq {directory : Path} (hparent : p.parent = some directory)
    (h : directory.bytes = [] ∨ t.isDirectory directory = true) (content : Bytes) :
    t.persist p content =
      match t.writeFile p content with
      | some t' => (t', true)
      | none => (t, false) := by
  have hmake : t.makeDirectories directory = (t, true) := by
    rcases h with hempty | hdir
    · rw [makeDirectories, makeDirectoriesWithin, if_pos hempty]
    · exact makeDirectories_of_isDirectory hdir
  rw [persist, hparent]
  simp only [hmake]
  rfl

theorem isUsable_mono {outer : Path} (h : outer.bytes <+: p.bytes)
    (huse : isUsable p = true) : isUsable outer = true := by
  simp only [isUsable, Bool.and_eq_true, Bool.not_eq_true', List.contains_eq_mem,
    decide_eq_false_iff_not, decide_eq_true_eq] at huse ⊢
  exact ⟨fun hzero => huse.1 (h.subset hzero), h.length_le.trans_lt huse.2⟩

/-- **Around what is found there is a directory**: the parent of its path, unless it is empty. -/
theorem isDirectory_parent {directory : Path} {links : Nat} (hparent : p.parent = some directory)
    (h : t.lookup p = .found loc links) :
    directory.bytes = [] ∨ t.isDirectory directory = true := by
  refine or_iff_not_imp_left.mpr fun hne => ?_
  have hspelled := Path.spelled_of_parent hparent
  obtain ⟨hp, huse⟩ := usable_of_place? (place?_of_lookup_found h)
  obtain ⟨last, hlast, hnames⟩ := hspelled.names_eq hne
  obtain ⟨extra, hsteps⟩ : ∃ extra, p.steps = directory.names ++ (last ++ extra) := by
    rw [Path.steps, hnames]
    split
    · exact ⟨[[Path.dot]], by rw [List.append_assoc]⟩
    · exact ⟨[], by rw [List.append_nil]⟩
  have hstart : startOf directory t.workingDirectory = startOf p t.workingDirectory := by
    rw [startOf, startOf, hspelled.isAbsolute_eq]
  rw [lookup_eq_walk hp huse, hsteps, ← hstart] at h
  obtain ⟨mid, between, hfront, hback⟩ := walk_append_iff.mp h
  have hdir := isDirectoryAt_of_walk_found (List.append_ne_nil_of_left_ne_nil hlast _) hback
  -- a slash at the end of the parent is one more step, but not to another place
  have hlook : t.lookup directory = .found mid between := by
    rw [lookup_eq_walk hne (isUsable_mono hspelled.bytes_isPrefix huse), Path.steps]
    split
    · refine walk_append_iff.mpr ⟨mid, between, hfront, ?_⟩
      rw [walk_cons_dot hdir, walk_nil]
    · exact hfront
  rw [isDirectory, hlook]
  exact hdir

end Tree
end EnumAssets
