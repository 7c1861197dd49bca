/-
# What a write keeps

Before a file is written the directories around it are made, and those that could be made stay even
if the file cannot be written.  So a write does two things at most: the tree `Grows`, which is that
directories are made where nothing was, and then one file is put at the place of its path, read in
the tree that has grown (`persist_eq_true`, `persist_eq_false`).

Neither of them removes a directory or makes a link.  That is all that a tree has to `Keep` for the
paths that lead to a place to go on leading there (`Keeps.place?_eq_some`).
-/
import EnumAssets.Proofs.Tree.Place

namespace EnumAssets.Tree

variable {t t' t'' : Tree} {p : Path} {loc : Location}

/-! ## 1. Growing -/

/-- What is at a location of a tree that has grown: the same, or a directory where nothing was. -/
def GrownAt (t t' : Tree) (loc : Location) : Prop :=
  t'.at? loc = t.at? loc ∨ t.at? loc = none ∧ t'.at? loc = some .directory

/-- A tree that has grown: directories are made where nothing was, and all else is as it was. -/
structure Grows (t t' : Tree) : Prop where
  grownAt : ∀ loc, t.GrownAt t' loc
  workingDirectory_eq : t'.workingDirectory = t.workingDirectory

/-- What was there is there. -/
theorem GrownAt.at?_eq_some (h : t.GrownAt t' loc) {node : Node} (hat : t.at? loc = some node) :
    t'.at? loc = some node := by
  rcases h with hsame | ⟨hnone, -⟩
  · rw [hsame, hat]
  · rw [hat] at hnone
    cases hnone

theorem GrownAt.trans (h : t.GrownAt t' loc) (h' : t'.GrownAt t'' loc) : t.GrownAt t'' loc := by
  rcases h' with hsame | ⟨hnone, hdir⟩
  · rcases h with hsame' | ⟨hnone, hdir⟩
    · exact Or.inl (hsame.trans hsame')
    · exact Or.inr ⟨hnone, hsame.trans hdir⟩
  · rcases h with hsame' | ⟨-, hdir'⟩
    · exact Or.inr ⟨hsame'.symm.trans hnone, hdir⟩
    · rw [hnone] at hdir'
      cases hdir'

theorem Grows.refl (t : Tree) : t.Grows t :=
  ⟨fun _ => Or.inl rfl, rfl⟩

theorem Grows.trans (h : t.Grows t') (h' : t'.Grows t'') : t.Grows t'' :=
  ⟨fun loc => (h.grownAt loc).trans (h'.grownAt loc),
    h'.workingDirectory_eq.trans h.workingDirectory_eq⟩

/-! ## 2. Making directories -/

theorem grows_create (h : t.create loc .directory = some t') : t.Grows t' := by
  obtain ⟨-, hfree, hdir⟩ := create_eq_some h
  refine ⟨fun k => ?_, hdir⟩
  rw [GrownAt, at?_create h]
  split
  · next hk =>
    cases loc with
    | nil => exact absurd rfl (create_ne_root h)
    | cons n parent =>
      rw [hk]
      exact Or.inr ⟨hfree, rfl⟩
  · exact Or.inl rfl

/-- Making one directory is creating one. -/
theorem grows_makeDirectory (h : t.makeDirectory p = .made t') : t.Grows t' := by
  rw [makeDirectory] at h
  split at h
  · cases h
  · split at h
    · cases h
    · split at h
      · cases h
      · split at h
        · split at h
          · cases h
          · split at h
            · cases h
            · split at h
              · cases h
              · next hcreate =>
                cases h
                exact grows_create hcreate
              · cases h
        · cases h
        · cases h
        · cases h

/-- **Making directories lets a tree grow**, whether or not all of them can be made.  The induction
follows the way outwards: the outer directories are made first. -/
theorem grows_makeDirectoriesWithin : ∀ {fuel : Nat} {t : Tree} {p : Path},
    t.Grows (t.makeDirectoriesWithin p fuel).1
  | 0, t, _ => .refl t
  | more + 1, t, p => by
    rw [makeDirectoriesWithin]
    split
    · exact .refl t
    · split
      · next hmade => exact grows_makeDirectory hmade
      · split
        · exact .refl t
        · next outer _ =>
          have houter : t.Grows (t.makeDirectoriesWithin outer more).1 :=
            grows_makeDirectoriesWithin
          split
          · next hrun =>
            rw [hrun] at houter
            exact houter
          · next hrun =>
            rw [hrun] at houter
            split
            · next hmade => exact houter.trans (grows_makeDirectory hmade)
            · exact houter
      · exact .refl t

theorem grows_makeDirectories : t.Grows (t.makeDirectories p).1 :=
  grows_makeDirectoriesWithin

/-! ## 3. Writing a file -/

/-- The tree in which a file is written: that with the directories around it. -/
theorem persist_cases (t : Tree) (p : Path) (content : Bytes) :
    ∃ between, t.Grows between ∧
      (t.persist p content = (between, false) ∨
        ∃ t', between.writeFile p content = some t' ∧ t.persist p content = (t', true)) := by
  rw [persist]
  cases hparent : p.parent with
  | none =>
    refine ⟨t, .refl t, ?_⟩
    cases hwrite : t.writeFile p content with
    | none => exact Or.inl (by simp [hwrite])
    | some t' => exact Or.inr ⟨t', rfl, by simp [hwrite]⟩
  | some directory =>
    have hgrows : t.Grows (t.makeDirectories directory).1 := grows_makeDirectories
    cases hmake : t.makeDirectories directory with
    | mk between ready =>
      rw [hmake] at hgrows
      refine ⟨between, hgrows, ?_⟩
      cases ready with
      | false => exact Or.inl (by simp [hmake])
      | true =>
        cases hwrite : between.writeFile p content with
        | none => exact Or.inl (by simp [hmake, hwrite])
        | some t' => exact Or.inr ⟨t', rfl, by simp [hmake, hwrite]⟩

/-- **A file that is written** is put at the place of its path, in a tree that has grown. -/
theorem persist_eq_true {content : Bytes} (h : t.persist p content = (t', true)) :
    ∃ between loc, t.Grows between ∧ between.place? p = some loc ∧
      between.Puts loc content t' := by
  obtain ⟨between, hgrows, hfails | ⟨t'', hwrite, hwrites⟩⟩ := persist_cases t p content
  · rw [h] at hfails
    cases hfails
  · rw [h] at hwrites
    cases hwrites
    obtain ⟨loc, hplace, hputs⟩ := writeFile_eq_some hwrite
    exact ⟨between, loc, hgrows, hplace, hputs⟩

/-- A file that cannot be written leaves a tree that has grown. -/
theorem persist_eq_false {content : Bytes} (h : t.persist p content = (t', false)) :
    t.Grows t' := by
  obtain ⟨between, hgrows, hfails | ⟨t'', -, hwrites⟩⟩ := persist_cases t p content
  · rw [h] at hfails
    cases hfails
    exact hgrows
  · rw [h] at hwrites
    cases hwrites

/-! ## 4. What stays -/

/-- A tree that keeps the directories of another one, and has no more links. -/
structure Keeps (t t' : Tree) : Prop where
  directory : ∀ loc, t.isDirectoryAt loc = true → t'.isDirectoryAt loc = true
  link : ∀ loc target, t'.at? loc = some (.link target) → t.at? loc = some (.link target)
  workingDirectory_eq : t'.workingDirectory = t.workingDirectory

theorem Keeps.refl (t : Tree) : t.Keeps t :=
  ⟨fun _ => id, fun _ _ => id, rfl⟩

theorem Keeps.trans (h : t.Keeps t') (h' : t'.Keeps t'') : t.Keeps t'' :=
  ⟨fun loc => h'.directory loc ∘ h.directory loc,
    fun loc target => h.link loc target ∘ h'.link loc target,
    h'.workingDirectory_eq.trans h.workingDirectory_eq⟩

theorem Grows.keeps (h : t.Grows t') : t.Keeps t' := by
  refine ⟨fun loc hdir => ?_, fun loc target hlink => ?_, h.workingDirectory_eq⟩
  · rw [isDirectoryAt_iff] at hdir ⊢
    exact (h.grownAt loc).at?_eq_some hdir
  · rcases h.grownAt loc with hsame | ⟨-, hdir⟩
    · rw [← hsame, hlink]
    · rw [hlink] at hdir
      cases hdir

theorem Puts.keeps {content : Bytes} (h : t.Puts loc content t') : t.Keeps t' := by
  have hsame := h.sameDirectories
  refine ⟨fun k hdir => ?_, fun k target hlink => ?_, h.workingDirectory_eq⟩
  · rw [hsame.isDirectoryAt_eq, hdir]
  · rw [h.at?_eq] at hlink
    split at hlink
    · cases hlink
    · exact hlink

theorem Keeps.linkFree (h : t.Keeps t') (hfree : t.LinkFree) : t'.LinkFree :=
  fun loc target hlink => hfree loc target (h.link loc target hlink)

/-- Steps that go down go on going down where they went. -/
theorem Keeps.descend_eq_some (h : t.Keeps t') {steps : List Name} :
    ∀ {start : Location}, t.descend start steps = some loc → t'.descend start steps = some loc := by
  induction steps with
  | nil => exact id
  | cons s rest ih =>
    intro start hdown
    rw [descend] at hdown ⊢
    cases hdir : t.isDirectoryAt start with
    | false =>
      rw [hdir] at hdown
      cases hdown
    | true =>
      rw [hdir, if_neg (by decide)] at hdown
      rw [h.directory start hdir, if_neg (by decide)]
      split at hdown
      · next hdot => rw [if_pos hdot, ih hdown]
      · next hdot =>
        rw [if_neg hdot]
        split at hdown
        · next hdots => rw [if_pos hdots, ih hdown]
        · next hdots =>
          rw [if_neg hdots]
          split at hdown
          · cases hdown
          · next hshort => rw [if_neg hshort, ih hdown]

/-- In a tree without links the place of a path is where its steps go down to. -/
theorem place?_eq_some_iff (hfree : t.LinkFree) : t.place? p = some loc ↔
    p.bytes ≠ [] ∧ isUsable p = true ∧
      t.descend (startOf p t.workingDirectory) p.steps = some loc := by
  constructor
  · intro h
    obtain ⟨hne, huse⟩ := usable_of_place? h
    rw [place?, lookup_eq_walk hne huse, place?_walk hfree] at h
    exact ⟨hne, huse, h⟩
  · rintro ⟨hne, huse, h⟩
    rw [place?, lookup_eq_walk hne huse, place?_walk hfree, h]

/-- **A path goes on leading to its place** if the directories are kept and there are no links. -/
theorem Keeps.place?_eq_some (h : t.Keeps t') (hfree : t.LinkFree)
    (hplace : t.place? p = some loc) :
    t'.place? p = some loc := by
  obtain ⟨hne, huse, hdown⟩ := (place?_eq_some_iff hfree).mp hplace
  refine (place?_eq_some_iff (h.linkFree hfree)).mpr ⟨hne, huse, ?_⟩
  rw [h.workingDirectory_eq]
  exact h.descend_eq_some hdown

/-- The content of the file at the place of a path. -/
theorem content?_eq_some_iff {content : Bytes} : t.content? p = some content ↔
    ∃ loc, t.place? p = some loc ∧ t.at? loc = some (.file content) := by
  rw [content?]
  cases hlook : t.lookup p with
  | found k links =>
    rw [place?_of_lookup_found hlook]
    cases hat : t.at? k with
    | none => simp [hat]
    | some node => cases node <;> simp [hat]
  | free k => simp [place?_of_lookup_free hlook, at?_of_lookup_free hlook]
  | missing => simp [place?, hlook, Lookup.place?]
  | refused => simp [place?, hlook, Lookup.place?]

end EnumAssets.Tree
