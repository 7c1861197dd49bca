/-
# Writing is all or nothing

Writing the file of a checked declaration either fails and leaves the tree as it was, or puts the
code at the place of the path and touches nothing else (`write_atomic`).  This holds with links as
well: a walk meets the place of its path as a free one or as a file, and both become a file, so all
walks to that place end there afterwards (`Puts.exists_lookup_found`).  What was written is
therefore what the path reads, also through a link whose target was missing.
-/
import Mathlib.Data.List.Basic
import EnumAssets.Proofs.Output
import EnumAssets.Proofs.Text.Roundtrip

namespace EnumAssets

/-! ## 1. Reading what was written -/

namespace Tree

variable {t t' : Tree} {p : Path} {loc : Location} {content : Bytes}

/-- What is written is a new file at a free place, or a new content of a file. -/
theorem writeFile_cases (h : t.writeFile p content = some t') :
    ∃ loc, t.Puts loc content t' ∧ t.place? p = some loc ∧
      (t.exists? p = false ∧ t.at? loc = none ∨
        t.exists? p = true ∧ ∃ old, t.at? loc = some (.file old)) := by
  obtain ⟨loc, hplace, hputs⟩ := writeFile_eq_some h
  refine ⟨loc, hputs, hplace, ?_⟩
  rw [writeFile] at h
  rcases lookup_of_place? hplace with ⟨links, hlook, -⟩ | hlook
  · rw [hlook] at h
    exact Or.inr ⟨by rw [exists?, hlook], (setContent_eq_some h).1⟩
  · exact Or.inl ⟨by rw [exists?, hlook], at?_of_lookup_free hlook⟩

/-- **A walk to the place of a written file** ends there, if the place was no link. -/
theorem Puts.exists_walk_found (h : t.Puts loc content t')
    (hno : ∀ target, t.at? loc ≠ some (.link target)) {links : Nat} {start : Location}
    {steps : List Name} : (t.walk links start steps).place? = some loc →
      ∃ links', t'.walk links start steps = .found loc links' := by
  have hdirs : ∀ {k}, t.isDirectoryAt k = true → t'.isDirectoryAt k = true := fun hk =>
    (h.sameDirectories.isDirectoryAt_eq _).trans hk
  induction links, start, steps using walk_induction (t := t) with
  | nil links start =>
    rw [walk_nil, walk_nil]
    intro hplace
    exact ⟨links, by rw [Option.some.inj hplace]⟩
  | blocked links start s rest hdir =>
    rw [walk_cons_of_not_directory hdir]
    exact nofun
  | dot links start rest hdir ih =>
    rw [walk_cons_dot hdir, walk_cons_dot (hdirs hdir)]
    exact ih
  | dots links start rest hdir ih =>
    rw [walk_cons_dots hdir, walk_cons_dots (hdirs hdir)]
    exact ih
  | long links start s rest hdot hdots hlong =>
    rw [walk_cons_long hdot hdots hlong]
    exact nofun
  | free links start s rest hdir hs hat =>
    rw [walk_cons_free hdir hs hat]
    intro hplace
    split at hplace
    · next hrest =>
      obtain rfl := Option.some.inj hplace
      have hfile : t'.at? (s :: start) = some (.file content) := by rw [h.at?_eq, if_pos rfl]
      rw [walk_cons_entry (hdirs hdir) hs hfile nofun, hrest, walk_nil]
      exact ⟨links, rfl⟩
    · cases hplace
  | circle start s rest target hdir hs hat =>
    rw [walk_cons_link_zero hdir hs hat]
    exact nofun
  | link links start s rest target hdir hs hat ih =>
    have hlink : t'.at? (s :: start) = some (.link target) := by
      have hne : s :: start ≠ loc := fun heq => hno target (heq ▸ hat)
      rw [h.at?_eq, if_neg hne, hat]
    rw [walk_cons_link hdir hs hat, walk_cons_link (hdirs hdir) hs hlink]
    exact ih
  | entry links start s rest node hdir hs hat hnode ih =>
    obtain ⟨node', hat', hnode'⟩ : ∃ node', t'.at? (s :: start) = some node' ∧
        ∀ target, node' ≠ .link target := by
      rw [h.at?_eq]
      split
      · exact ⟨_, rfl, nofun⟩
      · exact ⟨node, hat, hnode⟩
    rw [walk_cons_entry hdir hs hat hnode, walk_cons_entry (hdirs hdir) hs hat' hnode']
    exact ih

theorem Puts.exists_lookup_found (h : t.Puts loc content t')
    (hno : ∀ target, t.at? loc ≠ some (.link target)) (hplace : t.place? p = some loc) :
    ∃ links, t'.lookup p = .found loc links := by
  obtain ⟨hne, huse⟩ := usable_of_place? hplace
  rw [place?, lookup_eq_walk hne huse] at hplace
  rw [lookup_eq_walk hne huse, h.workingDirectory_eq]
  exact h.exists_walk_found hno hplace

/-- A tree in which a file was written: only the place of the path differs, and the path reads what
was written. -/
structure Writes (t : Tree) (p : Path) (content : Bytes) (t' : Tree) (loc : Location) : Prop where
  /-- The path leads to the same location before and afterwards. -/
  place_eq : t.place? p = some loc ∧ t'.place? p = some loc
  /-- It reads what was written. -/
  content_eq : t'.content? p = some content
  /-- A file with this content is at the location, and at all other locations is what was there. -/
  at?_eq : ∀ k, t'.at? k = if k = loc then some (.file content) else t.at? k
  workingDirectory_eq : t'.workingDirectory = t.workingDirectory
  /-- Something is at the path afterwards. -/
  exists_after : t'.exists? p = true
  /-- If something was there before, it was a file. -/
  exists_before_iff : t.exists? p = true ↔ t.isFile p = true

/-- **A file that is written can be read**, by the path by which it was written. -/
theorem writes_of_writeFile (h : t.writeFile p content = some t') :
    ∃ loc, t.Writes p content t' loc := by
  obtain ⟨loc, hputs, hplace, hbefore⟩ := writeFile_cases h
  have hno : ∀ target, t.at? loc ≠ some (.link target) := by
    intro target hlink
    rcases hbefore with ⟨-, hnone⟩ | ⟨-, old, hold⟩
    · cases hlink.symm.trans hnone
    · cases hlink.symm.trans hold
  obtain ⟨links, hlook⟩ := hputs.exists_lookup_found hno hplace
  have hplace' := place?_of_lookup_found hlook
  have hfile : t'.at? loc = some (.file content) := by rw [hputs.at?_eq, if_pos rfl]
  refine ⟨loc, ⟨hplace, hplace'⟩, content?_eq_some_iff.mpr ⟨loc, hplace', hfile⟩, hputs.at?_eq,
    hputs.workingDirectory_eq, by rw [exists?, hlook], ?_⟩
  rcases hbefore with ⟨hfree, hnone⟩ | ⟨hthere, old, hold⟩
  · refine iff_of_false (Bool.eq_false_iff.mp hfree) fun hisFile => ?_
    obtain ⟨content', hcontent'⟩ := Option.isSome_iff_exists.mp hisFile
    obtain ⟨loc', hloc', hat⟩ := content?_eq_some_iff.mp hcontent'
    obtain rfl := Option.some.inj (hplace.symm.trans hloc')
    cases hat.symm.trans hnone
  · exact iff_of_true hthere (Option.isSome_iff_exists.mpr
      ⟨old, content?_eq_some_iff.mpr ⟨loc, hplace, hold⟩⟩)

end Tree

/-! ## 2. All or nothing -/

namespace Destination

variable {t t' : Tree} {d : Destination} {α : Type} [Named α]

/-- A tree in which the file of a checked declaration was written, and nothing else was touched. -/
structure Delivers (d : Destination) (t : Tree) (c : Checked α) (t' : Tree) (p : Path)
    (loc : Location) : Prop where
  /-- The path that is returned is that of the destination. -/
  path_eq : d.path? c.declaration.fileName = some p
  /-- It can be written there. -/
  canHold : t.CanHold loc
  /-- It leads to one location, before and afterwards. -/
  place_eq : t.place? p = some loc ∧ t'.place? p = some loc
  /-- It reads the code. -/
  text_eq : t'.text? p = some c.code
  /-- At the location is a file with the code, and nothing else has changed. -/
  at?_eq : ∀ k, t'.at? k = if k = loc then some (.file (Utf8.encode c.code)) else t.at? k
  workingDirectory_eq : t'.workingDirectory = t.workingDirectory
  /-- A file would be overwritten now. -/
  willOverwrite_after : d.willOverwrite t' c.declaration.fileName = true
  /-- One was overwritten exactly if the path led to a file. -/
  willOverwrite_before_iff : d.willOverwrite t c.declaration.fileName = true ↔ t.isFile p = true

/-- **Writing is all or nothing**, in every tree: it delivers the code, or it fails and leaves the
tree as it was, and then the path leads to no place that can hold a file. -/
theorem write_atomic (hready : d.Ready t) (hbeside : d.Beside) (c : Checked α) :
    (∃ f, d.write t c = (t, .error f) ∧ ∀ p loc, d.path? c.declaration.fileName = some p →
      t.place? p = some loc → ¬ t.CanHold loc) ∨
      ∃ t' p loc, d.write t c = (t', .ok p) ∧ d.Delivers t c t' p loc := by
  cases hp : d.path? c.declaration.fileName with
  | none =>
    refine Or.inl ⟨.noOutputPath c.declaration.fileName, ?_, nofun⟩
    rw [write, hp]
  | some p =>
    obtain ⟨directory, hasset, hparent⟩ := parent_path? hbeside c hp
    have hpersist := Tree.persist_eq hparent (hready directory hasset) (Utf8.encode c.code)
    cases hwrite : t.writeFile p (Utf8.encode c.code) with
    | none =>
      refine Or.inl ⟨.persist p, ?_, ?_⟩
      · rw [write, hp]
        simp only [hpersist, hwrite]
      · rintro _ loc ⟨⟩ hplace hholds
        obtain ⟨t', hwrites⟩ := Tree.exists_writeFile_iff.mpr ⟨loc, hplace, hholds⟩
        cases hwrite.symm.trans hwrites
    | some t' =>
      obtain ⟨loc, hwrites⟩ := Tree.writes_of_writeFile hwrite
      refine Or.inr ⟨t', p, loc, ?_, ?_⟩
      · rw [write, hp]
        simp only [hpersist, hwrite]
      · constructor
        case path_eq => exact hp
        case canHold =>
          obtain ⟨loc', hplace, hholds⟩ := Tree.exists_writeFile_iff.mp ⟨t', hwrite⟩
          obtain rfl := Option.some.inj (hwrites.place_eq.1.symm.trans hplace)
          exact hholds
        case place_eq => exact hwrites.place_eq
        case text_eq => rw [Tree.text?, hwrites.content_eq, Option.bind_some, Utf8.decode_encode]
        case at?_eq => exact hwrites.at?_eq
        case workingDirectory_eq => exact hwrites.workingDirectory_eq
        case willOverwrite_after => rw [willOverwrite, hp, Option.any_some, hwrites.exists_after]
        case willOverwrite_before_iff =>
          rw [willOverwrite, hp, Option.any_some]
          exact hwrites.exists_before_iff

/-! ## 3. Through a link -/

namespace Dangling

def source : Name :=
  Utf8.encode "A.cs"

def target : Name :=
  Utf8.encode "B.cs"

/-- A link to a file that is missing. -/
def tree : Tree where
  nodes := [([source], .link target)]
  nodup := by decide
  closed := by
    intro loc hloc
    obtain rfl := List.mem_singleton.mp hloc
    exact ⟨by decide, rfl⟩
  workingDirectory := []

def declaration : Checked String where
  declaration := { fileName := "A", enumName := "A", values := ["X"] }
  sound := by decide +kernel

def destination : Destination :=
  ⟨.ofText "A.enum.toml", "cs"⟩

theorem ready_tree : destination.Ready tree := by
  intro directory hparent
  have hempty : destination.asset.parent = some ⟨[]⟩ := by decide
  obtain rfl := Option.some.inj (hempty.symm.trans hparent)
  exact Or.inl rfl

theorem beside_destination : destination.Beside :=
  ⟨by decide, by decide⟩

theorem path?_destination : destination.path? "A" = some (.ofText "A.cs") := by
  decide

/-- The link is followed, and what it leads to is missing. -/
theorem place?_source : tree.place? (.ofText "A.cs") = some [target] := by
  have hsource : tree.at? [source] = some (.link target) := by decide
  have htarget : tree.at? [target] = none := by decide
  have hsteps : (Path.ofText "A.cs").steps = [source] := by decide
  have hnext : (⟨target⟩ : Path).steps ++ [] = [target] := by decide
  have hstart : Tree.startOf (.ofText "A.cs") tree.workingDirectory = [] := by decide
  have hbeside : Tree.startOf ⟨target⟩ [] = [] := by decide
  have hlimit : linkLimit = 39 + 1 := rfl
  rw [Tree.place?, Tree.lookup_eq_walk (by decide) (by decide), hstart, hsteps, hlimit,
    Tree.walk_cons_link rfl ⟨by decide, by decide, by decide⟩ hsource, hbeside, hnext,
    Tree.walk_cons_free rfl ⟨by decide, by decide, by decide⟩ htarget]
  rfl

theorem canHold_target : tree.CanHold [target] := by
  refine ⟨by decide, ?_⟩
  rintro n parent ⟨⟩ -
  decide

/-- The code is delivered to the missing file, and the link leads to it. -/
theorem delivered_through_link : destination.Ready tree ∧ destination.Beside ∧
    ∃ t', destination.write tree declaration = (t', .ok (.ofText "A.cs")) ∧
      destination.Delivers tree declaration t' (.ofText "A.cs") [target] := by
  refine ⟨ready_tree, beside_destination, ?_⟩
  rcases write_atomic ready_tree beside_destination declaration with
    ⟨f, -, hnone⟩ | ⟨t', p, loc, hwrite, hdelivers⟩
  · exact absurd canHold_target (hnone _ _ path?_destination place?_source)
  · obtain rfl := Option.some.inj (hdelivers.path_eq.symm.trans path?_destination)
    obtain rfl := Option.some.inj (hdelivers.place_eq.1.symm.trans place?_source)
    exact ⟨t', hwrite, hdelivers⟩

end Dangling
end Destination
end EnumAssets
