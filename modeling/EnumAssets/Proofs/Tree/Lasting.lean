/-
# What goes on being there

Writing files never takes anything away: directories and links stay as they are, and a file stays a
file, whatever it holds.  A walk that ends at an entry asks for nothing more, so it ends at the same
entry in every later tree, also on its way through links (`Lasts.walk_found`); a path that leads to
something goes on leading there.

A write that succeeds leads to such a later tree, and its own path leads to something in it
(`lasts_of_write`, `willOverwrite_of_write`).  Where the path goes through links, the file is made
at the end of them and never in the place of one (`not_link_of_place?`).
-/
import EnumAssets.Proofs.Output.Atomic

namespace EnumAssets

namespace Tree

variable {t t' t'' : Tree} {p : Path} {loc : Location} {content : Bytes}

/-! ## 1. Later trees -/

/-- A tree in which all is still there that was in another one, though files may hold something
else. -/
structure Lasts (t t' : Tree) : Prop where
  directory : ∀ loc, t.isDirectoryAt loc = true → t'.isDirectoryAt loc = true
  link : ∀ loc target, t.at? loc = some (.link target) → t'.at? loc = some (.link target)
  entry : ∀ loc, t.HasEntry loc → t'.HasEntry loc
  workingDirectory_eq : t'.workingDirectory = t.workingDirectory

theorem Lasts.refl (t : Tree) : t.Lasts t :=
  ⟨fun _ => id, fun _ _ => id, fun _ => id, rfl⟩

theorem Lasts.trans (h : t.Lasts t') (h' : t'.Lasts t'') : t.Lasts t'' where
  directory loc hdir := h'.directory loc (h.directory loc hdir)
  link loc target hlink := h'.link loc target (h.link loc target hlink)
  entry loc hentry := h'.entry loc (h.entry loc hentry)
  workingDirectory_eq := h'.workingDirectory_eq.trans h.workingDirectory_eq

theorem Grows.lasts (h : t.Grows t') : t.Lasts t' where
  directory := h.keeps.directory
  link loc _ hlink := (h.grownAt loc).at?_eq_some hlink
  entry loc := fun ⟨node, hat, hnode⟩ => ⟨node, (h.grownAt loc).at?_eq_some hat, hnode⟩
  workingDirectory_eq := h.workingDirectory_eq

/-- A file may be put anywhere but in the place of a link. -/
theorem Puts.lasts (h : t.Puts loc content t') (hno : ∀ target, t.at? loc ≠ some (.link target)) :
    t.Lasts t' where
  directory := h.keeps.directory
  link k target hlink := by
    have hne : k ≠ loc := fun e => hno target (e ▸ hlink)
    rw [h.at?_eq, if_neg hne, hlink]
  entry k := by
    rintro ⟨node, hat, hnode⟩
    by_cases hk : k = loc
    · exact ⟨.file content, by rw [h.at?_eq, if_pos hk], nofun⟩
    · exact ⟨node, by rw [h.at?_eq, if_neg hk, hat], hnode⟩
  workingDirectory_eq := h.workingDirectory_eq

/-! ## 2. Paths that lead to something -/

/-- **A walk to an entry** ends there in every later tree. -/
theorem Lasts.walk_found (h : t.Lasts t') {links links' : Nat} {start : Location}
    {steps : List Name} : t.walk links start steps = .found loc links' →
      t'.walk links start steps = .found loc links' := by
  induction links, start, steps using walk_induction (t := t) with
  | nil links start =>
    rw [walk_nil, walk_nil]
    exact id
  | blocked links start s rest hdir =>
    rw [walk_cons_of_not_directory hdir]
    exact nofun
  | dot links start rest hdir ih =>
    rw [walk_cons_dot hdir, walk_cons_dot (h.directory _ hdir)]
    exact ih
  | dots links start rest hdir ih =>
    rw [walk_cons_dots hdir, walk_cons_dots (h.directory _ hdir)]
    exact ih
  | long links start s rest hdot hdots hlong =>
    rw [walk_cons_long hdot hdots hlong]
    exact nofun
  | free links start s rest hdir hs hat =>
    rw [walk_cons_free hdir hs hat]
    intro hfound
    split at hfound <;> cases hfound
  | circle start s rest target hdir hs hat =>
    rw [walk_cons_link_zero hdir hs hat]
    exact nofun
  | link links start s rest target hdir hs hat ih =>
    rw [walk_cons_link hdir hs hat, walk_cons_link (h.directory _ hdir) hs (h.link _ _ hat)]
    exact ih
  | entry links start s rest node hdir hs hat hnode ih =>
    obtain ⟨node', hat', hnode'⟩ := h.entry _ ⟨node, hat, hnode⟩
    rw [walk_cons_entry hdir hs hat hnode, walk_cons_entry (h.directory _ hdir) hs hat' hnode']
    exact ih

theorem exists?_eq_true_iff : t.exists? p = true ↔ ∃ loc links, t.lookup p = .found loc links := by
  rw [exists?]
  cases t.lookup p <;> simp

/-- **What a path leads to** is there in every later tree. -/
theorem Lasts.exists? (h : t.Lasts t') (hp : t.exists? p = true) : t'.exists? p = true := by
  obtain ⟨loc, links, hlook⟩ := exists?_eq_true_iff.mp hp
  obtain ⟨hne, huse⟩ := usable_of_place? (place?_of_lookup_found hlook)
  refine exists?_eq_true_iff.mpr ⟨loc, links, ?_⟩
  rw [lookup_eq_walk hne huse] at hlook ⊢
  rw [h.workingDirectory_eq]
  exact h.walk_found hlook

/-- The place of a path is no link: links on the way are followed. -/
theorem not_link_of_place? (h : t.place? p = some loc) (target : Bytes) :
    t.at? loc ≠ some (.link target) := by
  intro hlink
  rcases lookup_of_place? h with ⟨links, -, node, hnode, hno⟩ | hfree
  · rw [hlink] at hnode
    exact hno target (Option.some.inj hnode).symm
  · rw [at?_of_lookup_free hfree] at hlink
    cases hlink

end Tree

/-! ## 3. Writing -/

namespace Destination

variable {t t' : Tree} {d : Destination} {α : Type} [Named α] {c : Checked α} {p : Path}

/-- **A write that succeeds** takes nothing away. -/
theorem lasts_of_write (h : d.write t c = (t', .ok p)) : t.Lasts t' := by
  obtain ⟨-, between, loc, hgrows, hplace, hputs⟩ := write_eq_ok h
  exact hgrows.lasts.trans (hputs.lasts (Tree.not_link_of_place? hplace))

/-- **Its file is there**: another write would overwrite it. -/
theorem willOverwrite_of_write (h : d.write t c = (t', .ok p)) :
    d.willOverwrite t' c.declaration.fileName = true := by
  obtain ⟨hpath, between, loc, -, hplace, hputs⟩ := write_eq_ok h
  obtain ⟨links, hlook⟩ := hputs.exists_lookup_found (Tree.not_link_of_place? hplace) hplace
  rw [willOverwrite, hpath, Option.any_some]
  exact Tree.exists?_eq_true_iff.mpr ⟨loc, links, hlook⟩

theorem willOverwrite_of_lasts {fileName : String} (hlasts : t.Lasts t')
    (h : d.willOverwrite t fileName = true) : d.willOverwrite t' fileName = true := by
  obtain ⟨p, hp, hthere⟩ := (Option.any_eq_true _ _).mp h
  exact (Option.any_eq_true _ _).mpr ⟨p, hp, hlasts.exists? hthere⟩

end Destination
end EnumAssets
