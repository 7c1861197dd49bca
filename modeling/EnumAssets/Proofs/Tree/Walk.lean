/-
# Walking step by step

The walk of a path is one function with nine ways to go on.  Here each of them is an equation
(section 1), and the facts about whole walks are proved from these by following the walk:

* a walk of more steps goes through the end of the walk of the first ones (`walk_append_iff`), so
  what a path leads to lies behind what its parent leads to;
* a walk that ends at an entry ends at one that is no link (`hasEntry_of_walk_found`);
* a free place is one that can be filled (`walk_free`).

They hold with links as well; of the links only their number is bounded.
-/
import EnumAssets.Tree.Spot

namespace EnumAssets.Tree

variable {t : Tree} {links links' : Nat} {loc loc' : Location} {s : Name} {rest : List Name}

/-! ## 1. The ways of a step -/

/-- Steps that go down by their name. -/
structure IsName (s : Name) : Prop where
  ne_dot : s ≠ [Path.dot]
  ne_dots : s ≠ [Path.dot, Path.dot]
  length_le : s.length ≤ nameLimit

theorem walk_nil : t.walk links loc [] = .found loc links := by
  rw [walk]

theorem walk_cons_of_not_directory (h : t.isDirectoryAt loc = false) :
    t.walk links loc (s :: rest) = .refused := by
  rw [walk, h]
  rfl

theorem walk_cons_dot (h : t.isDirectoryAt loc = true) :
    t.walk links loc ([Path.dot] :: rest) = t.walk links loc rest := by
  rw [walk, h]
  rfl

theorem walk_cons_dots (h : t.isDirectoryAt loc = true) :
    t.walk links loc ([Path.dot, Path.dot] :: rest) = t.walk links loc.tail rest := by
  rw [walk, h]
  rfl

theorem walk_cons_long (hdot : s ≠ [Path.dot]) (hdots : s ≠ [Path.dot, Path.dot])
    (hlong : nameLimit < s.length) : t.walk links loc (s :: rest) = .refused := by
  rw [walk]
  cases t.isDirectoryAt loc <;> simp [hdot, hdots, hlong]

theorem walk_cons_free (h : t.isDirectoryAt loc = true) (hs : IsName s)
    (hat : t.at? (s :: loc) = none) :
    t.walk links loc (s :: rest) = if rest = [] then .free (s :: loc) else .missing := by
  rw [walk, h, if_neg (by decide), if_neg hs.ne_dot, if_neg hs.ne_dots,
    if_neg (Nat.not_lt.mpr hs.length_le)]
  simp only [hat]

theorem walk_cons_link_zero (h : t.isDirectoryAt loc = true) (hs : IsName s) {target : Bytes}
    (hat : t.at? (s :: loc) = some (.link target)) : t.walk 0 loc (s :: rest) = .refused := by
  rw [walk, h, if_neg (by decide), if_neg hs.ne_dot, if_neg hs.ne_dots,
    if_neg (Nat.not_lt.mpr hs.length_le)]
  simp only [hat]

theorem walk_cons_link (h : t.isDirectoryAt loc = true) (hs : IsName s) {target : Bytes}
    (hat : t.at? (s :: loc) = some (.link target)) :
    t.walk (links + 1) loc (s :: rest) =
      t.walk links (startOf ⟨target⟩ loc) ((⟨target⟩ : Path).steps ++ rest) := by
  rw [walk, h, if_neg (by decide), if_neg hs.ne_dot, if_neg hs.ne_dots,
    if_neg (Nat.not_lt.mpr hs.length_le)]
  simp only [hat]

theorem walk_cons_entry (h : t.isDirectoryAt loc = true) (hs : IsName s) {node : Node}
    (hat : t.at? (s :: loc) = some node) (hnode : ∀ target, node ≠ .link target) :
    t.walk links loc (s :: rest) = t.walk links (s :: loc) rest := by
  rw [walk, h, if_neg (by decide), if_neg hs.ne_dot, if_neg hs.ne_dots,
    if_neg (Nat.not_lt.mpr hs.length_le)]
  cases node with
  | directory => simp only [hat]
  | file content => simp only [hat]
  | link target => exact absurd rfl (hnode target)

/-- **Following a walk**: what holds of each way to end and is kept by each way to go on holds of
all walks. -/
@[elab_as_elim]
theorem walk_induction {motive : Nat → Location → List Name → Prop}
    (nil : ∀ links loc, motive links loc [])
    (blocked : ∀ links loc s rest, t.isDirectoryAt loc = false → motive links loc (s :: rest))
    (dot : ∀ links loc rest, t.isDirectoryAt loc = true → motive links loc rest →
      motive links loc ([Path.dot] :: rest))
    (dots : ∀ links loc rest, t.isDirectoryAt loc = true → motive links loc.tail rest →
      motive links loc ([Path.dot, Path.dot] :: rest))
    (long : ∀ links loc s rest, s ≠ [Path.dot] → s ≠ [Path.dot, Path.dot] → nameLimit < s.length →
      motive links loc (s :: rest))
    (free : ∀ links loc s rest, t.isDirectoryAt loc = true → IsName s → t.at? (s :: loc) = none →
      motive links loc (s :: rest))
    (circle : ∀ loc s rest target, t.isDirectoryAt loc = true → IsName s →
      t.at? (s :: loc) = some (.link target) → motive 0 loc (s :: rest))
    (link : ∀ links loc s rest target, t.isDirectoryAt loc = true → IsName s →
      t.at? (s :: loc) = some (.link target) →
      motive links (startOf ⟨target⟩ loc) ((⟨target⟩ : Path).steps ++ rest) →
      motive (links + 1) loc (s :: rest))
    (entry : ∀ links loc s rest node, t.isDirectoryAt loc = true → IsName s →
      t.at? (s :: loc) = some node → (∀ target, node ≠ .link target) →
      motive links (s :: loc) rest → motive links loc (s :: rest))
    (links : Nat) (loc : Location) (steps : List Name) : motive links loc steps := by
  fun_induction Tree.walk t links loc steps with
  | case1 links loc => exact nil links loc
  | case2 links loc s rest hdir => exact blocked links loc s rest (by simpa using hdir)
  | case3 links loc rest hdir ih => exact dot links loc rest (by simpa using hdir) ih
  | case4 links loc rest hdir hdots ih => exact dots links loc rest (by simpa using hdir) ih
  | case5 links loc s rest hdir hdot hdots hlong => exact long links loc s rest hdot hdots hlong
  | case6 links loc s hdir hdot hdots hlong hat =>
    exact free links loc s [] (by simpa using hdir) ⟨hdot, hdots, Nat.not_lt.mp hlong⟩ hat
  | case7 links loc s rest hdir hdot hdots hlong hat hrest =>
    exact free links loc s rest (by simpa using hdir) ⟨hdot, hdots, Nat.not_lt.mp hlong⟩ hat
  | case8 loc s rest hdir hdot hdots hlong target hat =>
    exact circle loc s rest target (by simpa using hdir) ⟨hdot, hdots, Nat.not_lt.mp hlong⟩ hat
  | case9 loc s rest hdir hdot hdots hlong target hat more ih =>
    exact link more loc s rest target (by simpa using hdir) ⟨hdot, hdots, Nat.not_lt.mp hlong⟩
      hat ih
  | case10 links loc s rest hdir hdot hdots hlong node hnode hat ih =>
    exact entry links loc s rest node (by simpa using hdir) ⟨hdot, hdots, Nat.not_lt.mp hlong⟩
      hat hnode ih

/-! ## 2. Where walks end -/

/-- **A walk goes through the end of its first part**, and goes on from there. -/
theorem walk_append_iff {ys : List Name} {links : Nat} {loc : Location} {xs : List Name} :
    t.walk links loc (xs ++ ys) = .found loc' links' ↔
      ∃ mid between, t.walk links loc xs = .found mid between ∧
        t.walk between mid ys = .found loc' links' := by
  induction links, loc, xs using walk_induction (t := t) with
  | nil links loc =>
    rw [walk_nil, List.nil_append]
    exact ⟨fun h => ⟨loc, links, rfl, h⟩, fun ⟨_, _, heq, h⟩ => by cases heq; exact h⟩
  | blocked links loc s rest hdir =>
    rw [List.cons_append, walk_cons_of_not_directory hdir, walk_cons_of_not_directory hdir]
    exact ⟨nofun, nofun⟩
  | dot links loc rest hdir ih =>
    rw [List.cons_append, walk_cons_dot hdir, walk_cons_dot hdir]
    exact ih
  | dots links loc rest hdir ih =>
    rw [List.cons_append, walk_cons_dots hdir, walk_cons_dots hdir]
    exact ih
  | long links loc s rest hdot hdots hlong =>
    rw [List.cons_append, walk_cons_long hdot hdots hlong, walk_cons_long hdot hdots hlong]
    exact ⟨nofun, nofun⟩
  | free links loc s rest hdir hs hat =>
    rw [List.cons_append, walk_cons_free hdir hs hat, walk_cons_free hdir hs hat]
    constructor
    · intro h
      split at h <;> cases h
    · rintro ⟨mid, between, h, -⟩
      split at h <;> cases h
  | circle loc s rest target hdir hs hat =>
    rw [List.cons_append, walk_cons_link_zero hdir hs hat, walk_cons_link_zero hdir hs hat]
    exact ⟨nofun, nofun⟩
  | link links loc s rest target hdir hs hat ih =>
    rw [List.cons_append, walk_cons_link hdir hs hat, walk_cons_link hdir hs hat,
      ← List.append_assoc]
    exact ih
  | entry links loc s rest node hdir hs hat hnode ih =>
    rw [List.cons_append, walk_cons_entry hdir hs hat hnode, walk_cons_entry hdir hs hat hnode]
    exact ih

/-- A walk that takes a step begins at a directory. -/
theorem isDirectoryAt_of_walk_found {steps : List Name} (hne : steps ≠ [])
    (h : t.walk links loc steps = .found loc' links') : t.isDirectoryAt loc = true := by
  cases steps with
  | nil => exact absurd rfl hne
  | cons s rest =>
    cases hdir : t.isDirectoryAt loc with
    | true => rfl
    | false =>
      rw [walk_cons_of_not_directory hdir] at h
      cases h

theorem isDirectoryAt_iff : t.isDirectoryAt loc = true ↔ t.at? loc = some .directory := by
  rw [isDirectoryAt, beq_iff_eq]

theorem at?_ne_none_of_isDirectoryAt (h : t.isDirectoryAt loc = true) : t.at? loc ≠ none := by
  rw [isDirectoryAt_iff.mp h]
  exact Option.some_ne_none _

/-- Around every entry there is a directory. -/
theorem isDirectoryAt_of_at? {n : Name} {parent : Location} {node : Node}
    (h : t.at? (n :: parent) = some node) : t.isDirectoryAt parent = true := by
  rw [at?, Nodes.at?_cons, List.lookup_eq_some_iff] at h
  obtain ⟨front, back, heq, -⟩ := h
  have hmem : n :: parent ∈ t.nodes.map Prod.fst := by
    rw [heq]
    simp
  exact isDirectoryAt_iff.mpr (t.closed _ hmem).2

theorem isDirectoryAt_tail (h : t.isDirectoryAt loc = true) : t.isDirectoryAt loc.tail = true := by
  cases loc with
  | nil => exact h
  | cons n parent => exact isDirectoryAt_of_at? (isDirectoryAt_iff.mp h)

theorem isDirectoryAt_startOf {p : Path} (h : t.isDirectoryAt loc = true) :
    t.isDirectoryAt (startOf p loc) = true := by
  rw [startOf]
  split
  · rfl
  · exact h

/-- Whether an entry is at a location that is no link. -/
def HasEntry (t : Tree) (loc : Location) : Prop :=
  ∃ node, t.at? loc = some node ∧ ∀ target, node ≠ .link target

theorem hasEntry_of_isDirectoryAt (h : t.isDirectoryAt loc = true) : t.HasEntry loc :=
  ⟨.directory, isDirectoryAt_iff.mp h, nofun⟩

/-- **A walk that ends at an entry** ends at one that is no link, if it begins so. -/
theorem hasEntry_of_walk_found {links : Nat} {loc : Location} {steps : List Name} :
    (steps = [] → t.HasEntry loc) → t.walk links loc steps = .found loc' links' →
      t.HasEntry loc' := by
  induction links, loc, steps using walk_induction (t := t) with
  | nil links loc =>
    rw [walk_nil]
    rintro hstart ⟨⟩
    exact hstart rfl
  | blocked links loc s rest hdir =>
    rw [walk_cons_of_not_directory hdir]
    exact fun _ => nofun
  | dot links loc rest hdir ih =>
    rw [walk_cons_dot hdir]
    exact fun _ => ih fun _ => hasEntry_of_isDirectoryAt hdir
  | dots links loc rest hdir ih =>
    rw [walk_cons_dots hdir]
    exact fun _ => ih fun _ => hasEntry_of_isDirectoryAt (isDirectoryAt_tail hdir)
  | long links loc s rest hdot hdots hlong =>
    rw [walk_cons_long hdot hdots hlong]
    exact fun _ => nofun
  | free links loc s rest hdir hs hat =>
    rw [walk_cons_free hdir hs hat]
    intro _ h
    split at h <;> cases h
  | circle loc s rest target hdir hs hat =>
    rw [walk_cons_link_zero hdir hs hat]
    exact fun _ => nofun
  | link links loc s rest target hdir hs hat ih =>
    rw [walk_cons_link hdir hs hat]
    exact fun _ => ih fun _ => hasEntry_of_isDirectoryAt (isDirectoryAt_startOf hdir)
  | entry links loc s rest node hdir hs hat hnode ih =>
    rw [walk_cons_entry hdir hs hat hnode]
    exact fun _ => ih fun _ => ⟨node, hat, hnode⟩

/-- **A free place** is named by the last step, of the path or of a link on its way, and lies in a
directory. -/
theorem walk_free {links : Nat} {loc : Location} {steps : List Name} :
    t.walk links loc steps = .free loc' →
      ∃ n parent, loc' = n :: parent ∧ t.isDirectoryAt parent = true ∧ t.at? loc' = none ∧
        IsName n ∧ (n ∈ steps ∨ ∃ k target, t.at? k = some (.link target) ∧
          n ∈ (⟨target⟩ : Path).steps) := by
  induction links, loc, steps using walk_induction (t := t) with
  | nil links loc =>
    rw [walk_nil]
    exact nofun
  | blocked links loc s rest hdir =>
    rw [walk_cons_of_not_directory hdir]
    exact nofun
  | dot links loc rest hdir ih =>
    rw [walk_cons_dot hdir]
    intro h
    obtain ⟨n, parent, heq, hparent, hfree, hn, hmem⟩ := ih h
    exact ⟨n, parent, heq, hparent, hfree, hn, hmem.imp_left (List.mem_cons_of_mem _)⟩
  | dots links loc rest hdir ih =>
    rw [walk_cons_dots hdir]
    intro h
    obtain ⟨n, parent, heq, hparent, hfree, hn, hmem⟩ := ih h
    exact ⟨n, parent, heq, hparent, hfree, hn, hmem.imp_left (List.mem_cons_of_mem _)⟩
  | long links loc s rest hdot hdots hlong =>
    rw [walk_cons_long hdot hdots hlong]
    exact nofun
  | free links loc s rest hdir hs hat =>
    rw [walk_cons_free hdir hs hat]
    intro h
    split at h
    · cases h
      exact ⟨s, loc, rfl, hdir, hat, hs, Or.inl List.mem_cons_self⟩
    · cases h
  | circle loc s rest target hdir hs hat =>
    rw [walk_cons_link_zero hdir hs hat]
    exact nofun
  | link links loc s rest target hdir hs hat ih =>
    rw [walk_cons_link hdir hs hat]
    intro h
    obtain ⟨n, parent, heq, hparent, hfree, hn, hmem⟩ := ih h
    refine ⟨n, parent, heq, hparent, hfree, hn, ?_⟩
    rcases hmem with hmem | hlink
    · rcases List.mem_append.mp hmem with hmem | hmem
      · exact Or.inr ⟨s :: loc, target, hat, hmem⟩
      · exact Or.inl (List.mem_cons_of_mem _ hmem)
    · exact Or.inr hlink
  | entry links loc s rest node hdir hs hat hnode ih =>
    rw [walk_cons_entry hdir hs hat hnode]
    intro h
    obtain ⟨n, parent, heq, hparent, hfree, hn, hmem⟩ := ih h
    exact ⟨n, parent, heq, hparent, hfree, hn, hmem.imp_left (List.mem_cons_of_mem _)⟩

end EnumAssets.Tree
