/-
# Trees of files

A tree holds directories, files with their content, and symbolic links with their target text.  An
entry is found by its location: the names from the entry up to the root, the entry's own name
first, so that the location of a child is the parent's with one name in front.  The root itself is
a directory and is not listed.

A tree lists no location twice, every listed entry lies in a directory, and names are such that a
path can spell them.  These facts are part of the type, so each operation keeps them.  There are
three operations, `create`, `setContent` and `delete`; `at?_create`, `at?_setContent` and
`at?_delete` say that each changes the one location it is given and no other.
-/
import EnumAssets.Path.Basic

namespace EnumAssets

/-! ## 1. Locations and what is at them -/

/-- The name of an entry in its directory. -/
abbrev Name := Bytes

/-- The place of an entry: its name, then the names of the directories around it, the root last. -/
abbrev Location := List Name

/-- What a tree holds at a location. -/
inductive Node where
  | directory
  | file (content : Bytes)
  | link (target : Bytes)
deriving DecidableEq, Repr

/-- The greatest number of bytes of a name. -/
def nameLimit : Nat := 255

/-- Whether an entry can have the name: it is not empty, not too long, has neither slash nor NUL,
and is not one of the two names that stand for the directory itself and the one above. -/
def isProperName (n : Name) : Bool :=
  !n.isEmpty && !n.contains Path.slash && !n.contains 0 && n != [Path.dot] &&
    n != [Path.dot, Path.dot] && decide (n.length ≤ nameLimit)

/-! ## 2. Lists of entries -/

/-- Listed entries. -/
abbrev Nodes := List (Location × Node)

namespace Nodes

/-- The entry at a location; the root is a directory. -/
def at? (ns : Nodes) : Location → Option Node
  | [] => some .directory
  | loc => ns.lookup loc

/-- The entries with the one of a location replaced. -/
def replace (ns : Nodes) (loc : Location) (node : Node) : Nodes :=
  ns.map fun entry => if entry.1 = loc then (loc, node) else entry

/-- Whether a location is one that a path can spell, inside of a listed directory. -/
def Holds (ns : Nodes) : Location → Prop
  | [] => False
  | n :: parent => isProperName n = true ∧ ns.at? parent = some .directory

/-- Every listed entry has a proper name and lies in a directory. -/
def Closed (ns : Nodes) : Prop :=
  ∀ loc ∈ ns.map Prod.fst, ns.Holds loc

@[simp] theorem at?_root (ns : Nodes) : ns.at? [] = some .directory := rfl

@[simp] theorem at?_cons (ns : Nodes) (n : Name) (loc : Location) :
    ns.at? (n :: loc) = ns.lookup (n :: loc) := rfl

@[simp] theorem map_fst_replace (ns : Nodes) (loc : Location) (node : Node) :
    (ns.replace loc node).map Prod.fst = ns.map Prod.fst := by
  simp only [replace, List.map_map]
  refine List.map_congr_left fun entry _ => ?_
  by_cases h : entry.1 = loc <;> simp [h]

theorem lookup_replace (ns : Nodes) (loc k : Location) (node : Node) :
    (ns.replace loc node).lookup k =
      if k = loc then (ns.lookup loc).map fun _ => node else ns.lookup k := by
  induction ns with
  | nil => simp [replace]
  | cons entry rest ih =>
    obtain ⟨l, v⟩ := entry
    simp only [replace, List.map_cons] at ih ⊢
    by_cases hl : l = loc
    · subst hl
      by_cases hk : k = l
      · subst hk; simp
      · have hk' : (k == l) = false := by simpa using hk
        simp only [↓reduceIte, List.lookup_cons, hk', ih, hk]
    · by_cases hk : k = loc
      · subst hk
        have hk' : (k == l) = false := by simpa using fun h => hl h.symm
        simp only [if_neg hl, List.lookup_cons, hk', ih, ↓reduceIte]
      · by_cases hkl : k = l
        · subst hkl
          simp [hl]
        · have hk' : (k == l) = false := by simpa using hkl
          simp only [if_neg hl, List.lookup_cons, hk', ih, hk, ↓reduceIte]

/-- The entries without the one of a location. -/
def without (ns : Nodes) (loc : Location) : Nodes :=
  ns.filter fun entry => entry.1 != loc

theorem lookup_without (ns : Nodes) (loc k : Location) :
    (ns.without loc).lookup k = if k = loc then none else ns.lookup k := by
  induction ns with
  | nil => simp [without]
  | cons entry rest ih =>
    obtain ⟨l, v⟩ := entry
    simp only [without, List.filter_cons] at ih ⊢
    by_cases hl : l = loc
    · subst hl
      by_cases hk : k = l
      · subst hk; simpa using ih
      · have hk' : (k == l) = false := by simpa using hk
        simpa [List.lookup_cons, hk', hk] using ih
    · have hl' : (l != loc) = true := by simpa using hl
      rw [if_pos hl', List.lookup_cons, List.lookup_cons, ih]
      by_cases hk : k = l
      · subst hk; simp [hl]
      · have hk' : (k == l) = false := by simpa using hk
        simp [hk']

theorem lookup_append_new (ns : Nodes) (loc k : Location) (node : Node)
    (free : ns.lookup loc = none) :
    (ns ++ [(loc, node)]).lookup k = if k = loc then some node else ns.lookup k := by
  rw [List.lookup_append]
  by_cases hk : k = loc
  · subst hk; simp [free]
  · have hk' : (k == loc) = false := by simpa using hk
    simp [List.lookup_cons, hk', hk]

end Nodes

/-! ## 3. Trees -/

/-- A tree of files, seen from a working directory. -/
structure Tree where
  nodes : Nodes
  nodup : (nodes.map Prod.fst).Nodup
  closed : nodes.Closed
  workingDirectory : Location

namespace Tree

/-- The tree without entries. -/
def empty (workingDirectory : Location) : Tree :=
  ⟨[], by simp, by simp [Nodes.Closed], workingDirectory⟩

/-- What is at a location. -/
def at? (t : Tree) (loc : Location) : Option Node :=
  t.nodes.at? loc

/-- Whether a directory is at a location. -/
def isDirectoryAt (t : Tree) (loc : Location) : Bool :=
  t.at? loc == some .directory

/-- The names in the directory at a location, with what they name. -/
def children (t : Tree) (loc : Location) : List (Name × Node) :=
  t.nodes.filterMap fun entry =>
    match entry with
    | (n :: parent, node) => if parent = loc then some (n, node) else none
    | _ => none

/-! ## 4. The three operations -/

/-- The tree with a new entry; none when its name is not proper, the location is taken, or no
directory is around it. -/
def create (t : Tree) (loc : Location) (node : Node) : Option Tree :=
  match loc with
  | [] => none
  | n :: parent =>
    if h : isProperName n = true ∧ t.nodes.at? parent = some .directory ∧
        t.nodes.lookup (n :: parent) = none then
      some {
        nodes := t.nodes ++ [(n :: parent, node)]
        nodup := by
          rw [List.map_append, List.nodup_append]
          refine ⟨t.nodup, by simp, ?_⟩
          rintro a ha b hb rfl
          simp only [List.map_cons, List.map_nil, List.mem_singleton] at hb
          subst hb
          obtain ⟨entry, he, hfst⟩ := List.mem_map.1 ha
          have := List.lookup_eq_none_iff.1 h.2.2 entry he
          simp [hfst] at this
        closed := by
          intro loc hloc
          have keep : ∀ l, t.nodes.at? l = some .directory →
              Nodes.at? (t.nodes ++ [(n :: parent, node)]) l = some .directory := by
            intro l hl
            cases l with
            | nil => rfl
            | cons m rest =>
              rw [Nodes.at?_cons] at hl ⊢
              rw [Nodes.lookup_append_new _ _ _ _ h.2.2]
              split
              · next e => rw [e, h.2.2] at hl; cases hl
              · exact hl
          rw [List.map_append, List.mem_append] at hloc
          rcases hloc with hloc | hloc
          · have := t.closed loc hloc
            cases loc with
            | nil => exact this
            | cons m rest => exact ⟨this.1, keep _ this.2⟩
          · simp only [List.map_cons, List.map_nil, List.mem_singleton] at hloc
            subst hloc
            exact ⟨h.1, keep _ h.2.1⟩
        workingDirectory := t.workingDirectory }
    else none

/-- The tree with another content of a file; none when no file is at the location. -/
def setContent (t : Tree) (loc : Location) (content : Bytes) : Option Tree :=
  match h : t.nodes.at? loc with
  | some (.file _) =>
    some {
      nodes := t.nodes.replace loc (.file content)
      nodup := by rw [Nodes.map_fst_replace]; exact t.nodup
      closed := by
        intro l hl
        rw [Nodes.map_fst_replace] at hl
        have holds := t.closed l hl
        cases l with
        | nil => exact holds
        | cons m rest =>
          refine ⟨holds.1, ?_⟩
          have hdir := holds.2
          cases rest with
          | nil => rfl
          | cons m' rest' =>
            rw [Nodes.at?_cons] at hdir ⊢
            rw [Nodes.lookup_replace, if_neg]
            · exact hdir
            · rintro rfl
              rw [Nodes.at?_cons, hdir] at h
              cases h
      workingDirectory := t.workingDirectory }
  | _ => none

/-- The tree without the file or link at a location; none when a directory is there. -/
def delete (t : Tree) (loc : Location) : Option Tree :=
  if h : t.nodes.at? loc = some .directory then none
  else
    some {
      nodes := t.nodes.without loc
      nodup := List.Nodup.sublist (List.Sublist.map _ List.filter_sublist) t.nodup
      closed := by
        intro l hl
        obtain ⟨entry, he, rfl⟩ := List.mem_map.1 hl
        have holds := t.closed entry.1 (List.mem_map_of_mem (List.mem_filter.1 he).1)
        revert holds
        cases entry.1 with
        | nil => exact id
        | cons m rest =>
          rintro ⟨proper, dir⟩
          refine ⟨proper, ?_⟩
          cases rest with
          | nil => rfl
          | cons m' rest' =>
            rw [Nodes.at?_cons] at dir ⊢
            rw [Nodes.lookup_without, if_neg]
            · exact dir
            · rintro rfl
              exact h dir
      workingDirectory := t.workingDirectory }

/-! ## 5. What an operation changes -/

theorem create_eq_some {t t' : Tree} {loc : Location} {node : Node}
    (h : t.create loc node = some t') :
    t'.nodes = t.nodes ++ [(loc, node)] ∧ t.nodes.lookup loc = none ∧
      t'.workingDirectory = t.workingDirectory := by
  cases loc with
  | nil => simp [create] at h
  | cons n parent =>
    simp only [create] at h
    split at h
    · next hc => obtain rfl := Option.some.inj h; exact ⟨rfl, hc.2.2, rfl⟩
    · cases h

theorem create_ne_root {t t' : Tree} {loc : Location} {node : Node}
    (h : t.create loc node = some t') : loc ≠ [] := by
  rintro rfl
  simp [create] at h

/-- A new entry is at its location, and all others are where they were. -/
theorem at?_create {t t' : Tree} {loc : Location} {node : Node}
    (h : t.create loc node = some t') (k : Location) :
    t'.at? k = if k = loc then some node else t.at? k := by
  obtain ⟨hn, free, -⟩ := create_eq_some h
  have hne := create_ne_root h
  cases k with
  | nil => rw [if_neg (fun e => hne e.symm)]; rfl
  | cons m rest =>
    rw [at?, at?, hn, Nodes.at?_cons, Nodes.at?_cons, Nodes.lookup_append_new _ _ _ _ free]

theorem setContent_eq_some {t t' : Tree} {loc : Location} {content : Bytes}
    (h : t.setContent loc content = some t') :
    (∃ old, t.at? loc = some (.file old)) ∧ t'.nodes = t.nodes.replace loc (.file content) ∧
      t'.workingDirectory = t.workingDirectory := by
  unfold setContent at h
  split at h
  · next old hc => obtain rfl := Option.some.inj h; exact ⟨⟨old, hc⟩, rfl, rfl⟩
  · cases h

/-- A file with another content is where it was, and all other entries are as they were. -/
theorem at?_setContent {t t' : Tree} {loc : Location} {content : Bytes}
    (h : t.setContent loc content = some t') (k : Location) :
    t'.at? k = if k = loc then some (.file content) else t.at? k := by
  obtain ⟨⟨old, hold⟩, hn, -⟩ := setContent_eq_some h
  cases loc with
  | nil => simp [at?] at hold
  | cons n parent =>
    cases k with
    | nil => simp [at?]
    | cons m rest =>
      rw [at?, Nodes.at?_cons] at hold
      rw [at?, at?, hn, Nodes.at?_cons, Nodes.at?_cons, Nodes.lookup_replace, hold]
      rfl

/-- A file or link that was deleted is gone, and all other entries are as they were. -/
theorem at?_delete {t t' : Tree} {loc : Location} (h : t.delete loc = some t') (k : Location) :
    t'.at? k = if k = loc then none else t.at? k := by
  unfold delete at h
  split at h
  · cases h
  · next hd =>
    obtain rfl := Option.some.inj h
    cases k with
    | nil =>
      rw [if_neg]
      · rfl
      · rintro rfl; exact hd rfl
    | cons m rest => exact Nodes.lookup_without _ _ _

end Tree
end EnumAssets
