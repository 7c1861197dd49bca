/-
# Going down a tree

A `Spot` is an entry together with the path that led to it and the number of links that may still be
followed.  From the spot of a directory one step leads to each entry in it, through a link if the
entry is one.  Every step makes the `room` below a spot smaller: either one link fewer may be
followed, or the location is one name longer, and no location is longer than the `height` of the
tree.  So going down always ends, however the links are tied.
-/
import EnumAssets.Tree.Walk

namespace EnumAssets

/-! ## 1. Spots and steps -/

/-- An entry that was reached by a path; links are already followed. -/
structure Spot where
  path : Path
  location : Location
  links : Nat
deriving DecidableEq, Repr

namespace Tree

/-- The spot that a path leads to. -/
def spot? (t : Tree) (p : Path) : Option Spot :=
  match t.lookup p with
  | .found loc links => some ⟨p, loc, links⟩
  | _ => none

/-- The step from a directory to an entry in it, which is then known by a new path. -/
def step (t : Tree) (s : Spot) (n : Name) (node : Node) (path : Path) : Option Spot :=
  if !isUsable path then none
  else
    match node, s.links with
    | .link _, 0 => none
    | .link target, more + 1 =>
      match t.walk more (startOf ⟨target⟩ s.location) (⟨target⟩ : Path).steps with
      | .found loc links => some ⟨path, loc, links⟩
      | _ => none
    | _, links => some ⟨path, n :: s.location, links⟩

/-! ## 2. The room below a spot -/

/-- The greatest length of a location. -/
def height (t : Tree) : Nat :=
  t.nodes.foldr (fun entry most => max entry.1.length most) 0

/-- How far one can still go down from a spot. -/
def room (t : Tree) (s : Spot) : Nat :=
  s.links * (t.height + 1) + (t.height - s.location.length)

/-- A walk follows no more links than it may. -/
theorem walk_links_le (t : Tree) (links : Nat) (loc : Location) (steps : List Name)
    {loc' : Location} {links' : Nat} (h : t.walk links loc steps = .found loc' links') :
    links' ≤ links := by
  fun_induction walk t links loc steps with
  | case1 links loc =>
    cases h
    exact Nat.le_refl _
  -- These are the ends that are no finds: nothing is there, or it is refused.
  | case2 | case5 | case6 | case7 | case8 => cases h
  | case3 links loc rest hdir ih => exact ih h
  | case4 links loc rest hdir hdots ih => exact ih h
  | case9 loc s rest hdir hdot hdots hlong target hat more ih => exact Nat.le_succ_of_le (ih h)
  | case10 links loc s rest hdir hdot hdots hlong node hnode hat ih => exact ih h

theorem length_le_height (t : Tree) {loc : Location} (h : loc ∈ t.nodes.map Prod.fst) :
    loc.length ≤ t.height := by
  unfold height
  generalize t.nodes = ns at h
  induction ns with
  | nil => simp at h
  | cons entry rest ih =>
    simp only [List.map_cons, List.mem_cons, List.foldr_cons] at h ⊢
    rcases h with rfl | h
    · omega
    · have := ih h; omega

theorem mem_of_mem_children (t : Tree) {loc : Location} {n : Name} {node : Node}
    (h : (n, node) ∈ t.children loc) : (n :: loc, node) ∈ t.nodes := by
  obtain ⟨⟨l, v⟩, hmem, hsome⟩ := List.mem_filterMap.1 h
  cases l with
  | nil => simp at hsome
  | cons m parent =>
    simp only at hsome
    split at hsome
    · next hp => cases hsome; subst hp; exact hmem
    · cases hsome

/-- Each step to an entry of a directory leaves less room below. -/
theorem room_step_lt (t : Tree) {s s' : Spot} {n : Name} {node : Node} {path : Path}
    (child : (n, node) ∈ t.children s.location) (h : t.step s n node path = some s') :
    t.room s' < t.room s := by
  have len := t.length_le_height (List.mem_map_of_mem (t.mem_of_mem_children child))
  simp only [List.length_cons] at len
  unfold step at h
  split at h
  · cases h
  · split at h
    · cases h
    · next more hl =>
      split at h
      · next loc links hw =>
        obtain rfl := Option.some.inj h
        have := t.walk_links_le _ _ _ hw
        simp only [room, hl]
        have : links * (t.height + 1) ≤ more * (t.height + 1) := Nat.mul_le_mul_right _ this
        rw [Nat.succ_mul]
        omega
      · cases h
    · obtain rfl := Option.some.inj h
      simp only [room, List.length_cons]
      omega

/-! ## 3. Going down -/

/-- The entries of a directory one step below a spot, each with its name, proof of less room
included. -/
def below (t : Tree) (s : Spot) (pathOf : Name → Path) :
    List (Name × { s' : Spot // t.room s' < t.room s }) :=
  (t.children s.location).attach.filterMap fun ⟨(n, node), child⟩ =>
    match h : t.step s n node (pathOf n) with
    | some s' => some (n, ⟨s', t.room_step_lt child h⟩)
    | none => none

/-- Whether a directory is at a spot. -/
def isDirectorySpot (t : Tree) (s : Spot) : Bool :=
  t.isDirectoryAt s.location

/-- Whether a file is at a spot. -/
def isFileSpot (t : Tree) (s : Spot) : Bool :=
  match t.at? s.location with
  | some (.file _) => true
  | _ => false

end Tree
end EnumAssets
