/-
# The files of a pattern

A pattern is followed segment by segment.  Plain text is appended to the path so far if that leads
somewhere; `.` and `..` are appended to any directory.  A shape is tried on the names in a
directory, in ascending order, and one that begins with a dot is tried on `..` and `.` before them.
Any number of directories is none at first, so the rest of the pattern is tried on the entries of
the directory; after each entry the same is done below it.

Paths are spelled as they were built, except that a dot at the very beginning is left out as soon as
something follows it.
-/
import EnumAssets.Glob.Pattern
import EnumAssets.Tree.Spot
import EnumAssets.Asset
import EnumAssets.Failure
import EnumAssets.Path.Order

namespace EnumAssets.Glob

/-! ## 1. Paths and names on the way -/

/-- The path one name further; a path that is only a dot is left out. -/
def extend (p : Path) (name : Bytes) : Path :=
  if p.components = [.here] then ⟨name⟩ else p.join ⟨name⟩

/-- The entries of a directory one step below a spot, ascending by name. -/
def entriesBelow (t : Tree) (s : Spot) : List (Name × { s' : Spot // t.room s' < t.room s }) :=
  (t.below s (extend s.path)).mergeSort fun a b =>
    !Path.before (b.1.map UInt8.toNat) (a.1.map UInt8.toNat)

/-- Whether plain text is one of the two names of directories that are not listed. -/
def isUnlisted (cs : List Char) : Bool :=
  cs == ['.'] || cs == ['.', '.']

/-- Whether the name of an entry fits a segment; a name that is no text fits none. -/
def nameFits (seg : Segment) (n : Name) : Bool :=
  (Utf8.decode n).any fun s => fits seg.tokens s.toList

/-- The names that are not listed and that a segment is tried on. -/
def unlistedFits (seg : Segment) : List Name :=
  if seg.startsWithDot then [[Path.dot, Path.dot], [Path.dot]].filter (nameFits seg) else []

/-! ## 2. Following the segments -/

/-- The spots that segments lead to. -/
def expand (t : Tree) (s : Spot) : List Segment → List Spot
  | [] => [s]
  | .text cs :: rest =>
    if isUnlisted cs && !t.isDirectorySpot s then []
    else
      match t.spot? (extend s.path (Utf8.encode (String.ofList cs))) with
      | some s' => expand t s' rest
      | none => []
  | .shape ts :: rest =>
    if !t.isDirectorySpot s then []
    else
      ((unlistedFits (.shape ts)).flatMap fun n =>
        match t.spot? (s.path.join ⟨n⟩) with
        | some s' => expand t s' rest
        | none => []) ++
      (entriesBelow t s).flatMap fun (n, s') =>
        if nameFits (.shape ts) n then expand t s'.1 rest else []
  | .directories :: rest =>
    if !t.isDirectorySpot s then []
    else
      (entriesBelow t s).flatMap fun (n, s') =>
        (match rest with
          | [] => if t.isDirectorySpot s'.1 then [s'.1] else []
          | next :: more => if nameFits next n then expand t s'.1 more else []) ++
        expand t s'.1 (.directories :: rest)
termination_by segs => (segs.length, t.room s)
decreasing_by
  all_goals first
    | exact Prod.Lex.right _ s'.2
    | exact Prod.Lex.left _ _ (by simp only [List.length_cons]; omega)

/-- The spots that a pattern leads to. -/
def spots (t : Tree) (p : Pattern) : List Spot :=
  match t.spot? (if p.absolute then ⟨[Path.slash]⟩ else ⟨[Path.dot]⟩) with
  | some s => expand t s p.segments
  | none => []

/-- The assets that a pattern leads to; one that asks for directories leads to no file. -/
def assets (t : Tree) (text : String) : Except Failure (List Path) :=
  match Pattern.ofText? text with
  | none => .error (.pattern text)
  | some p =>
    if p.directoriesOnly then .ok []
    else .ok (((spots t p).filter fun s => t.isFileSpot s && s.path.isAsset).map Spot.path)

end EnumAssets.Glob
