/-
# Looking up paths

A path is looked up by walking its segments from the working directory, or from the root if it is
absolute.  A symbolic link on the way is replaced by its target, read from the directory that holds
the link; at most forty links are followed, so links in a circle end the walk.  A slash at the end
of a path stands for one more step to the directory itself: what it leads to has to be a directory.

A walk ends at an entry, at a place where nothing is but an entry could be made, or without a place
at all, and then either because something is missing or because something stands in the way.
-/
import EnumAssets.Tree.Basic

namespace EnumAssets

/-! ## 1. How a walk ends -/

/-- How a walk ends. -/
inductive Lookup where
  /-- An entry that is no link, and the number of links that may still be followed. -/
  | found (loc : Location) (links : Nat)
  /-- Nothing is there, but the directory around it is. -/
  | free (loc : Location)
  /-- A directory on the way, or the path itself, is missing. -/
  | missing
  /-- Something that is no directory, too many links, or a name that is too long. -/
  | refused
deriving DecidableEq, Repr

/-- The greatest number of links on the way of one path. -/
def linkLimit : Nat := 40

/-- A path has to be shorter than this number of bytes. -/
def pathLimit : Nat := 4096

/-! ## 2. The steps of a path -/

namespace Path

/-- The segments that are no empty stretch. -/
def names (p : Path) : List Name :=
  p.segments.filter fun s => !s.isEmpty

/-- The steps that are walked; a slash at the end of the path is a step to the directory itself. -/
def steps (p : Path) : List Name :=
  if p.bytes.getLast? = some slash then p.names ++ [[dot]] else p.names

end Path

namespace Tree

/-! ## 3. The walk -/

/-- Where the walk of a path begins if it stands in a directory. -/
def startOf (p : Path) (directory : Location) : Location :=
  if p.isAbsolute then [] else directory

/-- Walks steps from a location, following at most a number of links. -/
def walk (t : Tree) (links : Nat) (loc : Location) : List Name → Lookup
  | [] => .found loc links
  | s :: rest =>
    if !t.isDirectoryAt loc then .refused
    else if s = [Path.dot] then walk t links loc rest
    else if s = [Path.dot, Path.dot] then walk t links loc.tail rest
    else if nameLimit < s.length then .refused
    else
      match t.at? (s :: loc) with
      | none => if rest = [] then .free (s :: loc) else .missing
      | some (.link target) =>
        match links with
        | 0 => .refused
        | more + 1 => walk t more (startOf ⟨target⟩ loc) ((⟨target⟩ : Path).steps ++ rest)
      | some _ => walk t links (s :: loc) rest
termination_by steps => (links, steps.length)

/-- Whether a path can be looked up at all: it has no NUL and is not too long. -/
def isUsable (p : Path) : Bool :=
  !p.bytes.contains 0 && decide (p.bytes.length < pathLimit)

/-- What a path leads to. -/
def lookup (t : Tree) (p : Path) : Lookup :=
  if p.bytes = [] then .missing
  else if !isUsable p then .refused
  else t.walk linkLimit (startOf p t.workingDirectory) p.steps

/-! ## 4. What a path leads to -/

/-- Whether a path leads to an entry of any sort. -/
def exists? (t : Tree) (p : Path) : Bool :=
  match t.lookup p with
  | .found .. => true
  | _ => false

/-- Whether a path leads to a directory. -/
def isDirectory (t : Tree) (p : Path) : Bool :=
  match t.lookup p with
  | .found loc _ => t.isDirectoryAt loc
  | _ => false

/-- The content of the file that a path leads to. -/
def content? (t : Tree) (p : Path) : Option Bytes :=
  match t.lookup p with
  | .found loc _ =>
    match t.at? loc with
    | some (.file content) => some content
    | _ => none
  | _ => none

/-- Whether a path leads to a file. -/
def isFile (t : Tree) (p : Path) : Bool :=
  (t.content? p).isSome

/-- The text of the file that a path leads to; none when there is no file or it is no text. -/
def text? (t : Tree) (p : Path) : Option String :=
  (t.content? p).bind Utf8.decode

end Tree
end EnumAssets
