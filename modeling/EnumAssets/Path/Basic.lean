/-
# Paths

A path is a sequence of bytes, kept as it was written; only its reading is normalised.  The one
separator is the slash.  `components` is that reading: empty segments and segments of a single dot
say nothing, a leading slash is the root, and a dot that begins a relative path stays, so that
`./a` and `a` remain different paths to the same place.  `..` stays as well.

The name, the stem and the parent of a path are taken from that reading, and joining two paths
keeps the spelling of both.
-/
import EnumAssets.Text.Quoted

namespace EnumAssets

/-! ## 1. Spelling -/

/-- A path as it was written. -/
structure Path where
  bytes : Bytes
deriving DecidableEq, Repr

namespace Path

/-- The separator of paths. -/
def slash : UInt8 := 0x2F

/-- The dot: alone it is the directory itself, twice the directory above, and in a name it begins
an extension. -/
def dot : UInt8 := 0x2E

/-- The path with the given text. -/
def ofText (s : String) : Path :=
  ⟨Utf8.encode s⟩

/-- The path as it is shown: malformed parts become U+FFFD. -/
def display (p : Path) : String :=
  Utf8.decodeLossy p.bytes

/-- The path between quotes, as messages show it. -/
def quoted (p : Path) : String :=
  Quoted.bytes p.bytes

/-- Whether the path is written from the root on. -/
def isAbsolute (p : Path) : Bool :=
  p.bytes.head? == some slash

/-- The text between the slashes, empty stretches included. -/
def segments (p : Path) : List Bytes :=
  p.bytes.splitOn slash

/-! ## 2. Reading -/

/-- A step of a path. -/
inductive Component where
  | root
  | here
  | up
  | name (n : Bytes)
deriving DecidableEq, Repr

/-- Whether a segment says nothing where it stands: it is empty or a single dot. -/
def isBlank (s : Bytes) : Bool :=
  s == [] || s == [dot]

/-- The step a segment stands for behind the first place of a path. -/
def Component.ofSegment? (s : Bytes) : Option Component :=
  if isBlank s then none
  else if s = [dot, dot] then some .up
  else some (.name s)

/-- The reading of a path: the root or a leading dot if there is one, then the steps. -/
def components (p : Path) : List Component :=
  match p.segments with
  | [] => []
  | first :: rest =>
    if p.isAbsolute then .root :: rest.filterMap Component.ofSegment?
    else if first = [dot] then .here :: rest.filterMap Component.ofSegment?
    else (first :: rest).filterMap Component.ofSegment?

/-! ## 3. Name, stem and parent -/

/-- The last step of a path, if it is a name. -/
def fileName (p : Path) : Option Bytes :=
  match p.components.getLast? with
  | some (.name n) => some n
  | _ => none

/-- A name up to its last dot; the whole name when there is no dot behind its first byte. -/
def stemOf (n : Bytes) : Bytes :=
  match n.reverse.dropWhile (· != dot) with
  | _ :: before :: more => (before :: more).reverse
  | _ => n

/-- The name of a path without its extension. -/
def fileStem (p : Path) : Option Bytes :=
  p.fileName.map stemOf

/-- The segments without the blank ones at their end. -/
def trim (segs : List Bytes) : List Bytes :=
  (segs.reverse.dropWhile isBlank).reverse

/-- The segments without the last one that says something, and without the blank ones around it;
none when all are blank. -/
def withoutLast (segs : List Bytes) : Option (List Bytes) :=
  match trim segs with
  | [] => none
  | kept => some (trim kept.dropLast)

/-- The path spelled by segments. -/
def ofSegments (segs : List Bytes) : Path :=
  ⟨[slash].intercalate segs⟩

/-- The path without its last component, otherwise spelled as it was; the empty path when there is
one component only, and none for the root and for the empty path. -/
def parent (p : Path) : Option Path :=
  match p.segments with
  | [] => none
  | first :: rest =>
    if p.isAbsolute then
      (withoutLast rest).map fun kept =>
        if kept.isEmpty then ⟨[slash]⟩ else ofSegments (first :: kept)
    else if first = [dot] then
      match withoutLast rest with
      | none => some ⟨[]⟩
      | some kept => some (ofSegments (first :: kept))
    else (withoutLast (first :: rest)).map ofSegments

/-! ## 4. Joining -/

/-- One path behind another: an absolute one replaces the first, and a slash comes between them
unless the first is empty or ends with one. -/
def join (a b : Path) : Path :=
  if b.isAbsolute then b
  else
    match a.bytes.getLast? with
    | none => b
    | some last => if last = slash then ⟨a.bytes ++ b.bytes⟩ else ⟨a.bytes ++ [slash] ++ b.bytes⟩

end Path
end EnumAssets
