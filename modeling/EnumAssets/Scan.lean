/-
# Assets below a directory

A scan goes through a directory and all directories below it and finds the assets.  Entries whose
name begins with a dot are passed over, and so is all below them; the directory itself may have any
name.  Links are followed, except to a directory that the scan is inside of already.
-/
import EnumAssets.Tree.Spot
import EnumAssets.Asset
import EnumAssets.Failure

namespace EnumAssets.Scan

/-- Whether an entry is passed over. -/
def isHidden (n : Name) : Bool :=
  n.head? == some Path.dot

/-- The assets below a spot; `around` are the directories that the scan is inside of. -/
def below (t : Tree) (around : List Location) (s : Spot) : List Path :=
  (t.below s fun n => s.path.join ⟨n⟩).flatMap fun (n, s') =>
    let linked := s'.1.location != n :: s.location
    if isHidden n then []
    else if t.isFileSpot s'.1 then (if s'.1.path.isAsset then [s'.1.path] else [])
    else if !t.isDirectorySpot s'.1 || (linked && around.contains s'.1.location) then []
    else below t (s'.1.location :: around) s'.1
termination_by t.room s
decreasing_by exact s'.2

/-- The assets below a directory. -/
def assets (t : Tree) (directory : Path) : Except Failure (List Path) :=
  match t.spot? directory with
  | some s =>
    if t.isDirectorySpot s then .ok (below t [s.location] s)
    else .error (.sourceNotFound directory)
  | none => .error (.sourceNotFound directory)

end EnumAssets.Scan
