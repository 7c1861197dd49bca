/-
# The program

The outer layer: it looks at the files around the working directory and at those that the command
line and the configuration name, hands them to `Command.perform` as a tree, and carries out what the
report says.  Of the files only the configuration and the assets are read; the others are known by
their place alone.
-/
import EnumAssets.Command.Run

namespace EnumAssets.Program

open Command

/-- The location of an absolute path without links. -/
def locationOf (absolute : String) : Location :=
  ((Path.ofText absolute).segments.filter fun s => !s.isEmpty).reverse

/-- The absolute path of a location. -/
def textOf (loc : Location) : String :=
  "/" ++ "/".intercalate (loc.reverse.map Utf8.decodeLossy)

/-- The tree with an entry, unless its location is taken. -/
def withEntry (t : Tree) (loc : Location) (node : Node) : Tree :=
  (t.create loc node).getD t

/-- The tree with a directory and the directories around it. -/
def withDirectories (t : Tree) : Location → Tree
  | [] => t
  | n :: around => withEntry (withDirectories t around) (n :: around) .directory

/-- What has been seen of the files so far. -/
structure View where
  tree : Tree
  listed : List Location

/-- Looks at a directory and all below it. -/
partial def look (view : View) (loc : Location) : IO View := do
  if view.listed.contains loc then return view
  let mut seen : View := ⟨withDirectories view.tree loc, loc :: view.listed⟩
  let entries ← try (IO.FS.DirEntry.mk (textOf loc) ".").path.readDir catch _ => pure #[]
  for entry in entries do
    let here := Utf8.encode entry.fileName :: loc
    let kind ← try pure (some (← entry.path.symlinkMetadata).type) catch _ => pure none
    match kind with
    | some .dir => seen ← look seen here
    | some .file => seen := { seen with tree := withEntry seen.tree here (.file []) }
    | some .symlink =>
      try
        let target := (← IO.FS.realPath entry.path).toString
        seen := { seen with tree := withEntry seen.tree here (.link (Utf8.encode target)) }
        let there := locationOf target
        match (← (IO.FS.DirEntry.mk target ".").path.metadata).type with
        | .dir => seen ← look seen there
        | .file =>
          seen := { seen with
            tree := withEntry (withDirectories seen.tree there.tail) there (.file []) }
        | _ => pure ()
      catch _ => pure ()
    | _ => pure ()
  return seen

/-- Looks at the directory that a path leads to, if it does lead to one. -/
def lookAround (view : View) (p : Path) : IO View := do
  let shown := if p.bytes.isEmpty then "." else p.display
  try look view (locationOf (← IO.FS.realPath shown).toString) catch _ => return view

/-- The tree with the content of a file.  A file that cannot be read gets bytes that are no text. -/
def withContent (t : Tree) (p : Path) : IO Tree := do
  if t.isFile p then
    let content ← try pure (← IO.FS.readBinFile p.display).toList catch _ => pure [0xFF]
    return (t.writeFile p content).getD t
  else return t

/-- The directories that sources lie in. -/
def directoriesOf (root : Path) (sources : List Source) : List Path :=
  sources.map fun s =>
    match s with
    | .directory p => root.join p
    | .file p => (root.join p).parent.getD root
    | .glob pattern =>
      match (Path.ofText pattern).components with
      | .root :: .name n :: _ => ⟨Path.slash :: n⟩
      | .up :: _ => root.join (.ofText "..")
      | _ => root

/-- The tree that a run with the arguments depends on. -/
def observe (args : Arguments) : IO Tree := do
  let here := locationOf (← IO.FS.realPath ".").toString
  let mut view ← look ⟨.empty here, []⟩ here
  for p in sourceRoot args :: args.assets.map fun a => a.parent.getD a do
    view ← lookAround view p
  view := { view with tree := ← withContent view.tree args.config }
  match loadConfig view.tree args with
  | .error _ => return view.tree
  | .ok config =>
    for p in directoriesOf (sourceRoot args) config.sources do
      view ← lookAround view p
    match findAssets view.tree args config with
    | .error _ => return view.tree
    | .ok files => files.foldlM withContent view.tree

/-- Makes the directories and writes the files that one tree has and another one has not. -/
def carryOut (after before : Tree) : IO Unit := do
  for (loc, node) in after.nodes do
    if node = .directory ∧ before.at? loc ≠ some .directory then
      IO.FS.createDirAll (textOf loc)
  for (loc, content) in after.newFiles before do
    IO.FS.writeBinFile (textOf loc) (ByteArray.mk content.toArray)

/-- A duration in milliseconds. -/
def elapsedText (nanoseconds : Nat) : String :=
  let micros := nanoseconds / 1000
  Nat.repr (micros / 1000) ++ "." ++ String.ofList (Toml.padded 3 (micros % 1000)) ++ "ms"

/-- Tells the user why a run ended early. -/
def complain : Ending → IO Unit
  | .finished _ => pure ()
  | .failed message causes => do
    IO.eprintln ("Error: " ++ message)
    unless causes.isEmpty do
      IO.eprintln "\nCaused by:"
      for cause in causes do
        IO.eprintln ("    " ++ cause)
  | .unreadable =>
    IO.eprintln ("error: the arguments cannot be read\n\n" ++
      "Usage: enum-gen [OPTIONS] [ASSETS]...\n\nFor more information, try '--help'.")

end EnumAssets.Program

open EnumAssets in
/-- Runs the command line. -/
def main (arguments : List String) : IO UInt32 := do
  let start ← IO.monoNanosNow
  let request := Command.Request.read arguments
  let asked := (← IO.getEnv "RUST_LOG").bind Command.Threshold.ofName?
  let before ←
    match request with
    | .run args => Program.observe args
    | _ => pure (Tree.empty [])
  let report := Command.perform before asked request
  Program.carryOut report.tree before
  for record in report.records do
    IO.eprintln record.text
  IO.print (report.stdout (Program.elapsedText ((← IO.monoNanosNow) - start)))
  Program.complain report.ending
  return UInt32.ofNat report.ending.status
