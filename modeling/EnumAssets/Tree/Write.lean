/-
# Writing files

A file is written where its path leads: an existing file gets the new content, and a missing one is
made in its directory, also through a link whose target is missing.  Before that the directories
around it are made as far as they are missing; those that could be made stay even if the rest
fails.
-/
import EnumAssets.Tree.Walk

namespace EnumAssets

/-! ## 1. Directories -/

/-- The result of making one directory. -/
inductive Made where
  | made (t : Tree)
  | taken
  | missing
  | refused

namespace Tree

/-- Makes the directory of a path, inside of a directory that has to be there.  A link in the place
of the new directory is not followed, and a slash at the end of the path says nothing. -/
def makeDirectory (t : Tree) (p : Path) : Made :=
  if p.bytes = [] then .missing
  else if !isUsable p then .refused
  else
    match p.names.getLast? with
    | none => .taken
    | some last =>
      match t.walk linkLimit (startOf p t.workingDirectory) p.names.dropLast with
      | .found loc _ =>
        if !t.isDirectoryAt loc then .refused
        else if last = [Path.dot] ∨ last = [Path.dot, Path.dot] then .taken
        else
          match t.at? (last :: loc), t.create (last :: loc) .directory with
          | some _, _ => .taken
          | none, some t' => .made t'
          | none, none => .refused
      | .free _ | .missing => .missing
      | .refused => .refused

/-- Makes the directory of a path and the directories around it that are missing, in at most a
number of steps outwards.  The truth value says whether the directory is there afterwards. -/
def makeDirectoriesWithin (t : Tree) (p : Path) : Nat → Tree × Bool
  | 0 => (t, p.bytes = [])
  | more + 1 =>
    if p.bytes = [] then (t, true)
    else
      match t.makeDirectory p with
      | .made t' => (t', true)
      | .missing =>
        match p.parent with
        | none => (t, false)
        | some outer =>
          match t.makeDirectoriesWithin outer more with
          | (t', false) => (t', false)
          | (t', true) =>
            match t'.makeDirectory p with
            | .made t'' => (t'', true)
            | _ => (t', t'.isDirectory p)
      | _ => (t, t.isDirectory p)

/-- Makes the directory of a path and the directories around it that are missing.  Each step
outwards has one component less, so their number bounds the steps. -/
def makeDirectories (t : Tree) (p : Path) : Tree × Bool :=
  t.makeDirectoriesWithin p (p.components.length + 1)

/-! ## 2. Files -/

/-- Writes the file that a path leads to, in a directory that has to be there. -/
def writeFile (t : Tree) (p : Path) (content : Bytes) : Option Tree :=
  match t.lookup p with
  | .found loc _ => t.setContent loc content
  | .free loc => t.create loc (.file content)
  | _ => none

/-- Writes the file that a path leads to, and makes the directories around it.  The truth value says
whether the file was written. -/
def persist (t : Tree) (p : Path) (content : Bytes) : Tree × Bool :=
  let (t', ready) :=
    match p.parent with
    | none => (t, true)
    | some directory => t.makeDirectories directory
  if ready then
    match t'.writeFile p content with
    | some t'' => (t'', true)
    | none => (t', false)
  else (t', false)

/-! ## 3. Links and removal -/

/-- The location that the last step of a path names, in a directory that has to be there.  A link at
that location is not followed. -/
def seat? (t : Tree) (p : Path) : Option Location :=
  match p.steps.getLast? with
  | none => none
  | some last =>
    match t.walk linkLimit (startOf p t.workingDirectory) p.steps.dropLast with
    | .found loc _ =>
      if isUsable p && t.isDirectoryAt loc && isProperName last then some (last :: loc) else none
    | _ => none

/-- Makes a link in a directory that has to be there. -/
def makeLink (t : Tree) (p : Path) (target : Bytes) : Option Tree :=
  (t.seat? p).bind fun loc => t.create loc (.link target)

/-- Deletes the file or the link that a path names. -/
def remove (t : Tree) (p : Path) : Option Tree :=
  (t.seat? p).bind t.delete

/-! ## 4. What has changed -/

/-- The files that a tree holds and another one does not, or not with the same content. -/
def newFiles (after before : Tree) : List (Location × Bytes) :=
  after.nodes.filterMap fun entry =>
    match entry with
    | (loc, .file content) =>
      if before.at? loc = some (.file content) then none else some (loc, content)
    | _ => none

end Tree
end EnumAssets
