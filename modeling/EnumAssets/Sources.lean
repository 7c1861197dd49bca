/-
# The assets of a list of sources

Sources are written relative to a root directory.  Their assets are put together in ascending order
of their paths, each path once; of two spellings of the same path the one of the earlier source is
kept.  If a source fails, the first one that does decides how.
-/
import EnumAssets.Config
import EnumAssets.Scan
import EnumAssets.Glob.Expand
import EnumAssets.Path.Order

namespace EnumAssets

/-- The assets of a source on its own. -/
def Source.assets (t : Tree) (root : Path) : Source → Except Failure (List Path)
  | .directory p => Scan.assets t (root.join p)
  | .file p =>
    let path := root.join p
    if t.isFile path then .ok [path] else .error (.sourceNotFound path)
  | .glob pattern => Glob.assets t (root.join (Path.ofText pattern)).display

/-- The assets of all sources, in order and each once. -/
def collect (t : Tree) (root : Path) (sources : List Source) : Except Failure (List Path) := do
  let found ← sources.mapM (Source.assets t root)
  return Path.arrange found.flatten

end EnumAssets
