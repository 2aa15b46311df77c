import TemplateViews.Files

/-! Purging: what builds have left behind in a directory is known by how its name
starts. Only files are removed; one that the system keeps stays and is not counted. -/

namespace TemplateViews

def nameText (name : FileName) : List Char := Utf8.decodeLossy name

def isStale (stem : String) (name : FileName) (node : Node) : Bool :=
  node.isFile && stem.toList.isPrefixOf (nameText name)

namespace Files

/-- Removes an entry of a directory if it is stale, and counts it if that succeeds. -/
def purgeEntry (dir : Place) (stem : String) (state : Nat × Files)
    (entry : FileName × Node) : Nat × Files :=
  if isStale stem entry.1 entry.2 && !state.2.guarded.contains (dir ++ [entry.1]) then
    (state.1 + 1, state.2.erase (dir ++ [entry.1]))
  else state

def purge (files : Files) (p : Path) (stem : String) : Except SystemError (Nat × Files) :=
  match files.find p with
  | .error e => .error e
  | .ok (dir, .directory) =>
    .ok ((files.entries dir).foldl (purgeEntry dir stem) (0, files))
  | .ok _ => .error .notDirectory

end Files

end TemplateViews
