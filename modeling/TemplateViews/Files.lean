import TemplateViews.Path
import TemplateViews.SystemError
import TemplateViews.Text.Utf8

/-! A file system as a value. Places are lists of names from the root, names are bytes,
and a path is followed piece by piece, as the system does. A file is first made and then
written, so a write that fails may leave the start of its content. -/

namespace TemplateViews

abbrev FileName := List UInt8

/-- The names from the root down to a place. -/
abbrev Place := List FileName

inductive Node
  | file (content : List UInt8)
  | directory
  /-- A symbolic link to a directory outside of this file system. It can be listed and
  removed, but no path is followed through it: nothing is known of what lies behind. -/
  | link
  deriving DecidableEq, Repr

def Node.isFile : Node → Bool
  | .file _ => true
  | _ => false

/-- How the system ends a write: with an error, once it has taken some bytes of the content.
It may not even make the file. -/
structure Shortage where
  room : Option Nat
  error : SystemError
  deriving DecidableEq, Repr

structure Files where
  nodes : List (Place × Node) := []
  /-- The directory where paths that are not absolute start. -/
  base : Place := []
  /-- Places that the system refuses to clear. -/
  guarded : List Place := []
  /-- Places where the system does not take every file, or none. -/
  shortages : List (Place × Shortage) := []
  /-- No two things stand at one place. -/
  distinct : nodes.Pairwise fun one other => one.1 ≠ other.1 := by decide
  deriving DecidableEq, Repr

def maxNameLength : Nat := 255

def maxPathLength : Nat := 4095

namespace Files

def node? (files : Files) (place : Place) : Option Node :=
  if place = [] then some .directory else files.nodes.lookup place

def erase (files : Files) (place : Place) : Files :=
  { files with
    nodes := files.nodes.filter (·.1 ≠ place)
    distinct := files.distinct.filter _ }

theorem ne_of_mem_erase {files : Files} {place : Place} {entry : Place × Node}
    (h : entry ∈ (files.erase place).nodes) : entry.1 ≠ place :=
  of_decide_eq_true (List.mem_filter.mp h).2

def put (files : Files) (place : Place) (node : Node) : Files :=
  { files with
    nodes := (place, node) :: (files.erase place).nodes
    distinct := List.pairwise_cons.mpr
      ⟨fun _ h => (ne_of_mem_erase h).symm, (files.erase place).distinct⟩ }

/-- Follows the pieces of a path. All but the last name have to be directories. -/
def walk (files : Files) (place : Place) : List FileName → Except SystemError Place
  | [] => .ok place
  | piece :: rest =>
    if piece = [] ∨ piece = [0x2e] then files.walk place rest
    else if piece = [0x2e, 0x2e] then files.walk place.dropLast rest
    else if maxNameLength < piece.length then .error .nameTooLong
    else if rest = [] then .ok (place ++ [piece])
    else
      match files.node? (place ++ [piece]) with
      | none => .error .notFound
      | some .directory => files.walk (place ++ [piece]) rest
      | some _ => .error .notDirectory

def locate (files : Files) (p : Path) : Except SystemError Place :=
  let bytes := Utf8.encode p.text.toList
  if 0 ∈ bytes then .error .nulInPath
  else if bytes = [] then .error .notFound
  else if maxPathLength < bytes.length then .error .nameTooLong
  else files.walk (if p.isAbsolute then [] else files.base) (p.pieces.map Utf8.encode)

def find (files : Files) (p : Path) : Except SystemError (Place × Node) :=
  match files.locate p with
  | .error e => .error e
  | .ok place =>
    match files.node? place with
    | none => .error .notFound
    | some node => .ok (place, node)

def holds (files : Files) (p : Path) : Bool := (files.find p).isOk

def read (files : Files) (p : Path) : Except SystemError (List UInt8) :=
  match files.find p with
  | .error e => .error e
  | .ok (_, .file content) => .ok content
  | .ok _ => .error .isDirectory

def readText (files : Files) (p : Path) : Except SystemError String :=
  match files.read p with
  | .error e => .error e
  | .ok content =>
    match Utf8.decode content with
    | .ok cs => .ok (String.ofList cs)
    | .error _ => .error .invalidText

/-- Makes the file at a place, or empties it, and writes as much as the system takes. An error
comes with what is there then. -/
def fill (files : Files) (place : Place) (content : List UInt8) :
    Except (SystemError × Files) Files :=
  match files.shortages.lookup place with
  | none => .ok (files.put place (.file content))
  | some ⟨none, error⟩ => .error (error, files)
  | some ⟨some room, error⟩ =>
    if content.length ≤ room then .ok (files.put place (.file content))
    else .error (error, files.put place (.file (content.take room)))

def write (files : Files) (p : Path) (content : List UInt8) :
    Except (SystemError × Files) Files :=
  match files.locate p with
  | .error e => .error (e, files)
  | .ok place =>
    match files.node? place with
    | none => files.fill place content
    | some (.file _) => files.fill place content
    | some _ => .error (.isDirectory, files)

def remove (files : Files) (p : Path) : Except SystemError Files :=
  match files.find p with
  | .error e => .error e
  | .ok (_, .directory) => .error .isDirectory
  | .ok (place, _) =>
    if place ∈ files.guarded then .error .permissionDenied else .ok (files.erase place)

def discard (files : Files) (p : Path) : Files :=
  match files.remove p with
  | .ok files => files
  | .error _ => files

def entries (files : Files) (dir : Place) : List (FileName × Node) :=
  files.nodes.filterMap fun (place, node) =>
    match place.getLast? with
    | some name => if place.dropLast = dir then some (name, node) else none
    | none => none

def list (files : Files) (p : Path) : Except SystemError (List (FileName × Node)) :=
  match files.find p with
  | .error e => .error e
  | .ok (place, .directory) => .ok (files.entries place)
  | .ok _ => .error .notDirectory

end Files

end TemplateViews
