import TemplateViews.Command.Line

/-! The program. It takes a picture of the files that a run can touch, lets the command
line work on the picture and carries over what has changed in it. It starts no compiler
itself: a host that does so runs the command with a toolchain and a linker of its own. -/

namespace TemplateViews.Program

def spelled (base : Place) (p : Path) : Place :=
  p.components.foldl (fun place component =>
    match component with
    | .root => []
    | .here => place
    | .up => place.dropLast
    | .named name => place ++ [Utf8.encode name.toList]) base

def addNode (files : Files) (place : Place) (node : Node) : Files :=
  let above := (List.range place.length).drop 1 |>.map place.take
  (above.foldl (fun files dir => files.put dir .directory) files).put place node

def placeText (place : Place) : String :=
  "/" ++ "/".intercalate (place.map fun name => String.ofList (Utf8.decodeLossy name))

/-- Adds what is at a path to a picture: a file, or a directory with its entries. What
the entries hold is not looked at. -/
def addPath (files : Files) (p : Path) : IO Files := do
  let place := spelled files.base p
  let path := (← IO.currentDir) / placeText place
  if ← path.isDir then
    let mut files := addNode files place .directory
    for entry in ← path.readDir do
      let inner := place ++ [Utf8.encode entry.fileName.toList]
      if (files.node? inner).isNone then
        let node : Node := match (← entry.path.metadata).type with
          | .file => .file []
          | .dir => .directory
          | _ => .link
        files := addNode files inner node
    return files
  else if ← path.pathExists then
    return addNode files place (.file (← IO.FS.readBinFile path).toList)
  else return files

/-- A picture with all that a request can touch. -/
def picture (environment : Environment) (request : Request) : IO Files := do
  let base := spelled [] ⟨(← IO.currentDir).toString⟩
  let files : Files := { addNode {} base .directory with base := base }
  match request with
  | .run arguments =>
    let files ← (arguments.template :: arguments.manifest.toList).foldlM addPath files
    match arguments.configure environment files with
    | .ok (settings, _) => addPath files settings.scratchDir
    | .error _ => return files
  | _ => return files

/-- Carries changes of a picture over to the files of the system. -/
def commit (before after : Files) : IO Unit := do
  for (place, node) in before.nodes do
    if node.isFile && (after.node? place).isNone then IO.FS.removeFile (placeText place)
  for (place, node) in after.nodes do
    match node with
    | .file content =>
      if before.node? place ≠ some node then
        IO.FS.writeBinFile (placeText place) (ByteArray.mk content.toArray)
    | _ => pure ()

def services (environment : Environment) (token : Token) : Services where
  environment := environment
  toolchain := ⟨fun _ _ _ => .error (.other "programs are started by the host")⟩
  linker := { inspect := fun _ => none }
  token := token

def randomToken : IO Token := do
  let bytes ← IO.getRandomBytes 16
  return ⟨bytes.toList.foldl (fun n b => n * 256 + b.toNat) 0⟩

end TemplateViews.Program

open TemplateViews TemplateViews.Program in
def main (arguments : List String) : IO UInt32 := do
  let environment : Environment := ⟨← IO.getEnv "RUSTC", ← IO.getEnv "TMPDIR"⟩
  let request := Request.ofArguments arguments
  let before ← picture environment request
  let (outcome, host) := request.answer (services environment (← randomToken)) ⟨before, []⟩
  commit before host.files
  IO.print outcome.stdout
  IO.eprint outcome.stderr
  return outcome.exit.toUInt32
